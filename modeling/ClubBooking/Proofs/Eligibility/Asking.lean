import ClubBooking.Proofs.Eligibility.Reasons
import Mathlib.Data.List.GetD

/-! Which tests a condition asks, and in which order. Conditions put together with `and`, or with
`or`, ask the same tests in the same order however they are bracketed: those of one member after the
other, up to the first that decides. No place of a tree is asked twice, and none before one that
stands to its left. -/

namespace ClubBooking

namespace CombinationMode
variable {s : Snapshot} {c d : Condition}

def op : CombinationMode → Condition → Condition → Condition
  | all => .and
  | any => .or

def goesOn : CombinationMode → Bool → Bool
  | all => id
  | any => Bool.not

def consulted (mode : CombinationMode) (s : Snapshot) (cs : List Condition) : List Condition :=
  cs.takeWhile (fun c => mode.goesOn (c.holds s)) ++
    (cs.dropWhile fun c => mode.goesOn (c.holds s)).take 1

theorem holds_op (mode : CombinationMode) :
    (mode.op c d).holds s = if mode.goesOn (c.holds s) then d.holds s else c.holds s := by
  cases mode <;> cases h : c.holds s <;> simp [op, goesOn, Condition.holds, h]

theorem asked_op (mode : CombinationMode) :
    (mode.op c d).asked s = c.asked s ++ if mode.goesOn (c.holds s) then d.asked s else [] := by
  cases mode <;> cases h : c.holds s <;> simp [op, goesOn, Condition.asked, h]

theorem goesOn_decides (mode : CombinationMode) (cs : List Condition) :
    mode.goesOn (mode.decides (·.holds s) cs) = cs.all fun c => mode.goesOn (c.holds s) := by
  cases mode with
  | all => rfl
  | any => exact List.not_any_eq_all_not ..

theorem consulted_cons (mode : CombinationMode) (c : Condition) (cs : List Condition) :
    mode.consulted s (c :: cs) =
      c :: if mode.goesOn (c.holds s) then mode.consulted s cs else [] := by
  cases h : mode.goesOn (c.holds s) <;> simp [consulted, h]

theorem consulted_append (mode : CombinationMode) (cs ds : List Condition) :
    mode.consulted s (cs ++ ds) = mode.consulted s cs ++
      if mode.goesOn (mode.decides (·.holds s) cs) then mode.consulted s ds else [] := by
  rw [goesOn_decides]
  induction cs with
  | nil => rfl
  | cons c cs ih =>
    rw [List.cons_append, consulted_cons, consulted_cons, ih, List.all_cons]
    cases mode.goesOn (c.holds s) <;> simp

end CombinationMode

namespace Condition
variable {s : Snapshot}

/-- The verdict, found by asking one test after the other; each is written to a log as it is asked.
-/
def consult (s : Snapshot) : Condition → List String → Bool × List String
  | rule r, log => (r.holds s, log)
  | test d accepts, log => (accepts s, log ++ [d])
  | and l r, log =>
    match l.consult s log with
    | (true, log) => r.consult s log
    | (false, log) => (false, log)
  | or l r, log =>
    match l.consult s log with
    | (true, log) => (true, log)
    | (false, log) => r.consult s log
  | not c, log =>
    let (verdict, log) := c.consult s log
    (!verdict, log)

theorem consult_eq (c : Condition) (s : Snapshot) (log : List String) :
    c.consult s log = (c.holds s, log ++ c.asked s) := by
  induction c generalizing log with
  | rule r => simp [consult, holds, asked]
  | test d accepts => rfl
  | and l r hl hr => cases h : l.holds s <;> simp [consult, holds, asked, hl, hr, h]
  | or l r hl hr => cases h : l.holds s <;> simp [consult, holds, asked, hl, hr, h]
  | not c hc => simp [consult, holds, asked, hc]

structure Agrees (s : Snapshot) (c d : Condition) : Prop where
  holds : c.holds s = d.holds s
  asked : c.asked s = d.asked s

/-- Some conditions, put together in their order two at a time. -/
inductive Bracketing (op : Condition → Condition → Condition) : List Condition → Condition → Prop
  | one (c : Condition) : Bracketing op [c] c
  | join {cs ds : List Condition} {c d : Condition} (hc : Bracketing op cs c)
      (hd : Bracketing op ds d) : Bracketing op (cs ++ ds) (op c d)

theorem Bracketing.foldl {op : Condition → Condition → Condition} {cs : List Condition}
    {c : Condition} (h : Bracketing op cs c) (ds : List Condition) :
    Bracketing op (cs ++ ds) (ds.foldl op c) := by
  induction ds generalizing cs c with
  | nil => simpa using h
  | cons d ds ih => simpa using ih (h.join (.one d))

theorem bracketing_of_chain {mode : CombinationMode} {cs : List Condition} {tree : Condition}
    (h : mode.chain cs = .ok tree) : Bracketing mode.op cs tree := by
  cases cs with
  | nil => cases mode <;> cases h
  | cons c cs => cases mode <;> cases h <;> exact (Bracketing.one c).foldl cs

theorem Bracketing.holds_eq {mode : CombinationMode} {cs : List Condition} {c : Condition}
    (h : Bracketing mode.op cs c) : c.holds s = mode.decides (·.holds s) cs := by
  induction h with
  | one c => cases mode <;> simp [CombinationMode.decides]
  | join hc hd ihc ihd =>
    rw [CombinationMode.holds_op, ihc, ihd, CombinationMode.decides_append]
    cases mode <;> cases CombinationMode.decides _ (fun c : Condition => c.holds s) _ <;> rfl

theorem Bracketing.asked_eq {mode : CombinationMode} {cs : List Condition} {c : Condition}
    (h : Bracketing mode.op cs c) : c.asked s = (mode.consulted s cs).flatMap (·.asked s) := by
  induction h with
  | one c =>
    rw [CombinationMode.consulted_cons]
    simp [CombinationMode.consulted]
  | join hc hd ihc ihd =>
    rw [CombinationMode.asked_op, CombinationMode.consulted_append, List.flatMap_append, ← ihc,
      hc.holds_eq, ihd]
    split <;> rfl

def tests : Condition → List String
  | rule _ => []
  | test d _ => [d]
  | and l r => l.tests ++ r.tests
  | or l r => l.tests ++ r.tests
  | not c => c.tests

def named (name : Nat → String) : Condition → Condition
  | rule r => rule r
  | test _ accepts => test (name 0) accepts
  | and l r => and (l.named name) (r.named fun i => name (l.tests.length + i))
  | or l r => or (l.named name) (r.named fun i => name (l.tests.length + i))
  | not c => not (c.named name)

/-- The tests at these places are asked, one after the other, whatever they are called. -/
structure AsksAt (s : Snapshot) (c : Condition) (places : List Nat) : Prop where
  increasing : places.Pairwise (· < ·)
  lt : ∀ i ∈ places, i < c.tests.length
  asked : ∀ name, (c.named name).asked s = places.map name

theorem holds_named (c : Condition) (name : Nat → String) : (c.named name).holds s = c.holds s := by
  induction c generalizing name with
  | rule r => rfl
  | test d accepts => rfl
  | and l r hl hr => rw [named, holds, holds, hl, hr]
  | or l r hl hr => rw [named, holds, holds, hl, hr]
  | not c hc => rw [named, holds, holds, hc]

theorem named_congr (c : Condition) {f g : Nat → String} (h : ∀ i < c.tests.length, f i = g i) :
    c.named f = c.named g := by
  induction c generalizing f g with
  | rule r => rfl
  | test d accepts => rw [named, named, h 0 Nat.one_pos]
  | and l r hl hr | or l r hl hr =>
    rw [tests, List.length_append] at h
    rw [named, named, hl fun i hi => h i (by omega), hr fun i hi => h _ (by omega)]
  | not c hc => rw [named, named, hc h]

theorem named_tests (c : Condition) : c.named (c.tests.getD · "") = c := by
  induction c with
  | rule r => rfl
  | test d accepts => rfl
  | and l r hl hr | or l r hl hr =>
    have hleft : l.named ((l.tests ++ r.tests).getD · "") = l :=
      (l.named_congr fun i hi => List.getD_append _ _ _ _ hi).trans hl
    have hright : (r.named fun i => (l.tests ++ r.tests).getD (l.tests.length + i) "") = r := by
      refine (r.named_congr fun i _ => ?_).trans hr
      rw [List.getD_append_right _ _ _ _ (Nat.le_add_right ..), Nat.add_sub_cancel_left]
    rw [tests, named, hleft, hright]
  | not c hc => rw [named, tests, hc]

theorem AsksAt.op {l r : Condition} {ps qs : List Nat} (mode : CombinationMode)
    (hl : AsksAt s l ps) (hr : AsksAt s r qs) :
    AsksAt s (mode.op l r)
      (ps ++ if mode.goesOn (l.holds s) then qs.map (l.tests.length + ·) else []) := by
  have htests : (mode.op l r).tests = l.tests ++ r.tests := by cases mode <;> rfl
  have hnamed (name : Nat → String) : (mode.op l r).named name =
      mode.op (l.named name) (r.named fun i => name (l.tests.length + i)) := by
    cases mode <;> rfl
  have hright : ∀ i ∈ qs.map (l.tests.length + ·), ∃ j ∈ qs, i = l.tests.length + j := by
    simp only [List.mem_map, eq_comm, imp_self, implies_true]
  constructor
  · split
    · refine List.pairwise_append.2 ⟨hl.increasing, ?_, fun i hi j hj => ?_⟩
      · exact hr.increasing.map _ fun i j hij => Nat.add_lt_add_left hij _
      · obtain ⟨k, -, rfl⟩ := hright j hj
        exact Nat.lt_add_right k (hl.lt i hi)
    · simpa using hl.increasing
  · intro i hi
    rw [htests, List.length_append]
    rcases List.mem_append.1 hi with hi | hi
    · exact Nat.lt_add_right _ (hl.lt i hi)
    · split at hi
      · obtain ⟨j, hj, rfl⟩ := hright i hi
        exact Nat.add_lt_add_left (hr.lt j hj) _
      · cases hi
  · intro name
    rw [hnamed, CombinationMode.asked_op, holds_named, hl.asked, hr.asked]
    split <;> simp [Function.comp_def]

theorem exists_asksAt (c : Condition) (s : Snapshot) : ∃ places, AsksAt s c places := by
  induction c with
  | rule r => exact ⟨[], .nil, by simp, fun _ => rfl⟩
  | test d accepts => exact ⟨[0], by simp, by simp [tests], fun _ => rfl⟩
  | and l r hl hr =>
    obtain ⟨ps, hps⟩ := hl
    obtain ⟨qs, hqs⟩ := hr
    exact ⟨_, hps.op .all hqs⟩
  | or l r hl hr =>
    obtain ⟨ps, hps⟩ := hl
    obtain ⟨qs, hqs⟩ := hr
    exact ⟨_, hps.op .any hqs⟩
  | not c hc =>
    obtain ⟨ps, hps⟩ := hc
    exact ⟨ps, hps.increasing, hps.lt, hps.asked⟩

/-- The tests that a condition asks are those that an evaluation writes down. Three conditions ask
alike whichever two are put together first, and so do the members of a list in any bracketing, also
in the chain that is built from them: each member asks its tests in turn, up to the first that
decides. Every place of a tree is asked at most once, and places are asked from left to right. -/
theorem asked_in_order (s : Snapshot) :
    (∀ (c : Condition) (log : List String),
      c.consult s log = (c.holds s, log ++ c.asked s)) ∧
    (∀ (mode : CombinationMode) (a b c : Condition),
      Agrees s (mode.op (mode.op a b) c) (mode.op a (mode.op b c))) ∧
    (∀ (mode : CombinationMode) (c : Condition) (cs : List Condition),
      ∃ tree, mode.chain (c :: cs) = .ok tree ∧
        (∀ d, Bracketing mode.op (c :: cs) d → Agrees s d tree) ∧
        tree.asked s = (mode.consulted s (c :: cs)).flatMap (·.asked s)) ∧
    ∀ c : Condition, ∃ places : List Nat, places.Pairwise (· < ·) ∧
      (∀ i ∈ places, i < c.tests.length) ∧ c.asked s = places.map (c.tests.getD · "") ∧
      ∀ name : Nat → String, (c.named name).asked s = places.map name := by
  have hagrees {mode : CombinationMode} {cs : List Condition} {c d : Condition}
      (hc : Bracketing mode.op cs c) (hd : Bracketing mode.op cs d) : Agrees s c d :=
    ⟨hc.holds_eq.trans hd.holds_eq.symm, hc.asked_eq.trans hd.asked_eq.symm⟩
  refine ⟨fun c log => c.consult_eq s log, fun mode a b c => ?_, fun mode c cs => ?_, fun c => ?_⟩
  · exact hagrees (((Bracketing.one a).join (.one b)).join (.one c))
      ((Bracketing.one a).join ((Bracketing.one b).join (.one c)))
  · obtain ⟨tree, htree⟩ := mode.exists_chain c cs
    have hbracketing := bracketing_of_chain htree
    exact ⟨tree, htree, fun d hd => hagrees hd hbracketing, hbracketing.asked_eq⟩
  · obtain ⟨places, hplaces⟩ := c.exists_asksAt s
    refine ⟨places, hplaces.increasing, hplaces.lt, ?_, hplaces.asked⟩
    rw [← hplaces.asked, named_tests]

example : (and (or (test "a" fun _ => true) (test "b" fun _ => true))
    (or (test "c" fun _ => false) (not (test "a" fun _ => false)))).asked .visit =
      ["a", "c", "a"] := rfl

end Condition
end ClubBooking
