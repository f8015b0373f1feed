import ClubBooking.Proofs.Eligibility.Reasons
import Mathlib.Data.List.Perm.Subperm

/-! What the rules make of the use of the club. Fewer seats taken or asked for and fewer
reservations held speak against no request, as long as conditions are put together without `not` and
without tests; and the order of the held reservations speaks for nothing. -/

namespace ClubBooking

namespace Snapshot

structure Alike (t s : Snapshot) : Prop where
  member : t.member = s.member
  plan : t.plan = s.plan
  resource : t.resource = s.resource
  slot : t.slot = s.slot
  now : t.now = s.now

/-- The same request with no more seats taken or asked for, and with no reservation held that is not
held in the other. -/
structure Relieves (t s : Snapshot) : Prop extends t.Alike s where
  occupancy : t.occupancy ≤ s.occupancy
  partySize : t.partySize ≤ s.partySize
  held : t.held.Subperm s.held

structure SameButHeld (t s : Snapshot) : Prop extends t.Alike s where
  occupancy : t.occupancy = s.occupancy
  partySize : t.partySize = s.partySize

structure Reorders (t s : Snapshot) : Prop extends t.SameButHeld s where
  held : t.held.Perm s.held

end Snapshot

theorem Explained.verdict_eq {v w : Bool} {reason : Option String} (hv : Explained v reason)
    (hw : Explained w reason) : v = w := by
  rw [Bool.eq_iff_iff, ← hv.reason_eq_none_iff, hw.reason_eq_none_iff]

section Rules
variable {s t : Snapshot}

def Rule.ReadsUse : Rule → Prop
  | .capacity _ | .simultaneous _ => True
  | .activeMember _ | .privilege _ | .bookingTime _ | .advance _ | .restriction _ => False

theorem Rule.reason?_of_alike {r : Rule} (hr : ¬ r.ReadsUse) (h : t.Alike s) :
    r.reason? t = r.reason? s := by
  cases s
  cases t
  obtain ⟨rfl, rfl, rfl, rfl, rfl⟩ := h
  cases r with
  | capacity r | simultaneous r => exact (hr trivial).elim
  | activeMember r | privilege r | bookingTime r | advance r | restriction r => rfl

theorem CapacityRule.requestedSeats_mono (h : t.Relieves s) :
    requestedSeats t ≤ requestedSeats s := by
  have hoccupancy := UInt32.le_iff_toNat_le.1 h.occupancy
  have hparty := UInt32.le_iff_toNat_le.1 h.partySize
  simp only [requestedSeats, UInt32.le_iff_toNat_le, Count.toNat_add]
  omega

theorem CapacityRule.holds_of_relieves {r : CapacityRule} (h : t.Relieves s) (hs : r.holds s) :
    r.holds t := by
  simp only [holds, Bool.and_eq_true, decide_eq_true_eq, h.resource] at hs ⊢
  exact ⟨hs.1, UInt32.le_trans (requestedSeats_mono h) hs.2⟩

theorem SimultaneousLimit.limit_of_alike (r : SimultaneousLimit) (h : t.Alike s) :
    r.limit t = r.limit s := by
  simp only [limit, h.plan]

theorem SimultaneousLimit.holds_of_relieves {r : SimultaneousLimit} (h : t.Relieves s)
    (hs : r.holds s) : r.holds t := by
  simp only [holds, decide_eq_true_eq, r.limit_of_alike h.toAlike] at hs ⊢
  exact Nat.lt_of_le_of_lt (h.held.countP_le _) hs

theorem Rule.holds_of_relieves {r : Rule} (h : t.Relieves s) (hs : r.holds s) : r.holds t := by
  by_cases hr : r.ReadsUse
  · cases r with
    | capacity r => exact r.holds_of_relieves h hs
    | simultaneous r => exact r.holds_of_relieves h hs
    | activeMember r | privilege r | bookingTime r | advance r | restriction r => exact hr.elim
  · have ht := r.explained t
    rw [Rule.reason?_of_alike hr h.toAlike] at ht
    rw [ht.verdict_eq (r.explained s)]
    exact hs

theorem Rule.reason?_of_reorders (r : Rule) (h : t.Reorders s) : r.reason? t = r.reason? s := by
  by_cases hr : r.ReadsUse
  · cases r with
    | capacity r =>
      cases s
      cases t
      obtain ⟨⟨⟨rfl, rfl, rfl, rfl, rfl⟩, rfl, rfl⟩, -⟩ := h
      rfl
    | simultaneous r =>
      have hheld : r.held t = r.held s := h.held.countP_eq _
      simp only [reason?, SimultaneousLimit.reason?, hheld, r.limit_of_alike h.toAlike]
    | activeMember r | privilege r | bookingTime r | advance r | restriction r => exact hr.elim
  · exact Rule.reason?_of_alike hr h.toAlike

end Rules

theorem CombinationMode.forall_chain {P : Condition → Prop} (hand : ∀ l r, P l → P r → P (.and l r))
    (hor : ∀ l r, P l → P r → P (.or l r)) {mode : CombinationMode} {cs : List Condition}
    {tree : Condition} (hcs : ∀ c ∈ cs, P c) (h : mode.chain cs = .ok tree) : P tree := by
  cases cs with
  | nil => cases mode <;> cases h
  | cons c cs =>
    rw [List.forall_mem_cons] at hcs
    cases mode with
    | all =>
      cases h
      exact List.foldlRecOn cs _ hcs.1 fun tree htree d hd => hand tree d htree (hcs.2 d hd)
    | any =>
      cases h
      exact List.foldlRecOn cs _ hcs.1 fun tree htree d hd => hor tree d htree (hcs.2 d hd)

namespace Condition
variable {s t : Snapshot} {c : Condition}

inductive IsPositive : Condition → Prop where
  | rule (r : Rule) : IsPositive (.rule r)
  | and {left right : Condition} (hl : left.IsPositive) (hr : right.IsPositive) :
      IsPositive (.and left right)
  | or {left right : Condition} (hl : left.IsPositive) (hr : right.IsPositive) :
      IsPositive (.or left right)

theorem IsPositive.holds_of_relieves (hc : c.IsPositive) (h : t.Relieves s) (hs : c.holds s) :
    c.holds t := by
  induction hc with
  | rule r => exact r.holds_of_relieves h hs
  | and _ _ ihl ihr =>
    rw [holds, Bool.and_eq_true] at hs ⊢
    exact ⟨ihl hs.1, ihr hs.2⟩
  | or _ _ ihl ihr =>
    rw [holds, Bool.or_eq_true] at hs ⊢
    exact hs.imp ihl ihr

/-- Every test of a condition gives the same answer whatever reservations are held. -/
def IgnoresHeld : Condition → Prop
  | rule _ => True
  | test _ accepts => ∀ s t : Snapshot, t.SameButHeld s → accepts t = accepts s
  | and l r | or l r => l.IgnoresHeld ∧ r.IgnoresHeld
  | not c => c.IgnoresHeld

theorem holds_of_reason?_eq (h : c.reason? t = c.reason? s) : c.holds t = c.holds s := by
  have ht := c.explained t
  rw [h] at ht
  exact ht.verdict_eq (c.explained s)

theorem IgnoresHeld.reason?_of_reorders (hc : c.IgnoresHeld) (h : t.Reorders s) :
    c.reason? t = c.reason? s := by
  induction c with
  | rule r => exact r.reason?_of_reorders h
  | test d accepts => simp only [reason?, hc s t h.toSameButHeld]
  | and l r ihl ihr => simp only [reason?, ihl hc.1, ihr hc.2]
  | or l r ihl ihr =>
    have hl := ihl hc.1
    have hr := ihr hc.2
    simp only [reason?, hl, hr, holds_of_reason?_eq hl, holds_of_reason?_eq hr]
  | not c ih => simp only [reason?, holds_of_reason?_eq (ih hc)]

end Condition

namespace EligibilityPolicy
variable {p : EligibilityPolicy} {s t : Snapshot}

theorem allows_of_relieves (hp : ∀ c ∈ p.conditions, c.IsPositive) (h : t.Relieves s)
    (hs : p.allows s) : p.allows t := by
  have htree : p.tree.IsPositive :=
    CombinationMode.forall_chain (fun _ _ => .and) (fun _ _ => .or) hp p.tree_eq_chain
  exact htree.holds_of_relieves h hs

theorem evaluate_of_reorders (hp : ∀ c ∈ p.conditions, c.IgnoresHeld) (h : t.Reorders s) :
    p.evaluate t = p.evaluate s := by
  have htree : p.tree.IgnoresHeld :=
    CombinationMode.forall_chain (fun _ _ => And.intro) (fun _ _ => And.intro) hp p.tree_eq_chain
  have hverdict : p.allows t = p.allows s :=
    Condition.holds_of_reason?_eq (htree.reason?_of_reorders h)
  have hreasons : p.reasons t = p.reasons s :=
    List.filterMap_congr fun c hc => (hp c hc).reason?_of_reorders h
  simp only [evaluate, hverdict, hreasons]

end EligibilityPolicy
end ClubBooking
