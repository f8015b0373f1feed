import ClubBooking.Eligibility.Profile

/-! Eligibility policies: a list of conditions, all of which must hold or one of which. The verdict
comes from one condition that they are put together to; the reasons of a denial come from each of
them. -/

namespace ClubBooking

inductive CombinationMode where
  | all | any
deriving DecidableEq, Repr

namespace CombinationMode

def name : CombinationMode → String
  | all => "all"
  | any => "any"

instance : Named CombinationMode where
  noun := "combination mode"
  members := [all, any]
  name := name
  mem_members a := by cases a <;> decide
  name_inj a b h := by cases a <;> cases b <;> simp [name] at h ⊢

end CombinationMode

/-- What a policy says of a request: no reasons if it is allowed. -/
structure Decision where
  policy : String
  allowed : Bool
  reasons : List String
deriving DecidableEq

def Decision.summary (d : Decision) : String :=
  if d.allowed then "Reservation allowed under " ++ d.policy ++ " policy"
  else "; ".intercalate d.reasons

structure EligibilityPolicy where
  name : String
  mode : CombinationMode
  first : Condition
  others : List Condition

namespace EligibilityPolicy

def make (name : String) (conditions : List Condition) (mode : CombinationMode) :
    Except Fault EligibilityPolicy := do
  let name ← nonBlank "policy name" name
  match conditions with
  | [] => .error (.emptyList "eligibility rules")
  | c :: cs => .ok ⟨name, mode, c, cs⟩

def conditions (p : EligibilityPolicy) : List Condition := p.first :: p.others

def tree (p : EligibilityPolicy) : Condition :=
  match p.mode with
  | .all => p.others.foldl .and p.first
  | .any => p.others.foldl .or p.first

def description (p : EligibilityPolicy) : String := p.tree.description

def allows (p : EligibilityPolicy) (s : Snapshot) : Bool := p.tree.holds s

def asked (p : EligibilityPolicy) (s : Snapshot) : List String := p.tree.asked s

def reasons (p : EligibilityPolicy) (s : Snapshot) : List String :=
  p.conditions.filterMap (·.reason? s)

def evaluate (p : EligibilityPolicy) (s : Snapshot) : Decision :=
  if p.allows s then ⟨p.name, true, []⟩
  else
    match p.reasons s with
    | [] => ⟨p.name, false, ["Reservation denied by " ++ p.name ++ " policy"]⟩
    | rs => ⟨p.name, false, rs⟩

def violation (p : EligibilityPolicy) (s : Snapshot) : String := (p.evaluate s).summary

def ofProfile (name : String) (profile : Profile) (rules : List RuleName) :
    Except Fault EligibilityPolicy := do
  let rules ← rules.mapM (·.build profile)
  make name (rules.map .rule) .all

def standard : Except Fault EligibilityPolicy := ofProfile "standard" .standard RuleName.fullSet

def restrictive : Except Fault EligibilityPolicy :=
  ofProfile "restrictive" .restrictive RuleName.fullSet

def premium : Except Fault EligibilityPolicy := ofProfile "premium" .premium RuleName.fullSet

def forLevel (l : Level) : Except Fault EligibilityPolicy :=
  match l.preset? with
  | some (profile, rules) => ofProfile ("flexible:" ++ l.name) profile rules
  | none => .error (.misconfigured (.levelWithoutRules l))

theorem allows_eq_all {p : EligibilityPolicy} (h : p.mode = .all) (s : Snapshot) :
    p.allows s = p.conditions.all (·.holds s) := by
  simp only [allows, tree, h, conditions, List.all_cons]
  exact Condition.holds_foldl_and s p.others p.first

theorem allows_eq_any {p : EligibilityPolicy} (h : p.mode = .any) (s : Snapshot) :
    p.allows s = p.conditions.any (·.holds s) := by
  simp only [allows, tree, h, conditions, List.any_cons]
  exact Condition.holds_foldl_or s p.others p.first

theorem allowed_evaluate (p : EligibilityPolicy) (s : Snapshot) :
    (p.evaluate s).allowed = p.allows s := by
  unfold evaluate
  split
  · next h => exact h.symm
  · next h =>
    split <;> simpa using h

end EligibilityPolicy
end ClubBooking
