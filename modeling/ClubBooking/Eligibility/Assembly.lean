import ClubBooking.Eligibility.Policy

/-! Policies put together step by step. Named rules stay names until the policy is built, so it is
the last profile that they are built from, wherever it was set. -/

namespace ClubBooking

/-- A rule to be built from a profile, or a condition as it is. -/
inductive AssemblyEntry where
  | named (r : RuleName)
  | given (c : Condition)

def AssemblyEntry.build (p : Profile) : AssemblyEntry → Except Fault Condition
  | named r => do
    let r ← r.build p
    pure (.rule r)
  | given c => .ok c

structure Assembly where
  name : String
  profile : Profile
  mode : CombinationMode
  entries : List AssemblyEntry

namespace Assembly

def empty (name : String) : Assembly := ⟨name, .standard, .all, []⟩

/-- The profile and the rules of a level; a custom level starts empty. -/
def ofLevel (name : String) (l : Level) : Assembly :=
  match l.preset? with
  | some (profile, rules) => ⟨name, profile, .all, rules.map .named⟩
  | none => empty name

def withProfile (a : Assembly) (p : Profile) : Assembly := { a with profile := p }

def withMode (a : Assembly) (m : CombinationMode) : Assembly := { a with mode := m }

def addRules (a : Assembly) (rs : List RuleName) : Assembly :=
  { a with entries := a.entries ++ rs.map .named }

def addRule (a : Assembly) (r : RuleName) : Assembly := a.addRules [r]

def addCondition (a : Assembly) (c : Condition) : Assembly :=
  { a with entries := a.entries ++ [.given c] }

inductive Step where
  | rule (r : RuleName)
  | rules (rs : List RuleName)
  | condition (c : Condition)
  | profile (p : Profile)
  | mode (m : CombinationMode)

def step (a : Assembly) : Step → Assembly
  | .rule r => a.addRule r
  | .rules rs => a.addRules rs
  | .condition c => a.addCondition c
  | .profile p => a.withProfile p
  | .mode m => a.withMode m

def steps (a : Assembly) (ss : List Step) : Assembly := ss.foldl step a

def build (a : Assembly) : Except Fault EligibilityPolicy := do
  let conditions ← a.entries.mapM (·.build a.profile)
  EligibilityPolicy.make a.name conditions a.mode

end Assembly
end ClubBooking
