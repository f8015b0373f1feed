import ClubBooking.Text.Characters
import ClubBooking.Text.Named

/-! Named strictness levels of an eligibility policy. -/

namespace ClubBooking

inductive Level where
  | minimal | basic | standard | strict
  /-- The rules are listed by the caller. -/
  | custom
deriving DecidableEq, Repr

namespace Level

def name : Level → String
  | minimal => "minimal"
  | basic => "basic"
  | standard => "standard"
  | strict => "strict"
  | custom => "custom"

instance : Named Level where
  noun := "policy level"
  members := [minimal, basic, standard, strict, custom]
  name := name
  mem_members a := by cases a <;> decide
  name_inj a b h := by cases a <;> cases b <;> simp [name] at h ⊢

instance : Inhabited Level := ⟨standard⟩

def read (s : String) : Except UnknownName Level :=
  match Named.find? (String.ofList (Text.lower s.toList)) with
  | some l => .ok l
  | none => .error ⟨"policy level", s⟩

end Level
end ClubBooking
