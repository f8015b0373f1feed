/-! Closed vocabularies: types with finitely many members, each known by one name. Reading a name
gives back the member that it was written for, and every other text is refused. -/

namespace ClubBooking

class Named (α : Type) where
  /-- What the vocabulary names, for the text of a refusal. -/
  noun : String
  members : List α
  name : α → String
  mem_members : ∀ a, a ∈ members
  name_inj : ∀ a b, name a = name b → a = b

structure UnknownName where
  noun : String
  text : String
deriving DecidableEq, Repr

def UnknownName.message (u : UnknownName) : String := "Invalid " ++ u.noun ++ ": " ++ u.text

namespace Named
variable {α : Type} [Named α]

def find? (s : String) : Option α := (members : List α).find? (name · == s)

def read (s : String) : Except UnknownName α :=
  match find? s with
  | some a => .ok a
  | none => .error ⟨noun α, s⟩

theorem find?_eq_some_iff {s : String} {a : α} : find? s = some a ↔ name a = s := by
  constructor
  · intro h
    simpa using List.find?_some h
  · rintro rfl
    cases h : (find? (name a) : Option α) with
    | none =>
      have hnot := List.find?_eq_none.1 h a (mem_members a)
      simp at hnot
    | some b =>
      have hb : name b = name a := by simpa using List.find?_some h
      rw [name_inj _ _ hb]

theorem find?_name (a : α) : find? (name a) = some a := find?_eq_some_iff.2 rfl

theorem read_name (a : α) : (read (name a) : Except UnknownName α) = .ok a := by
  simp [read, find?_name]

end Named
end ClubBooking
