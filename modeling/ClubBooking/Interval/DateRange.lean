import ClubBooking.Fault

/-! Closed ranges of days. -/

namespace ClubBooking

structure DateRange where
  first : Date
  last : Date
  first_le_last : first ≤ last
deriving DecidableEq

namespace DateRange

def make (first last : Date) : Except Fault DateRange :=
  if h : first ≤ last then .ok ⟨first, last, h⟩ else .error (.reversed (.dates first last))

def singleDay (d : Date) : DateRange := ⟨d, d, Int.le_refl _⟩

def days (r : DateRange) : Int := r.last.day - r.first.day + 1

def contains (r : DateRange) (d : Date) : Bool := r.first ≤ d && d ≤ r.last

def containsRange (r s : DateRange) : Bool := r.first ≤ s.first && s.last ≤ r.last

def overlaps (r s : DateRange) : Bool := r.first ≤ s.last && s.first ≤ r.last

/-- One range ends the day before the other begins. -/
def isAdjacentTo (r s : DateRange) : Bool :=
  r.last.next? = some s.first || s.last.next? = some r.first

/-- The same range with its last day put off, at most to the last date there is. -/
def extendedBy (r : DateRange) (days : UInt32) : DateRange :=
  match h : r.last.addDays? days.toNat with
  | some d => ⟨r.first, d, by
      have hd := Date.day_of_addDays? h
      have hr := Date.le_iff.1 r.first_le_last
      rw [Date.le_iff]
      omega⟩
  | none => ⟨r.first, Date.last, r.first.le_last⟩

def text (r : DateRange) : String := "[" ++ r.first.text ++ ", " ++ r.last.text ++ "]"

theorem make_eq_ok_iff {first last : Date} {r : DateRange} :
    make first last = .ok r ↔ r.first = first ∧ r.last = last := by
  unfold make
  split
  · constructor
    · rintro ⟨⟩; exact ⟨rfl, rfl⟩
    · rintro ⟨rfl, rfl⟩; rfl
  · next h =>
    simp only [reduceCtorEq, false_iff]
    rintro ⟨rfl, rfl⟩
    exact h r.first_le_last

theorem contains_iff {r : DateRange} {d : Date} : r.contains d ↔ r.first ≤ d ∧ d ≤ r.last := by
  simp [contains]

theorem containsRange_iff {r s : DateRange} :
    r.containsRange s ↔ r.first ≤ s.first ∧ s.last ≤ r.last := by
  simp [containsRange]

theorem overlaps_iff {r s : DateRange} :
    r.overlaps s ↔ r.first ≤ s.last ∧ s.first ≤ r.last := by
  simp [overlaps]

theorem overlaps_comm (r s : DateRange) : r.overlaps s = s.overlaps r :=
  Bool.and_comm _ _

theorem isAdjacentTo_comm (r s : DateRange) : r.isAdjacentTo s = s.isAdjacentTo r :=
  Bool.or_comm _ _

end DateRange
end ClubBooking
