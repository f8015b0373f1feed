import ClubBooking.Fault

/-! Half-open ranges of instants: a slot holds its start and not its end, so slots that follow
each other do not overlap. -/

namespace ClubBooking

structure TimeSlot where
  start : DateTime
  stop : DateTime
  start_lt_stop : start < stop
deriving DecidableEq

namespace TimeSlot

def make (start stop : DateTime) : Except Fault TimeSlot :=
  if h : start < stop then .ok ⟨start, stop, h⟩ else .error (.reversed (.instants start stop))

def startingAt (start : DateTime) (minutes : Int) : Except Fault TimeSlot :=
  match start.addMinutes? minutes with
  | some stop => make start stop
  | none => .error (.reversed (.unreachable start minutes))

def nanos (s : TimeSlot) : Int := s.start.nanosUntil s.stop

def seconds (s : TimeSlot) : Int := s.nanos.tdiv 1000000000

def minutes (s : TimeSlot) : Int := s.seconds.tdiv 60

def contains (s : TimeSlot) (t : DateTime) : Bool := s.start ≤ t && t < s.stop

def containsSlot (s t : TimeSlot) : Bool := s.start ≤ t.start && t.stop ≤ s.stop

def overlaps (s t : TimeSlot) : Bool := s.start < t.stop && t.start < s.stop

def isAdjacentTo (s t : TimeSlot) : Bool := s.stop = t.start || t.stop = s.start

def isWithinSingleDay (s : TimeSlot) : Bool := s.start.date.day == s.stop.dayNumberBefore

def text (s : TimeSlot) : String := "[" ++ s.start.minuteText ++ ", " ++ s.stop.minuteText ++ ")"

theorem make_eq_ok_iff {start stop : DateTime} {s : TimeSlot} :
    make start stop = .ok s ↔ s.start = start ∧ s.stop = stop := by
  unfold make
  split
  · constructor
    · rintro ⟨⟩; exact ⟨rfl, rfl⟩
    · rintro ⟨rfl, rfl⟩; rfl
  · next h =>
    simp only [reduceCtorEq, false_iff]
    rintro ⟨rfl, rfl⟩
    exact h s.start_lt_stop

theorem contains_iff {s : TimeSlot} {t : DateTime} : s.contains t ↔ s.start ≤ t ∧ t < s.stop := by
  simp [contains]

theorem containsSlot_iff {s t : TimeSlot} :
    s.containsSlot t ↔ s.start ≤ t.start ∧ t.stop ≤ s.stop := by
  simp [containsSlot]

theorem overlaps_iff {s t : TimeSlot} : s.overlaps t ↔ s.start < t.stop ∧ t.start < s.stop := by
  simp [overlaps]

theorem overlaps_comm (s t : TimeSlot) : s.overlaps t = t.overlaps s :=
  Bool.and_comm _ _

theorem isAdjacentTo_comm (s t : TimeSlot) : s.isAdjacentTo t = t.isAdjacentTo s :=
  Bool.or_comm _ _

theorem contains_start (s : TimeSlot) : s.contains s.start :=
  contains_iff.2 ⟨Int.le_refl _, s.start_lt_stop⟩

theorem overlaps_of_contains {s t : TimeSlot} {i : DateTime} (hs : s.contains i)
    (ht : t.contains i) : s.overlaps t := by
  obtain ⟨hs, hs'⟩ := contains_iff.1 hs
  obtain ⟨ht, ht'⟩ := contains_iff.1 ht
  exact overlaps_iff.2 ⟨Int.lt_of_le_of_lt hs ht', Int.lt_of_le_of_lt ht hs'⟩

end TimeSlot
end ClubBooking
