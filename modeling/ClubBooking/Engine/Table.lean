import ClubBooking.Identifier

/-! Tables of values by identifier. Each identifier has one row at most; a new one is put at the
end, and a value put under a known one takes its place. -/

namespace ClubBooking

structure Table (α : Type) where
  rows : List (Identifier × α)

namespace Table
variable {α : Type}

def empty : Table α := ⟨[]⟩

def putRow (k : Identifier) (v : α) : List (Identifier × α) → List (Identifier × α)
  | [] => [(k, v)]
  | r :: rs => if r.1 = k then (k, v) :: rs else r :: putRow k v rs

def put (t : Table α) (k : Identifier) (v : α) : Table α := ⟨putRow k v t.rows⟩

def get? (t : Table α) (k : Identifier) : Option α := (t.rows.find? (·.1 = k)).map (·.2)

def values (t : Table α) : List α := t.rows.map (·.2)

theorem find?_putRow (k : Identifier) (v : α) (rs : List (Identifier × α)) (j : Identifier) :
    (putRow k v rs).find? (·.1 = j) = if k = j then some (k, v) else rs.find? (·.1 = j) := by
  induction rs with
  | nil => by_cases hkj : k = j <;> simp [putRow, hkj]
  | cons r rs ih =>
    unfold putRow
    split
    · next hr => by_cases hkj : k = j <;> simp [hkj, hr]
    · next hr =>
      by_cases hrj : r.1 = j
      · have hkj : k ≠ j := fun h => hr (hrj.trans h.symm)
        simp [hrj, hkj]
      · simp [hrj, ih]

theorem get?_put (t : Table α) (k : Identifier) (v : α) (j : Identifier) :
    (t.put k v).get? j = if k = j then some v else t.get? j := by
  unfold get? put
  rw [find?_putRow]
  split <;> rfl

theorem get?_empty (j : Identifier) : (empty : Table α).get? j = none := rfl

end Table
end ClubBooking
