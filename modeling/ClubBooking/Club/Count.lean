/-! Counts of 32 bits that stop at their greatest value and at zero instead of wrapping round. -/

namespace ClubBooking.Count

def ofNat (n : Nat) : UInt32 :=
  .ofNatLT (min n 4294967295) (by
    show min n 4294967295 < 4294967296
    omega)

def add (a b : UInt32) : UInt32 := ofNat (a.toNat + b.toNat)

def sub (a b : UInt32) : UInt32 := ofNat (a.toNat - b.toNat)

def sum (ns : List UInt32) : UInt32 := ns.foldl add 0

theorem toNat_ofNat (n : Nat) : (ofNat n).toNat = min n 4294967295 := UInt32.toNat_ofNatLT

theorem toNat_add (a b : UInt32) : (add a b).toNat = min (a.toNat + b.toNat) 4294967295 :=
  toNat_ofNat _

theorem toNat_sub (a b : UInt32) : (sub a b).toNat = a.toNat - b.toNat := by
  have ha := a.toNat_lt
  rw [sub, toNat_ofNat]
  omega

end ClubBooking.Count
