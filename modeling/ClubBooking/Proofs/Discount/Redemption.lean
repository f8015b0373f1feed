import ClubBooking.Proofs.Discount.Making
import ClubBooking.Proofs.Discount.Totality
import Mathlib.Data.List.Basic

/-! Redeeming a coupon with the text it was made from. A code is made in capitals, and some letters
outside ASCII have capitals within; a text is presented up to the case of ASCII letters only. So a
text redeems the coupon that was made from it just if it is written in ASCII. -/

namespace ClubBooking

namespace Text
variable {a b : String} {cs : List Char}

def IsAscii (cs : List Char) : Prop := ∀ c ∈ cs, c.toNat < 128

instance (cs : List Char) : Decidable (IsAscii cs) :=
  List.decidableBAll (fun c : Char => c.toNat < 128) cs

theorem toNat_toUpper (c : Char) :
    c.toUpper.toNat = if 97 ≤ c.toNat ∧ c.toNat ≤ 122 then c.toNat - 32 else c.toNat := by
  unfold Char.toUpper
  simp only [UInt32.le_iff_toNat_le]
  split
  · next h =>
    have hsmall : 97 ≤ c.toNat ∧ c.toNat ≤ 122 := h
    have hval : (c.val + ('A'.val - 'a'.val)).toNat = (c.toNat + 4294967264) % 2 ^ 32 := by simp
    rw [if_pos hsmall]
    exact hval.trans (by omega)
  · next h => exact (if_neg h).symm

theorem toNat_toLower (c : Char) :
    c.toLower.toNat = if 65 ≤ c.toNat ∧ c.toNat ≤ 90 then c.toNat + 32 else c.toNat := by
  unfold Char.toLower
  simp only [UInt32.le_iff_toNat_le]
  split
  · next h =>
    have hcapital : 65 ≤ c.toNat ∧ c.toNat ≤ 90 := h
    have hval : (c.val + ('a'.val - 'A'.val)).toNat = (c.toNat + 32) % 2 ^ 32 := by simp
    rw [if_pos hcapital]
    exact hval.trans (by omega)
  · next h => exact (if_neg h).symm

theorem toUpper_toLower (c : Char) : c.toLower.toUpper = c.toUpper := by
  rw [← Char.toNat_inj, toNat_toUpper, toNat_toLower, toNat_toUpper]
  split_ifs <;> omega

theorem toLower_toUpper (c : Char) : c.toUpper.toLower = c.toLower := by
  rw [← Char.toNat_inj, toNat_toLower, toNat_toUpper, toNat_toLower]
  split_ifs <;> omega

theorem toUpper_eq_self {c : Char} (h : c.toNat < 97) : c.toUpper = c := by
  rw [← Char.toNat_inj, toNat_toUpper, if_neg]
  omega

theorem isAscii_of_isAscii_toUpper (h : IsAscii (cs.map Char.toUpper)) : IsAscii cs := by
  intro c hc
  have hupper := h _ (List.mem_map_of_mem hc)
  rw [toNat_toUpper] at hupper
  split_ifs at hupper <;> omega

theorem upper_of_isAscii (h : IsAscii cs) : upper cs = cs.map Char.toUpper := by
  have hchar : ∀ c ∈ cs, upperChar c = [c.toUpper] := by
    intro c hc
    have hlt := h c hc
    unfold upperChar
    split
    all_goals first | rfl | exact absurd hlt (by decide)
  rw [upper, List.flatMap_congr hchar, List.map_eq_flatMap]

theorem sameLetters_iff :
    sameLetters a b ↔ a.toList.map Char.toUpper = b.toList.map Char.toUpper := by
  have hup : Char.toUpper ∘ Char.toLower = Char.toUpper := funext toUpper_toLower
  have hlow : Char.toLower ∘ Char.toUpper = Char.toLower := funext toLower_toUpper
  rw [sameLetters, beq_iff_eq, lower, lower]
  constructor
  · intro h
    have hboth := congrArg (List.map Char.toUpper) h
    rwa [List.map_map, List.map_map, hup] at hboth
  · intro h
    have hboth := congrArg (List.map Char.toLower) h
    rwa [List.map_map, List.map_map, hlow] at hboth

end Text

namespace CouponCode

theorem IsAlnum.toNat_lt {c : Char} (h : IsAlnum c) : c.toNat < 97 := by
  rcases h with ⟨-, h⟩ | ⟨-, h⟩
  · exact Nat.lt_of_le_of_lt (m := 90) h (by decide)
  · exact Nat.lt_of_le_of_lt (m := 57) h (by decide)

theorem toNat_lt_of_mem_chars {code : CouponCode} {c : Char} (hc : c ∈ code.chars) :
    c.toNat < 97 := by
  rcases code.all_marks c hc with h | h | rfl | rfl
  · exact (isAlnum_iff.2 (.inl h)).toNat_lt
  · exact (isAlnum_iff.2 (.inr h)).toNat_lt
  · decide
  · decide

theorem toUpper_chars (code : CouponCode) : code.chars.map Char.toUpper = code.chars :=
  (List.map_congr_left fun _ hc => Text.toUpper_eq_self (toNat_lt_of_mem_chars hc)).trans
    (List.map_id _)

theorem isAscii_chars (code : CouponCode) : Text.IsAscii code.chars := by
  intro c hc
  have := toNat_lt_of_mem_chars hc
  omega

theorem sameLetters_text_iff {s : String} {code : CouponCode} :
    Text.sameLetters s code.text ↔ Text.IsAscii s.toList ∧ Text.upper s.toList = code.chars := by
  rw [Text.sameLetters_iff, text, String.toList_ofList, toUpper_chars]
  constructor
  · intro h
    have hascii : Text.IsAscii s.toList := by
      refine Text.isAscii_of_isAscii_toUpper ?_
      rw [h]
      exact code.isAscii_chars
    exact ⟨hascii, (Text.upper_of_isAscii hascii).trans h⟩
  · rintro ⟨hascii, hupper⟩
    exact (Text.upper_of_isAscii hascii).symm.trans hupper

end CouponCode

namespace Coupon
variable {made c : Coupon} {code s : String} {benefit : Benefit} {validity : DateRange}
  {p : Purchase}

theorem isPresented_withCoupon_iff :
    c.isPresented (p.withCoupon s) ↔
      Text.IsAscii (Text.trim s).toList ∧ CouponCode.normal s = c.code.chars := by
  have hthree := c.code.three_le
  rw [isPresented, Purchase.withCoupon]
  dsimp only
  split
  · next hempty =>
    rw [CouponCode.normal, hempty]
    simp only [Option.any_none, Bool.false_eq_true, false_iff, not_and]
    intro _ hnil
    rw [← hnil] at hthree
    exact absurd hthree (by decide)
  · exact CouponCode.sameLetters_text_iff

/-- On the days of a coupon and for the members it admits, the text that it was made from redeems it
just if that is written in ASCII, however the coupon is restricted. -/
theorem isApplicable_iff_isAscii (h : make code benefit validity = .ok made)
    (members : List Identifier) (minimum : Option Money) (priority : Int)
    (hdate : validity.contains p.date) (hmember : members = [] ∨ p.member.id ∈ members) :
    { made with members, minimum, priority }.isApplicable (p.withCoupon code) ↔
      Text.IsAscii (Text.trim code).toList := by
  obtain ⟨_, _, -, hchars, rfl⟩ := make_eq_ok_iff.1 h
  have hadmits : (members.isEmpty || members.contains p.member.id) = true := by
    simpa using hmember
  have hday : validity.contains (p.withCoupon code).date = true := hdate
  rw [isApplicable, Bool.and_eq_true, Bool.and_eq_true, isPresented_withCoupon_iff]
  constructor
  · rintro ⟨⟨⟨hascii, -⟩, -⟩, -⟩
    exact hascii
  · intro hascii
    exact ⟨⟨⟨hascii, hchars.symm⟩, hday⟩, hadmits⟩

def eighthOff (code : String) : Except Fault Coupon :=
  make code (.rate .eighth) (.singleDay Composite.plainPurchase.date)

theorem isApplicable_spring :
    ∃ made, eighthOff " spring-10 " = .ok made ∧
      { made with members := [Composite.plainPurchase.member.id] }.isApplicable
        (Composite.plainPurchase.withCoupon " spring-10 ") := by
  obtain ⟨made, hmade⟩ : ∃ made, eighthOff " spring-10 " = .ok made := ⟨_, rfl⟩
  have hascii : Text.IsAscii (Text.trim " spring-10 ").toList := by decide
  have hredeems := isApplicable_iff_isAscii (p := Composite.plainPurchase) hmade
    [Composite.plainPurchase.member.id] made.minimum made.priority (by decide)
    (.inr (List.mem_singleton_self _))
  exact ⟨made, hmade, hredeems.2 hascii⟩

/-- The code is STRASSE, and no coupon of that code is redeemed with a sharp s. -/
theorem isApplicable_strasse :
    ∃ made, eighthOff "straße" = .ok made ∧
      made.validity.contains Composite.plainPurchase.date ∧
      made.admits Composite.plainPurchase.member ∧
      made.isApplicable (Composite.plainPurchase.withCoupon "straße") = false :=
  ⟨_, rfl, by decide, by decide, by decide⟩

end Coupon
end ClubBooking
