import ClubBooking.Discount.Policy
import ClubBooking.Proofs.Refusal
import Mathlib.Data.List.TakeWhile

/-! Which discounts can be made. Each constructor answers just where its terms are met, and what it
makes has the terms that were given, without the blanks around a text. -/

namespace ClubBooking

namespace Text

def HasInk (s : String) : Prop := ∃ c ∈ s.toList, isBlank c = false

theorem trim_eq_nil_iff {cs : List Char} : trimRight (trimLeft cs) = [] ↔ ∀ c ∈ cs, isBlank c := by
  rw [trimRight, List.reverse_eq_nil_iff, List.dropWhile_eq_nil_iff]
  simp only [List.mem_reverse]
  constructor
  · intro h c hc
    rw [← List.takeWhile_append_dropWhile (p := isBlank) (l := cs), List.mem_append] at hc
    exact hc.elim List.mem_takeWhile_imp (h c)
  · intro h c hc
    exact h c ((List.dropWhile_suffix isBlank).subset hc)

theorem HasInk.ne_empty {s : String} (h : HasInk s) : s ≠ "" := by
  rintro rfl
  obtain ⟨c, hc, -⟩ := h
  cases hc

theorem trim_ne_empty_iff {s : String} : trim s ≠ "" ↔ HasInk s := by
  rw [Ne, ← String.toList_inj, toList_trim, String.toList_empty, trim_eq_nil_iff, HasInk]
  simp

end Text

theorem nonBlank_eq_ok_iff_hasInk {field s t : String} :
    nonBlank field s = .ok t ↔ Text.HasInk s ∧ t = Text.trim s := by
  rw [nonBlank_eq_ok_iff, Text.trim_ne_empty_iff]

theorem RateDiscount.make_eq_ok_iff {s : String} {r : Decimal} {d : RateDiscount} :
    make s r = .ok d ↔
      ∃ h : r.IsRate, Text.HasInk s ∧ d = ⟨Text.trim s, r, none, none, 40, h⟩ := by
  rw [make, bind_eq_ok_iff]
  simp only [nonBlank_eq_ok_iff_hasInk]
  by_cases hr : r.IsRate
  · simp only [hr, dite_true, pure, Except.pure, Except.ok.injEq, exists_true_left]
    constructor
    · rintro ⟨_, ⟨hink, rfl⟩, rfl⟩
      exact ⟨hink, rfl⟩
    · rintro ⟨hink, rfl⟩
      exact ⟨_, ⟨hink, rfl⟩, rfl⟩
  · simp [hr]

theorem AmountDiscount.make_eq_ok_iff {s : String} {m : Money} {d : AmountDiscount} :
    make s m = .ok d ↔
      ∃ h : m.isZero = false, Text.HasInk s ∧ d = ⟨Text.trim s, m, none, 40, h⟩ := by
  unfold make
  split
  · next hm =>
    rw [bind_eq_ok_iff]
    simp only [nonBlank_eq_ok_iff_hasInk, pure, Except.pure, Except.ok.injEq, hm, exists_true_left]
    constructor
    · rintro ⟨_, ⟨hink, rfl⟩, rfl⟩
      exact ⟨hink, rfl⟩
    · rintro ⟨hink, rfl⟩
      exact ⟨_, ⟨hink, rfl⟩, rfl⟩
  · next hm => simp [hm]

namespace CouponCode

def IsAlnum (c : Char) : Prop := 'A' ≤ c ∧ c ≤ 'Z' ∨ '0' ≤ c ∧ c ≤ '9'

def Pattern (cs : List Char) : Prop :=
  ∃ c rest, cs = c :: rest ∧ IsAlnum c ∧ 2 ≤ rest.length ∧ rest.length ≤ 31 ∧
    ∀ d ∈ rest, IsAlnum d ∨ d = '_' ∨ d = '-'

def normal (s : String) : List Char := Text.upper (Text.trim s).toList

theorem isAlnum_iff {c : Char} : IsAlnum c ↔ c.isUpper ∨ c.isDigit := by
  have hupper : c.isUpper = decide ('A' ≤ c ∧ c ≤ 'Z') := rfl
  have hdigit : c.isDigit = (decide ('0' ≤ c) && decide (c ≤ '9')) := rfl
  simp [IsAlnum, hupper, hdigit]

theorem pattern_chars (code : CouponCode) : Pattern code.chars := by
  obtain ⟨cs, hthree, hmost, hmarks, hhead⟩ := code
  cases cs with
  | nil => simp at hthree
  | cons c rest =>
    simp only [List.length_cons] at hthree hmost
    refine ⟨c, rest, rfl, isAlnum_iff.2 (hhead c rfl), by omega, by omega, fun d hd => ?_⟩
    rcases hmarks d (List.mem_cons_of_mem c hd) with h | h | h | h
    · exact .inl (isAlnum_iff.2 (.inl h))
    · exact .inl (isAlnum_iff.2 (.inr h))
    · exact .inr (.inr h)
    · exact .inr (.inl h)

theorem exists_of_pattern {cs : List Char} (h : Pattern cs) : ∃ code, ofChars? cs = some code := by
  obtain ⟨c, rest, rfl, hc, hleast, hmost, hrest⟩ := h
  refine ⟨_, dif_pos ⟨by simp only [List.length_cons]; omega,
    by simp only [List.length_cons]; omega, ?_, by simpa using isAlnum_iff.1 hc⟩⟩
  rw [List.all_eq_true]
  intro d hd
  rcases List.mem_cons.1 hd with rfl | hd
  · rcases isAlnum_iff.1 hc with h | h <;> simp [h]
  · rcases hrest d hd with h | rfl | rfl
    · rcases isAlnum_iff.1 h with h | h <;> simp [h]
    · rfl
    · rfl

theorem chars_of_ofChars? {cs : List Char} {code : CouponCode} (h : ofChars? cs = some code) :
    code.chars = cs := by
  unfold ofChars? at h
  split at h
  · cases h
    rfl
  · cases h

theorem read_eq_ok_iff {s : String} {code : CouponCode} :
    read s = .ok code ↔ Pattern (normal s) ∧ code.chars = normal s := by
  unfold read
  rw [← Text.toList_trim, ← normal]
  constructor
  · intro h
    split at h
    · next found hfound =>
      cases h
      have hchars := chars_of_ofChars? hfound
      exact ⟨hchars ▸ code.pattern_chars, hchars⟩
    · cases h
  · rintro ⟨hpattern, hchars⟩
    obtain ⟨found, hfound⟩ := exists_of_pattern hpattern
    obtain rfl : found = code := by
      have hsame := (chars_of_ofChars? hfound).trans hchars.symm
      cases found
      cases code
      cases hsame
      rfl
    rw [hfound]

end CouponCode

theorem Coupon.make_eq_ok_iff {code : String} {benefit : Benefit} {validity : DateRange}
    {d : Coupon} :
    make code benefit validity = .ok d ↔
      ∃ (h : benefit.IsValid) (made : CouponCode), CouponCode.Pattern (CouponCode.normal code) ∧
        made.chars = CouponCode.normal code ∧ d = ⟨made, benefit, validity, [], none, 10, h⟩ := by
  unfold make
  split
  · next e he =>
    have hno : ¬ benefit.IsValid := by
      rw [← benefit.check_eq_ok_iff, he]
      simp
    simp [hno]
  · next he =>
    have hyes := benefit.check_eq_ok_iff.1 he
    rw [bind_eq_ok_iff]
    simp only [CouponCode.read_eq_ok_iff, pure, Except.pure, Except.ok.injEq, hyes,
      exists_true_left]
    constructor
    · rintro ⟨made, ⟨hpattern, hchars⟩, rfl⟩
      exact ⟨made, hpattern, hchars, rfl⟩
    · rintro ⟨made, hpattern, hchars, rfl⟩
      exact ⟨made, ⟨hpattern, hchars⟩, rfl⟩

namespace SeasonalDiscount

theorem checkRates_eq_ok_iff {es : List (Season × Decimal)} :
    checkRates es = .ok () ↔ ∀ e ∈ es, e.2.IsRate := by
  rw [forall_eq_ok_iff (fun e : Season × Decimal => e.2.checkRate) rfl fun _ _ => rfl]
  simp only [Decimal.checkRate_eq_ok_iff]

theorem of_make {es : List (Season × Decimal)} {d : SeasonalDiscount} (h : make es = .ok d) :
    es ≠ [] ∧ (∀ e ∈ es, e.2.IsRate) ∧ d.rates = table es ∧ d.priority = 30 := by
  unfold make at h
  split at h
  · cases h
  · next hok =>
    split at h
    · cases h
    · next hne =>
      cases h
      exact ⟨hne, isRate_of_checkRates hok, rfl, rfl⟩

theorem exists_make {es : List (Season × Decimal)} (hne : es ≠ []) (h : ∀ e ∈ es, e.2.IsRate) :
    ∃ d, make es = .ok d := by
  have hok := checkRates_eq_ok_iff.2 h
  unfold make
  split
  · next f hf => cases hok.symm.trans hf
  · exact ⟨_, if_neg hne⟩

end SeasonalDiscount

theorem Composite.of_make {b : Blend} {children : List Discount} {comp : Composite}
    (h : make b children = .ok comp) :
    Text.HasInk b.description ∧ comp.children = children ∧
      comp.blend = { b with description := Text.trim b.description } := by
  obtain ⟨description, hdescription, h⟩ := bind_eq_ok_iff.1 h
  obtain ⟨hink, rfl⟩ := nonBlank_eq_ok_iff_hasInk.1 hdescription
  dsimp only at h
  split at h
  · cases h
  split at h
  · obtain ⟨u, -, h⟩ := bind_eq_ok_iff.1 h
    cases h
    exact ⟨hink, rfl, rfl⟩
  · cases h
    exact ⟨hink, rfl, rfl⟩

theorem Composite.exists_make {b : Blend} {children : List Discount}
    (hdescription : Text.HasInk b.description) (hchildren : children ≠ [])
    (hcurrency : ∀ cap ∈ b.cap, ∀ floor ∈ b.floor, cap.currency = floor.currency) :
    ∃ comp, make b children = .ok comp := by
  have hink : nonBlank "composite description" b.description = .ok (Text.trim b.description) :=
    nonBlank_eq_ok_iff_hasInk.2 ⟨hdescription, rfl⟩
  obtain ⟨child, others, rfl⟩ := List.exists_cons_of_ne_nil hchildren
  simp only [make, hink, bind, Except.bind, List.isEmpty_cons]
  cases hcap : b.cap with
  | none => exact ⟨_, rfl⟩
  | some cap =>
    cases hfloor : b.floor with
    | none => exact ⟨_, rfl⟩
    | some floor =>
      have hsame : cap.sameCurrency floor = .ok () := if_pos (hcurrency cap hcap floor hfloor)
      simp only [hsame]
      exact ⟨_, rfl⟩

end ClubBooking
