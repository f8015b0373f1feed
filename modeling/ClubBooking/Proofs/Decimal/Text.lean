import ClubBooking.Decimal.Reader
import ClubBooking.Proofs.Decimal.Exact
import ClubBooking.Proofs.Text.Digits

/-! A decimal is read back from its text with all its places. Only the minus sign of a zero is lost,
which no comparison sees. -/

namespace ClubBooking.Decimal
variable {a b : Decimal} {m k : Nat} {point started : Bool} {cs ds : List Char}

structure Same (a b : Decimal) : Prop where
  value : a.sameValue b
  scale : a.scale = b.scale

theorem same_of_coeff (hcoeff : a.coeff = b.coeff) (hscale : a.scale = b.scale) : a.Same b where
  value := by simp [sameValue, aligned, hcoeff, hscale]
  scale := hscale

theorem scan_cons {d : Char} (hd : Text.isDigit d)
    (hnext : 10 * m + Text.digitValue d < coeffLimit) (hk : k < maxScale) :
    scan m k point started (d :: cs) =
      scan (10 * m + Text.digitValue d) (if point then k + 1 else k) point true cs := by
  rw [scan, if_pos hd]
  exact if_pos ⟨hnext, hk⟩

theorem next_lt {d : Char} (h : Nat.ofDigitChars 10 (d :: ds) m < coeffLimit) :
    10 * m + Text.digitValue d < coeffLimit := by
  rw [Nat.ofDigitChars_cons] at h
  exact Nat.lt_of_le_of_lt (Text.le_ofDigitChars ds _) h

theorem scan_whole (hds : ∀ c ∈ ds, Text.isDigit c) (hne : ds ≠ [])
    (hlt : Nat.ofDigitChars 10 ds m < coeffLimit) :
    scan m 0 false started (ds ++ cs) = scan (Nat.ofDigitChars 10 ds m) 0 false true cs := by
  induction ds generalizing m started with
  | nil => exact absurd rfl hne
  | cons d ds ih =>
    rw [List.forall_mem_cons] at hds
    rw [List.cons_append, scan_cons hds.1 (next_lt hlt) (by decide)]
    cases ds with
    | nil => rfl
    | cons e ds => exact ih hds.2 (by simp) hlt

theorem scan_places (hds : ∀ c ∈ ds, Text.isDigit c)
    (hlt : Nat.ofDigitChars 10 ds m < coeffLimit) (hk : k + ds.length ≤ maxScale) (cs : List Char) :
    scan m k true true (ds ++ cs) =
      scan (Nat.ofDigitChars 10 ds m) (k + ds.length) true true cs := by
  induction ds generalizing m k with
  | nil => rfl
  | cons d ds ih =>
    rw [List.forall_mem_cons] at hds
    simp only [List.length_cons] at hk
    have hlt' : Nat.ofDigitChars 10 ds (10 * m + Text.digitValue d) < coeffLimit := hlt
    rw [List.cons_append, scan_cons hds.1 (next_lt hlt) (by omega), if_pos rfl,
      ih hds.2 hlt' (by omega), List.length_cons, Nat.add_assoc, Nat.add_comm 1]
    rfl

def allDigits (a : Decimal) : List Char := Text.padded (a.scale + 1) a.magnitude

def wholeDigits (a : Decimal) : List Char := a.allDigits.take (a.allDigits.length - a.scale)

def placeDigits (a : Decimal) : List Char := a.allDigits.drop (a.allDigits.length - a.scale)

theorem scale_lt_length_allDigits (a : Decimal) : a.scale < a.allDigits.length :=
  Text.le_length_padded (a.scale + 1) a.magnitude

theorem wholeDigits_append (a : Decimal) : a.wholeDigits ++ a.placeDigits = a.allDigits :=
  List.take_append_drop ..

theorem wholeDigits_ne_nil (a : Decimal) : a.wholeDigits ≠ [] := by
  have hlt := a.scale_lt_length_allDigits
  rw [Ne, ← List.length_eq_zero_iff, wholeDigits, List.length_take]
  omega

theorem length_placeDigits (a : Decimal) : a.placeDigits.length = a.scale := by
  have hlt := a.scale_lt_length_allDigits
  rw [placeDigits, List.length_drop]
  omega

theorem isDigit_of_mem_wholeDigits {c : Char} (h : c ∈ a.wholeDigits) : Text.isDigit c :=
  Text.isDigit_of_mem_padded (List.mem_of_mem_take h)

theorem isDigit_of_mem_placeDigits {c : Char} (h : c ∈ a.placeDigits) : Text.isDigit c :=
  Text.isDigit_of_mem_padded (List.mem_of_mem_drop h)

theorem ofDigitChars_placeDigits (a : Decimal) :
    Nat.ofDigitChars 10 a.placeDigits (Nat.ofDigitChars 10 a.wholeDigits 0) = a.magnitude := by
  rw [← Nat.ofDigitChars_append, wholeDigits_append]
  exact Text.ofDigitChars_padded _ _

def unsignedChars (a : Decimal) : List Char :=
  a.wholeDigits ++ if a.scale = 0 then [] else '.' :: a.placeDigits

theorem chars_eq (a : Decimal) :
    a.chars = (if a.negative then ['-'] else []) ++ a.unsignedChars := by
  rw [chars, unsignedChars, ← List.append_assoc]
  rfl

theorem scan_unsignedChars (a : Decimal) :
    scan 0 0 false false a.unsignedChars = .ok (a.magnitude, a.scale) := by
  have hmagnitude := a.ofDigitChars_placeDigits
  have hlt : Nat.ofDigitChars 10 a.wholeDigits 0 < coeffLimit := by
    have hle := Text.le_ofDigitChars a.placeDigits (Nat.ofDigitChars 10 a.wholeDigits 0)
    rw [hmagnitude] at hle
    exact Nat.lt_of_le_of_lt hle a.magnitude_lt
  rw [unsignedChars, scan_whole (fun c => isDigit_of_mem_wholeDigits) a.wholeDigits_ne_nil hlt]
  have hlength := a.length_placeDigits
  split
  · next hscale =>
    rw [hscale, List.length_eq_zero_iff] at hlength
    rw [hlength] at hmagnitude
    rw [hscale, ← hmagnitude]
    rfl
  · next hscale =>
    have hplaces : ∀ c ∈ a.placeDigits, Text.isDigit c := fun c => isDigit_of_mem_placeDigits
    have hroom : 0 + a.placeDigits.length ≤ maxScale := by
      rw [hlength, Nat.zero_add]
      exact a.scale_le
    have hscan := scan_places hplaces (hmagnitude ▸ a.magnitude_lt) hroom []
    rw [List.append_nil, hmagnitude, hlength, Nat.zero_add] at hscan
    exact hscan

theorem readChars_sign {negative : Bool} {d : Char} (hd : Text.isDigit d)
    (hscan : scan 0 0 false false (d :: cs) = .ok (m, k))
    (hmake : make? ((if negative then -1 else 1) * m) k = some a) :
    readChars ((if negative then ['-'] else []) ++ d :: cs) = .ok a := by
  cases negative with
  | true =>
    rw [if_pos rfl, Int.neg_one_mul] at hmake
    simp [readChars, hscan, bind, Except.bind, hmake]
  | false =>
    have hminus : d ≠ '-' := Text.ne_of_isDigit hd rfl
    have hplus : d ≠ '+' := Text.ne_of_isDigit hd rfl
    rw [if_neg Bool.false_ne_true, Int.one_mul] at hmake
    simp [readChars, hminus, hplus, hscan, bind, Except.bind, hmake]

theorem sign_mul_magnitude (a : Decimal) :
    (if a.negative then -1 else 1) * (a.magnitude : Int) = a.coeff := by
  unfold coeff
  split <;> omega

theorem readChars_chars (a : Decimal) : ∃ b, readChars a.chars = .ok b ∧ b.Same a := by
  obtain ⟨b, hb⟩ := exists_make? (a.natAbs_coeff ▸ a.magnitude_lt) a.scale_le
  have hscan := a.scan_unsignedChars
  obtain ⟨d, ds, hwhole, hd⟩ := Text.exists_cons_of_digits a.wholeDigits_ne_nil fun _ =>
    isDigit_of_mem_wholeDigits
  rw [unsignedChars, hwhole, List.cons_append] at hscan
  rw [chars_eq, unsignedChars, hwhole, List.cons_append]
  exact ⟨b, readChars_sign hd hscan (a.sign_mul_magnitude ▸ hb),
    same_of_coeff (coeff_of_make? hb) (scale_of_make? hb)⟩

theorem isMark_of_mem_chars {c : Char} (h : c ∈ a.chars) : isMark c = false := by
  have hdigit : ∀ d, Text.isDigit d → isMark d = false := by
    intro d hd
    have he : d ≠ 'e' := Text.ne_of_isDigit hd rfl
    have hE : d ≠ 'E' := Text.ne_of_isDigit hd rfl
    simp [isMark, he, hE]
  rw [chars_eq, unsignedChars, List.mem_append, List.mem_append] at h
  rcases h with h | h | h
  · split at h
    · rw [List.mem_singleton.1 h]
      rfl
    · cases h
  · exact hdigit c (isDigit_of_mem_wholeDigits h)
  · split at h
    · cases h
    · rcases List.mem_cons.1 h with rfl | h
      · rfl
      · exact hdigit c (isDigit_of_mem_placeDigits h)

theorem read_text (a : Decimal) : ∃ b, read a.text = .ok b ∧ b.Same a := by
  have hmark : ∀ c ∈ a.text.toList, isMark c = false := by
    intro c hc
    rw [text, String.toList_ofList] at hc
    exact isMark_of_mem_chars hc
  rw [read_eq_readChars hmark, text, String.toList_ofList]
  exact a.readChars_chars

end ClubBooking.Decimal
