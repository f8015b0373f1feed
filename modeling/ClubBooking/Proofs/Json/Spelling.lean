import ClubBooking.Json.Token
import ClubBooking.Json.Writer
import ClubBooking.Proofs.Text.Digits

/-! What is written for a string or a number is cut from the text again as the one token it was.
A number ends where a comma or a closing bracket follows it, or nothing. -/

namespace ClubBooking

structure JsonNumber.IsWellFormed (n : JsonNumber) : Prop where
  whole_ne_nil : n.whole ≠ []
  whole_digits : ∀ c ∈ n.whole, Text.isDigit c
  leading_zero : n.whole.head? = some '0' → n.whole = ['0']
  fraction_digits : ∀ c ∈ n.fraction, Text.isDigit c
  exponent_digits : ∀ e ∈ n.exponent, e.2 ≠ [] ∧ ∀ c ∈ e.2, Text.isDigit c

namespace Json
variable {c : Char} {cs rest : List Char}

def Ends (cs : List Char) : Prop := ∀ c ∈ cs.head?, c = ',' ∨ c = ']' ∨ c = '}'

theorem ends_nil : Ends [] := by simp [Ends]

theorem Ends.noDigit (h : Ends cs) : Text.NoDigit cs := by
  intro c hc
  rcases h c hc with rfl | rfl | rfl <;> rfl

theorem isHigh_of_lt {n : Nat} (h : n < 0xD800) : Piece.isHigh n = false := by
  simp only [Piece.isHigh, Bool.and_eq_false_iff, decide_eq_false_iff_not]
  omega

theorem isLow_of_lt {n : Nat} (h : n < 0xD800) : Piece.isLow n = false := by
  simp only [Piece.isLow, Bool.and_eq_false_iff, decide_eq_false_iff_not]
  omega

theorem join_unit {n : Nat} (hn : n < 0xD800) (ps : List Piece) :
    Piece.join (.unit n :: ps) = (Piece.join ps).map (Char.ofNat n :: ·) := by
  rw [Piece.join.eq_def]
  simp [isHigh_of_lt hn, isLow_of_lt hn]

theorem pieces_escapedUnit {n : Nat} {ps : List Piece} (hn : n < 0x10000)
    (h : pieces cs = some (ps, rest)) :
    pieces (escapedUnit n ++ cs) = some (.unit n :: ps, rest) := by
  have hlength : (Text.hexPadded 4 n).length = 4 := Text.length_hexPadded (by decide) hn
  have hnumber := Text.hexNumber_hexPadded 4 n
  obtain ⟨w, x, y, z, hdigits⟩ : ∃ w x y z, Text.hexPadded 4 n = [w, x, y, z] := by
    match Text.hexPadded 4 n, hlength with
    | [w, x, y, z], _ => exact ⟨w, x, y, z, rfl⟩
  rw [hdigits] at hnumber
  simp only [escapedUnit, hdigits, List.cons_append, List.nil_append, pieces, hnumber, h, bind,
    Option.bind_some, pure]

theorem pieces_raw {ps : List Piece} (hquote : c ≠ '"') (hslash : c ≠ '\\')
    (hcontrol : 0x20 ≤ c.toNat) (h : pieces cs = some (ps, rest)) :
    pieces (c :: cs) = some (.char c :: ps, rest) := by
  rw [pieces.eq_5 _ _ hquote (fun _ _ _ _ _ hc => absurd hc hslash)
    (fun _ _ hc => absurd hc hslash)]
  simp [hslash, Nat.not_lt.2 hcontrol, h]

theorem exists_piece (c : Char) :
    ∃ p, (∀ cs ps rest, pieces cs = some (ps, rest) →
        pieces (escaped c ++ cs) = some (p :: ps, rest)) ∧
      ∀ ps cs, Piece.join ps = some cs → Piece.join (p :: ps) = some (c :: cs) := by
  have hjoin : ∀ ps cs, Piece.join ps = some cs → Piece.join (.char c :: ps) = some (c :: cs) := by
    intro ps cs h
    simp [Piece.join, h]
  unfold escaped
  split
  -- the character has no escape of its own
  case h_8 hquote hslash _ _ _ _ _ =>
    split
    · next hunit =>
      refine ⟨.unit c.toNat, fun cs ps rest h => pieces_escapedUnit (by omega) h, fun ps cs h => ?_⟩
      simp [join_unit (show c.toNat < 0xD800 by omega), h]
    · next hraw =>
      exact ⟨.char c, fun cs ps rest h => pieces_raw hquote hslash (Nat.not_lt.1 hraw) h, hjoin⟩
  all_goals exact ⟨.char _, fun cs ps rest h => by simp [pieces, escape?, h], hjoin⟩

theorem exists_pieces (cs rest : List Char) :
    ∃ ps, pieces (cs.flatMap escaped ++ '"' :: rest) = some (ps, rest) ∧
      Piece.join ps = some cs := by
  induction cs with
  | nil => exact ⟨[], rfl, rfl⟩
  | cons c cs ih =>
    obtain ⟨ps, hps, hjoin⟩ := ih
    obtain ⟨p, hp, hc⟩ := exists_piece c
    refine ⟨p :: ps, ?_, hc ps cs hjoin⟩
    rw [List.flatMap_cons, List.append_assoc]
    exact hp _ ps rest hps

theorem token?_stringChars (s : Option String) (rest : List Char) :
    token? (stringChars s ++ rest) = some (.string s, rest) := by
  cases s with
  | none =>
    have hclosed : pieces ('"' :: rest) = some ([], rest) := rfl
    have hpieces := pieces_escapedUnit (n := 0xD800) (by decide) hclosed
    rw [stringChars, List.append_assoc, List.cons_append]
    simp only [List.cons_append, List.nil_append, token?, hpieces, bind, Option.bind_some, pure]
    rfl
  | some s =>
    obtain ⟨ps, hpieces, hjoin⟩ := exists_pieces s.toList rest
    simp [stringChars, token?, hpieces, hjoin]

theorem digitRun_append {ds : List Char} (hds : ∀ c ∈ ds, Text.isDigit c) (h : Text.NoDigit rest) :
    digitRun (ds ++ rest) = (ds, rest) := by
  rw [digitRun, Text.takeWhile_digits hds h, Text.dropWhile_digits hds h]

def fractionChars (n : JsonNumber) : List Char := if n.fraction = [] then [] else '.' :: n.fraction

def exponentChars (n : JsonNumber) : List Char :=
  match n.exponent with
  | none => []
  | some (down, ds) => 'e' :: (if down then ['-'] else []) ++ ds

theorem wholePart?_append {ds : List Char} (hne : ds ≠ []) (hds : ∀ c ∈ ds, Text.isDigit c)
    (hzero : ds.head? = some '0' → ds = ['0']) (h : Text.NoDigit rest) :
    wholePart? (ds ++ rest) = some (ds, rest) := by
  unfold wholePart?
  rw [digitRun_append hds h]
  split
  · next heq =>
    cases heq
    exact absurd rfl hne
  · next heq =>
    cases heq
    cases hzero rfl
  · rfl

theorem fractionPart?_append {n : JsonNumber} (hds : ∀ c ∈ n.fraction, Text.isDigit c)
    (h : Text.NoDigit rest) (hpoint : ∀ c ∈ rest.head?, c ≠ '.') :
    fractionPart? (fractionChars n ++ rest) = some (n.fraction, rest) := by
  unfold fractionChars
  split
  · next hnil =>
    rw [hnil, List.nil_append]
    unfold fractionPart?
    split
    · exact absurd rfl (hpoint _ rfl)
    · rfl
  · next hne =>
    rw [List.cons_append, fractionPart?, digitRun_append hds h]
    split
    · next heq => exact absurd (Prod.ext_iff.1 heq).1 hne
    · rfl

theorem exponentDigits?_append {ds : List Char} (down : Bool) (hne : ds ≠ [])
    (hds : ∀ c ∈ ds, Text.isDigit c) (h : Text.NoDigit rest) :
    exponentDigits? down (ds ++ rest) = some (some (down, ds), rest) := by
  unfold exponentDigits?
  rw [digitRun_append hds h]
  split
  · next heq =>
    cases heq
    exact absurd rfl hne
  · next heq =>
    cases heq
    rfl

theorem exponentPart?_append {n : JsonNumber}
    (hds : ∀ e ∈ n.exponent, e.2 ≠ [] ∧ ∀ c ∈ e.2, Text.isDigit c) (h : Ends rest) :
    exponentPart? (exponentChars n ++ rest) = some (n.exponent, rest) := by
  unfold exponentChars
  split
  · next hnone =>
    rw [hnone]
    cases rest with
    | nil => rfl
    | cons c cs =>
      have hmark : ¬ (c = 'e' ∨ c = 'E') := by
        rcases h c rfl with rfl | rfl | rfl <;> decide
      simp [exponentPart?, hmark]
  · next down ds hsome =>
    obtain ⟨hne, hdigits⟩ := hds _ hsome
    rw [hsome]
    cases down with
    | true => exact exponentDigits?_append true hne hdigits h.noDigit
    | false =>
      obtain ⟨d, ds, rfl, hd⟩ := Text.exists_cons_of_digits hne hdigits
      have hplus : d ≠ '+' := Text.ne_of_isDigit hd rfl
      have hminus : d ≠ '-' := Text.ne_of_isDigit hd rfl
      have hrun := exponentDigits?_append false hne hdigits h.noDigit
      simpa [exponentPart?, hplus, hminus] using hrun

theorem numberChars_eq (n : JsonNumber) :
    numberChars n = (if n.negative then ['-'] else []) ++ (n.whole ++ (fractionChars n ++
      exponentChars n)) := by
  have hparts : numberChars n = (if n.negative then ['-'] else []) ++ n.whole ++ fractionChars n ++
      exponentChars n := rfl
  rw [hparts, List.append_assoc, List.append_assoc]

def parts? (negative : Bool) (cs : List Char) : Option (JsonNumber × List Char) := do
  let (whole, cs) ← wholePart? cs
  let (fraction, cs) ← fractionPart? cs
  let (exponent, cs) ← exponentPart? cs
  pure (⟨negative, whole, fraction, exponent⟩, cs)

theorem number?_sign {n : JsonNumber} (hne : n.whole ≠ []) (hds : ∀ c ∈ n.whole, Text.isDigit c)
    (cs : List Char) :
    number? ((if n.negative then ['-'] else []) ++ (n.whole ++ cs)) =
      parts? n.negative (n.whole ++ cs) := by
  cases n.negative with
  | true => rfl
  | false =>
    obtain ⟨d, ds, hwhole, hd⟩ := Text.exists_cons_of_digits hne hds
    have hminus : d ≠ '-' := Text.ne_of_isDigit hd rfl
    rw [hwhole]
    simp [number?, parts?, hminus]

theorem number?_append {n : JsonNumber} (hn : n.IsWellFormed) (h : Ends rest) :
    number? (numberChars n ++ rest) = some (n, rest) := by
  -- from the end on: what stands behind a part of the number does not go on with that part
  have hexponent := exponentPart?_append hn.exponent_digits h
  have hmarks : Text.NoDigit (exponentChars n ++ rest) ∧
      ∀ c ∈ (exponentChars n ++ rest).head?, c ≠ '.' := by
    unfold exponentChars
    split
    · refine ⟨h.noDigit, fun c hc => ?_⟩
      rcases h c hc with rfl | rfl | rfl <;> decide
    · simp [Text.noDigit_cons, Text.isDigit]
  have hfraction := fractionPart?_append hn.fraction_digits hmarks.1 hmarks.2
  have hplaces : Text.NoDigit (fractionChars n ++ (exponentChars n ++ rest)) := by
    unfold fractionChars
    split
    · exact hmarks.1
    · simp [Text.noDigit_cons, Text.isDigit]
  have hwhole := wholePart?_append hn.whole_ne_nil hn.whole_digits hn.leading_zero hplaces
  rw [numberChars_eq]
  simp only [List.append_assoc]
  rw [number?_sign hn.whole_ne_nil hn.whole_digits]
  simp only [parts?, hwhole, hfraction, hexponent, bind, Option.bind_some, pure]

theorem token?_of_number (hc : Text.isDigit c ∨ c = '-') :
    token? (c :: cs) = (number? (c :: cs)).map fun (n, rest) => (.number n, rest) := by
  unfold token?
  split
  case h_11 => rfl
  all_goals
    next heq =>
    cases heq
    rcases hc with hc | hc <;> cases hc

theorem exists_numberChars {n : JsonNumber} (hn : n.IsWellFormed) :
    ∃ c cs, numberChars n = c :: cs ∧ (Text.isDigit c ∨ c = '-') := by
  obtain ⟨d, ds, hwhole, hd⟩ := Text.exists_cons_of_digits hn.whole_ne_nil hn.whole_digits
  rw [numberChars_eq, hwhole]
  cases n.negative with
  | true => exact ⟨'-', _, rfl, .inr rfl⟩
  | false => exact ⟨d, _, rfl, .inl hd⟩

theorem token?_numberChars {n : JsonNumber} (hn : n.IsWellFormed) (h : Ends rest) :
    token? (numberChars n ++ rest) = some (.number n, rest) := by
  obtain ⟨c, cs, hchars, hc⟩ := exists_numberChars hn
  have hnumber := number?_append hn h
  rw [hchars, List.cons_append] at hnumber ⊢
  rw [token?_of_number hc, hnumber]
  rfl

end Json

theorem JsonNumber.isWellFormed_ofInt (i : Int) : (ofInt i).IsWellFormed where
  whole_ne_nil := Text.digits_ne_nil _
  whole_digits _ := Text.isDigit_of_mem_digits
  leading_zero h := by
    have hzero : i.natAbs = 0 := Text.eq_zero_of_head?_digits h
    simp [ofInt, hzero, Text.digits]
  fraction_digits _ h := by cases h
  exponent_digits _ h := by cases h

end ClubBooking
