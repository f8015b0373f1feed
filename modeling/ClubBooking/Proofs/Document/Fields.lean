import ClubBooking.Document.Values
import ClubBooking.Proofs.Calendar.Text
import ClubBooking.Proofs.Decimal.Text
import ClubBooking.Proofs.Json.RoundTrip

/-! The fields of documents: what is written for a name, a number, a date or a list of such is read
as just that, and a record has under each of its keys what was written there. -/

namespace ClubBooking

namespace Identifier

theorem ungroup?_groups {a b c d e : List Char} (ha : a.length = 8) (hb : b.length = 4)
    (hc : c.length = 4) (hd : d.length = 4) (he : e.length = 12) :
    ungroup? (a ++ '-' :: (b ++ '-' :: (c ++ '-' :: (d ++ '-' :: e)))) =
      some (a ++ (b ++ (c ++ (d ++ e)))) := by
  simp [ungroup?, ha, hb, hc, hd, he, List.drop_append, List.drop_eq_nil_of_le]

theorem take_append_drop_drop (ds : List Char) (m n : Nat) :
    (ds.drop m).take n ++ ds.drop (m + n) = ds.drop m := by
  rw [← List.drop_drop, List.take_append_drop]

theorem ungroup?_chars (i : Identifier) :
    i.chars.length = 36 ∧ ungroup? i.chars = some (Text.hexPadded 32 i.value) := by
  have hlength : (Text.hexPadded 32 i.value).length = 32 :=
    Text.length_hexPadded (by decide) (Nat.lt_of_lt_of_eq i.value_lt (by decide))
  obtain ⟨ds, hds⟩ : ∃ ds, Text.hexPadded 32 i.value = ds := ⟨_, rfl⟩
  rw [hds] at hlength ⊢
  have hchars : i.chars = ds.take 8 ++ '-' :: ((ds.drop 8).take 4 ++ '-' :: ((ds.drop 12).take 4 ++
      '-' :: ((ds.drop 16).take 4 ++ '-' :: ds.drop 20))) := by
    simp [chars, hds]
  rw [hchars, ungroup?_groups (by simp [hlength]) (by simp [hlength]) (by simp [hlength])
    (by simp [hlength]) (by simp [hlength])]
  have hregroup : ds.take 8 ++ ((ds.drop 8).take 4 ++ ((ds.drop 12).take 4 ++
      ((ds.drop 16).take 4 ++ ds.drop 20))) = ds := by
    rw [take_append_drop_drop, take_append_drop_drop, take_append_drop_drop, List.take_append_drop]
  exact ⟨by simp [hlength], congrArg some hregroup⟩

theorem read_text (i : Identifier) : read i.text = some i := by
  obtain ⟨hlength, hdigits⟩ := i.ungroup?_chars
  have hnumber : ofDigits? (Text.hexPadded 32 i.value) = some i := by
    rw [ofDigits?, Text.hexNumber_hexPadded]
    exact dif_pos i.value_lt
  simp [read, text, String.toList_ofList, hlength, hdigits, hnumber]

end Identifier

theorem Weekday.read_name (w : Weekday) : read w.name = some w := by
  cases w <;> rfl

namespace Json
variable {α : Type} {j : Json}

theorem text?_text (s : String) : (text s).text? = some s := rfl

theorem name?_toJson [Named α] (a : α) : (Named.toJson a).name? = some a := Named.find?_name a

theorem identifier?_toJson (i : Identifier) : i.toJson.identifier? = some i := by
  rw [identifier?, Identifier.toJson, text?_text, Option.bind_some, Identifier.read_text]

theorem date?_toJson (d : Date) : d.toJson.date? = some d := by
  rw [date?, Date.toJson, text?_text, Option.bind_some, Date.read_text]

theorem time?_toJson (t : TimeOfDay) : t.toJson.time? = some t := by
  rw [time?, TimeOfDay.toJson, text?_text, Option.bind_some, TimeOfDay.read_text]

theorem dateTime?_toJson (t : DateTime) : t.toJson.dateTime? = some t := by
  rw [dateTime?, DateTime.toJson, text?_text, Option.bind_some, DateTime.read_text]

theorem weekday?_toJson (w : Weekday) : w.toJson.weekday? = some w := by
  rw [weekday?, Weekday.toJson, text?_text, Option.bind_some, Weekday.read_name]

theorem decimal?_toJson (a : Decimal) : ∃ b, a.toJson.decimal? = some b ∧ b.Same a := by
  obtain ⟨b, hb, hsame⟩ := a.read_text
  refine ⟨b, ?_, hsame⟩
  rw [Decimal.toJson, text, decimal?, hb]
  rfl

theorem int?_int {n : Nat} (h : n < 2 ^ 64) : (int n).int? = some (n : Int) := by
  have hnumber : JsonNumber.ofInt n = ⟨false, Text.digits n, [], none⟩ := by
    simp [JsonNumber.ofInt]
  rw [int, int?, hnumber]
  simp only [JsonNumber.integer?, Text.ofDigitChars_digits]
  rw [if_neg (by simp), if_neg Bool.false_ne_true, if_pos h]

theorem uint32?_int (n : UInt32) : (int n.toNat).uint32? = some n := by
  have hlt := n.toNat_lt
  rw [uint32?, int?_int (by omega), Option.bind_some, dif_pos ⟨by omega, by omega⟩]
  exact congrArg some (UInt32.toNat_inj.1 UInt32.toNat_ofNatLT)

theorem mapM_map_eq_some {β γ : Type} {f : β → Option γ} {g : α → β} {h : α → γ} {as : List α}
    (hf : ∀ a ∈ as, f (g a) = some (h a)) : (as.map g).mapM f = some (as.map h) := by
  induction as with
  | nil => rfl
  | cons a as ih =>
    rw [List.forall_mem_cons] at hf
    simp [hf.1, ih hf.2]

theorem list?_map {f : Json → Option α} {g : α → Json} (hf : ∀ a, f (g a) = some a) (as : List α) :
    (Json.array (as.map g)).list? f = some as := by
  rw [list?, mapM_map_eq_some fun a _ => hf a, List.map_id']

theorem optional?_option {f : Json → Option α} {g : α → Json} (hf : ∀ a, f (g a) = some a)
    (hnull : ∀ a, g a ≠ .null) (o : Option α) : optional? f (some (option g o)) = some o := by
  cases o with
  | none => rfl
  | some a =>
    have hsome : optional? f (some (g a)) = (f (g a)).map some := by
      unfold optional?
      split
      · next heq => cases heq
      · next heq => exact absurd (Option.some.inj heq) (hnull a)
      · next heq => rw [← Option.some.inj heq]
    rw [option, hsome, hf, Option.map_some]

theorem single?_of_mem {ms : List (String × Json)} {m : String × Json}
    (hms : (ms.map Prod.fst).Nodup) (hm : m ∈ ms) :
    single? m.1 (ms.map fun m => (some m.1, m.2)) = some (some m.2) := by
  have hfilter :
      (ms.map fun m => (some m.1, m.2)).filter (·.1 == some m.1) = [(some m.1, m.2)] := by
    induction ms with
    | nil => cases hm
    | cons n ms ih =>
      rw [List.map_cons, List.nodup_cons] at hms
      rcases List.mem_cons.1 hm with rfl | hm
      · rw [List.map_cons, List.filter_cons_of_pos (by simp), List.filter_eq_nil_iff.2]
        intro a ha heq
        obtain ⟨n, hn, rfl⟩ := List.mem_map.1 ha
        have hsame : n.1 = m.1 := by simpa using heq
        exact hms.1 (hsame ▸ List.mem_map_of_mem hn)
      · have hne : n.1 ≠ m.1 := by
          intro heq
          exact hms.1 (heq ▸ List.mem_map_of_mem hm)
        simpa [hne] using ih hms.2 hm
  rw [single?, hfilter]

theorem record?_record {ms : List (String × Json)} (hms : (ms.map Prod.fst).Nodup)
    (required : Nat) :
    (record ms).record? (ms.map Prod.fst) required = some (ms.map fun m => some m.2) := by
  have hkeys : (ms.map fun m => (some m.1, m.2)).all (·.1.isSome) := by simp
  show (if (ms.map fun m => (some m.1, m.2)).all (·.1.isSome) then
    (ms.map Prod.fst).mapM fun key => single? key (ms.map fun m => (some m.1, m.2)) else none) = _
  rw [if_pos hkeys]
  exact mapM_map_eq_some fun m hm => single?_of_mem hms hm

@[simp]
theorem isWellFormed_text (s : String) : (text s).IsWellFormed := .string (some s)

@[simp]
theorem isWellFormed_bool (b : Bool) : (Json.bool b).IsWellFormed := .bool b

@[simp]
theorem isWellFormed_int (i : Int) : (int i).IsWellFormed :=
  .number (JsonNumber.isWellFormed_ofInt i)

theorem isWellFormed_map {g : α → Json} (hg : ∀ a, (g a).IsWellFormed) (as : List α) :
    (array (as.map g)).IsWellFormed := by
  refine .array fun j hj => ?_
  obtain ⟨a, -, rfl⟩ := List.mem_map.1 hj
  exact hg a

theorem isWellFormed_option {g : α → Json} (hg : ∀ a, (g a).IsWellFormed) (o : Option α) :
    (option g o).IsWellFormed := by
  cases o with
  | none => exact .null
  | some a => exact hg a

theorem isWellFormed_record {ms : List (String × Json)} (h : ∀ m ∈ ms, m.2.IsWellFormed) :
    (record ms).IsWellFormed := by
  refine .object fun m hm => ?_
  obtain ⟨n, hn, rfl⟩ := List.mem_map.1 hm
  exact h n hn

@[simp]
theorem isWellFormed_name [Named α] (a : α) : (Named.toJson a).IsWellFormed := isWellFormed_text _

@[simp]
theorem isWellFormed_identifier (i : Identifier) : i.toJson.IsWellFormed := isWellFormed_text _

@[simp]
theorem isWellFormed_decimal (a : Decimal) : a.toJson.IsWellFormed := isWellFormed_text _

@[simp]
theorem isWellFormed_date (d : Date) : d.toJson.IsWellFormed := isWellFormed_text _

@[simp]
theorem isWellFormed_time (t : TimeOfDay) : t.toJson.IsWellFormed := isWellFormed_text _

@[simp]
theorem isWellFormed_dateTime (t : DateTime) : t.toJson.IsWellFormed := isWellFormed_text _

@[simp]
theorem isWellFormed_weekday (w : Weekday) : w.toJson.IsWellFormed := isWellFormed_text _

end Json
end ClubBooking
