import ClubBooking.Document.Entities
import ClubBooking.Proofs.Document.Fields
import ClubBooking.Proofs.Money.Minor

/-! Values and entities are read back from the texts that are written for them, and of what a text
states, amounts and intervals take in just what their constructors allow. -/

namespace ClubBooking

namespace Decimal
variable {a b : Decimal}

theorem Same.coeff_eq (h : a.Same b) : a.coeff = b.coeff := by
  have hvalue : a.coeff * 10 ^ b.scale = b.coeff * 10 ^ a.scale := by
    simpa [sameValue, aligned] using h.value
  rw [h.scale] at hvalue
  exact Int.eq_of_mul_eq_mul_right (Int.pow_ne_zero (by decide)) hvalue

theorem zero_le_iff : zero ≤ a ↔ 0 ≤ a.coeff := by
  simp [le_iff, zero, coeff]

end Decimal

namespace Json
variable {α β : Type} {ofJson? : Json → Option α} {j : Json}

def parse? (ofJson? : Json → Option α) (s : String) : Option α := read s >>= ofJson?

/-- A text that states something allowed is read as what that is, and any other is not read. -/
structure ReadsAllowed (stated? : Json → Option β) (allowed : β → Prop) (ofJson? : Json → Option α)
    (is : α → β → Prop) : Prop where
  accepted {s : String} {a : α} :
    parse? ofJson? s = some a → ∃ b, parse? stated? s = some b ∧ allowed b ∧ is a b
  exists_read {s : String} {b : β} :
    parse? stated? s = some b → allowed b → ∃ a, parse? ofJson? s = some a ∧ is a b
  refused {s : String} {b : β} :
    parse? stated? s = some b → ¬ allowed b → parse? ofJson? s = none

theorem parse?_bind {stated? : Json → Option β} {make? : β → Option α}
    (hstated : ∀ j, ofJson? j = (stated? j).bind make?) (s : String) :
    parse? ofJson? s = (parse? stated? s).bind make? := by
  show (read s).bind ofJson? = ((read s).bind stated?).bind make?
  rw [Option.bind_assoc]
  exact congrArg _ (funext hstated)

theorem readsAllowed_of_make {stated? : Json → Option β} {make? : β → Option α}
    {allowed : β → Prop} {is : α → β → Prop} (hstated : ∀ j, ofJson? j = (stated? j).bind make?)
    (hmake : ∀ b, allowed b → ∃ a, make? b = some a)
    (his : ∀ b a, make? b = some a → allowed b ∧ is a b) :
    ReadsAllowed stated? allowed ofJson? is where
  accepted h := by
    rw [parse?_bind hstated] at h
    obtain ⟨b, hb, ha⟩ := Option.bind_eq_some_iff.1 h
    exact ⟨b, hb, his b _ ha⟩
  exists_read hb hallowed := by
    obtain ⟨a, ha⟩ := hmake _ hallowed
    refine ⟨a, ?_, (his _ a ha).2⟩
    rw [parse?_bind hstated, hb]
    exact ha
  refused hb hnot := by
    rw [parse?_bind hstated, hb, Option.bind_some, Option.eq_none_iff_forall_ne_some]
    exact fun a ha => hnot (his _ a ha).1

def pair? (f : Json → Option α) : Json → Option (α × α)
  | .array [a, b] => do pure (← f a, ← f b)
  | _ => none

theorem parse?_write (h : j.IsWellFormed) : parse? ofJson? (write j) = ofJson? j := by
  rw [parse?, read_write h]
  rfl

end Json

structure Money.Same (m n : Money) : Prop where
  amount : m.amount.Same n.amount
  currency : m.currency = n.currency

structure Plan.Same (p q : Plan) : Prop where
  rest : p = { q with discountRate := p.discountRate }
  discountRate : p.discountRate.Same q.discountRate

namespace Money

def stated? (j : Json) : Option (Decimal × Currency) :=
  match j.record? ["amount", "currency"] 2 with
  | some [amount, currency] => do
    let amount ← Json.field? Json.decimal? amount
    let currency ← Json.field? Json.name? currency
    pure (amount, currency)
  | _ => none

theorem ofJson?_eq (j : Json) :
    ofJson? j = (stated? j).bind fun p => (ofDecimal p.1 p.2).toOption := by
  unfold ofJson? ofFields? stated?
  match j.record? ["amount", "currency"] 2 with
  | some [amount, currency] =>
    simp only [bind, Option.bind_assoc, pure, Option.bind_some]
  | none | some [] | some [_] | some (_ :: _ :: _ :: _) => rfl

theorem readsAllowed : Json.ReadsAllowed stated? (fun p => .zero ≤ p.1) ofJson? fun m p =>
    Rounds p.2 p.1 m ∧ .zero ≤ m.amount ∧ m.amount.scale ≤ m.currency.minorUnits := by
  refine Json.readsAllowed_of_make ofJson?_eq ?_ ?_
  · rintro ⟨a, c⟩ hnonneg
    obtain ⟨m, hm⟩ := exists_ofDecimal (c := c) (Decimal.zero_le_iff.1 hnonneg)
    exact ⟨m, by rw [hm]; rfl⟩
  · rintro ⟨a, c⟩ m hm
    obtain ⟨hnonneg, hrounds⟩ := ofDecimal_eq_ok_iff.1 (toOption_eq_some_iff.1 hm)
    exact ⟨Decimal.zero_le_iff.2 hnonneg, hrounds, m.zero_le_amount, m.scale_le⟩

theorem record?_toJson (m : Money) : m.toJson.record? ["amount", "currency"] 2 =
    some [some m.amount.toJson, some (Named.toJson m.currency)] :=
  Json.record?_record (by simp) 2

theorem ofJson?_toJson (m : Money) : ∃ n, ofJson? m.toJson = some n ∧ n.Same m := by
  obtain ⟨a, ha, hsame⟩ := Json.decimal?_toJson m.amount
  -- `a` may differ from the amount in the sign of a zero, which rounding leaves alone
  have hnonneg : 0 ≤ a.coeff := hsame.coeff_eq ▸ m.amount_nonneg
  have hscale : a.scale ≤ m.currency.minorUnits := hsame.scale ▸ m.scale_le
  have hmade : ofDecimal a m.currency = .ok (rounded a m.currency hnonneg) := dif_pos hnonneg
  refine ⟨rounded a m.currency hnonneg, ?_, ?_, rfl⟩
  · rw [ofJson?, ofFields?, record?_toJson]
    simp only [Json.field?, Option.bind_some, ha, Json.name?_toJson, bind, hmade]
    rfl
  · show (a.roundTo m.currency.minorUnits).Same m.amount
    rw [Decimal.roundTo_of_scale_le hscale]
    exact hsame

@[simp]
theorem isWellFormed_toJson (m : Money) : m.toJson.IsWellFormed :=
  Json.isWellFormed_record (by simp)

end Money

namespace DateRange

theorem ofJson?_eq (j : Json) :
    ofJson? j = (j.pair? Json.date?).bind fun p => (make p.1 p.2).toOption := by
  match j with
  | .array [first, last] =>
    simp only [ofJson?, Json.pair?, bind, Option.bind_assoc, pure, Option.bind_some]
  | .null | .bool _ | .number _ | .string _ | .object _ | .array [] | .array [_]
  | .array (_ :: _ :: _ :: _) => rfl

theorem readsAllowed : Json.ReadsAllowed (Json.pair? Json.date?) (fun p => p.1 ≤ p.2) ofJson?
    fun r p => (r.first, r.last) = p := by
  refine Json.readsAllowed_of_make ofJson?_eq ?_ ?_
  · rintro ⟨first, last⟩ h
    exact ⟨⟨first, last, h⟩, by rw [make, dif_pos h]; rfl⟩
  · rintro ⟨first, last⟩ r hr
    obtain ⟨rfl, rfl⟩ := make_eq_ok_iff.1 (toOption_eq_some_iff.1 hr)
    exact ⟨r.first_le_last, rfl⟩

theorem ofJson?_toJson (r : DateRange) : ofJson? r.toJson = some r := by
  have hmade : make r.first r.last = .ok r := make_eq_ok_iff.2 ⟨rfl, rfl⟩
  simp only [toJson, ofJson?, Json.date?_toJson, bind, Option.bind_some, hmade]
  rfl

@[simp]
theorem isWellFormed_toJson (r : DateRange) : r.toJson.IsWellFormed := .array (by simp)

end DateRange

namespace TimeSlot

theorem ofJson?_eq (j : Json) :
    ofJson? j = (j.pair? Json.dateTime?).bind fun p => (make p.1 p.2).toOption := by
  match j with
  | .array [start, stop] =>
    simp only [ofJson?, Json.pair?, bind, Option.bind_assoc, pure, Option.bind_some]
  | .null | .bool _ | .number _ | .string _ | .object _ | .array [] | .array [_]
  | .array (_ :: _ :: _ :: _) => rfl

theorem readsAllowed : Json.ReadsAllowed (Json.pair? Json.dateTime?) (fun p => p.1 < p.2) ofJson?
    fun s p => (s.start, s.stop) = p := by
  refine Json.readsAllowed_of_make ofJson?_eq ?_ ?_
  · rintro ⟨start, stop⟩ h
    exact ⟨⟨start, stop, h⟩, by rw [make, dif_pos h]; rfl⟩
  · rintro ⟨start, stop⟩ s hs
    obtain ⟨rfl, rfl⟩ := make_eq_ok_iff.1 (toOption_eq_some_iff.1 hs)
    exact ⟨s.start_lt_stop, rfl⟩

theorem ofJson?_toJson (s : TimeSlot) : ofJson? s.toJson = some s := by
  have hmade : make s.start s.stop = .ok s := make_eq_ok_iff.2 ⟨rfl, rfl⟩
  simp only [toJson, ofJson?, Json.dateTime?_toJson, bind, Option.bind_some, hmade]
  rfl

@[simp]
theorem isWellFormed_toJson (s : TimeSlot) : s.toJson.IsWellFormed := .array (by simp)

end TimeSlot

namespace Member

theorem record?_toJson (m : Member) :
    m.toJson.record? ["id", "name", "status", "tier", "membership_period", "plan_id"] 6 =
      some [some m.id.toJson, some (.text m.name), some (Named.toJson m.status),
        some (Named.toJson m.tier), some m.period.toJson, some m.planId.toJson] :=
  Json.record?_record (by simp) 6

theorem ofJson?_toJson (m : Member) : ofJson? m.toJson = some m := by
  rw [ofJson?, record?_toJson]
  simp only [Json.field?, Option.bind_some, Json.identifier?_toJson, Json.text?_text,
    Json.name?_toJson, DateRange.ofJson?_toJson, bind, pure]

@[simp]
theorem isWellFormed_toJson (m : Member) : m.toJson.IsWellFormed :=
  Json.isWellFormed_record (by simp)

end Member

namespace Privileges

theorem ofJson?_toJson (p : Privileges) : ofJson? p.toJson = some p := by
  rw [ofJson?, toJson, Json.list?_map Json.name?_toJson, Option.map_some, ofList_list]

@[simp]
theorem isWellFormed_toJson (p : Privileges) : p.toJson.IsWellFormed :=
  Json.isWellFormed_map Json.isWellFormed_name p.list

end Privileges

namespace Plan

theorem record?_toJson (p : Plan) :
    p.toJson.record? ["id", "name", "privileges", "max_simultaneous_reservations",
        "advance_booking_days", "discount_rate", "active"] 7 =
      some [some p.id.toJson, some (.text p.name), some p.privileges.toJson,
        some (.int p.maxReservations.toNat), some (.int p.advanceDays.toNat),
        some p.discountRate.toJson, some (.bool p.active)] :=
  Json.record?_record (by simp) 7

theorem ofJson?_toJson (p : Plan) : ∃ q, ofJson? p.toJson = some q ∧ q.Same p := by
  obtain ⟨rate, hrate, hsame⟩ := Json.decimal?_toJson p.discountRate
  refine ⟨{ p with discountRate := rate }, ?_, rfl, hsame⟩
  rw [ofJson?, record?_toJson]
  simp only [Json.field?, Option.bind_some, Json.identifier?_toJson, Json.text?_text,
    Privileges.ofJson?_toJson, Json.uint32?_int, hrate, Json.bool?, bind, pure]

@[simp]
theorem isWellFormed_toJson (p : Plan) : p.toJson.IsWellFormed :=
  Json.isWellFormed_record (by simp)

end Plan

namespace OperatingHours

theorem record?_toJson (h : OperatingHours) :
    h.toJson.record? ["opens_at", "closes_at", "open_days"] 3 =
      some [some h.opens.toJson, some (Json.option TimeOfDay.toJson h.closes),
        some (.array (h.days.map Weekday.toJson))] :=
  Json.record?_record (by simp) 3

theorem ofJson?_toJson (h : OperatingHours) : ofJson? h.toJson = some h := by
  have hcloses := Json.optional?_option Json.time?_toJson
    (fun t => by simp [TimeOfDay.toJson, Json.text]) h.closes
  rw [ofJson?, record?_toJson]
  simp only [Json.field?, Option.bind_some, Json.time?_toJson, hcloses,
    Json.list?_map Json.weekday?_toJson, bind, pure]

@[simp]
theorem isWellFormed_toJson (h : OperatingHours) : h.toJson.IsWellFormed :=
  Json.isWellFormed_record (by
    simp [Json.isWellFormed_map Json.isWellFormed_weekday,
      Json.isWellFormed_option Json.isWellFormed_time])

end OperatingHours

namespace Resource

theorem record?_toJson (r : Resource) :
    r.toJson.record? ["id", "name", "category", "capacity", "operating_hours", "active"] 6 =
      some [some r.id.toJson, some (.text r.name), some (Named.toJson r.category),
        some (.int r.capacity.toNat), some r.hours.toJson, some (.bool r.active)] :=
  Json.record?_record (by simp) 6

theorem ofJson?_toJson (r : Resource) : ofJson? r.toJson = some r := by
  rw [ofJson?, record?_toJson]
  simp only [Json.field?, Option.bind_some, Json.identifier?_toJson, Json.text?_text,
    Json.name?_toJson, Json.uint32?_int, OperatingHours.ofJson?_toJson, Json.bool?, bind, pure]

@[simp]
theorem isWellFormed_toJson (r : Resource) : r.toJson.IsWellFormed :=
  Json.isWellFormed_record (by simp)

end Resource

namespace Reservation

theorem record?_toJson (r : Reservation) :
    r.toJson.record? ["id", "member_id", "resource_id", "slot", "party_size", "status"] 6 =
      some [some r.id.toJson, some r.memberId.toJson, some r.resourceId.toJson,
        some r.slot.toJson, some (.int r.partySize.toNat), some (Named.toJson r.status)] :=
  Json.record?_record (by simp) 6

theorem ofJson?_toJson (r : Reservation) : ofJson? r.toJson = some r := by
  rw [ofJson?, record?_toJson]
  simp only [Json.field?, Option.bind_some, Json.identifier?_toJson, TimeSlot.ofJson?_toJson,
    Json.uint32?_int, Json.name?_toJson, bind, pure]

@[simp]
theorem isWellFormed_toJson (r : Reservation) : r.toJson.IsWellFormed :=
  Json.isWellFormed_record (by simp)

end Reservation

/-- Every value and entity is read back from its text, decimals up to the sign of a zero. Of the
amounts and intervals that a text states, just those are read that may be: an amount that is not
negative, rounded for its currency, and an interval whose ends are in order. -/
theorem Json.parse?_roundTrip :
    (∀ m : Money, ∃ n, parse? Money.ofJson? (write m.toJson) = some n ∧ n.Same m) ∧
    (∀ r : DateRange, parse? DateRange.ofJson? (write r.toJson) = some r) ∧
    (∀ s : TimeSlot, parse? TimeSlot.ofJson? (write s.toJson) = some s) ∧
    (∀ m : Member, parse? Member.ofJson? (write m.toJson) = some m) ∧
    (∀ p : Plan, ∃ q, parse? Plan.ofJson? (write p.toJson) = some q ∧ q.Same p) ∧
    (∀ r : Resource, parse? Resource.ofJson? (write r.toJson) = some r) ∧
    (∀ r : Reservation, parse? Reservation.ofJson? (write r.toJson) = some r) ∧
    ReadsAllowed Money.stated? (fun p => .zero ≤ p.1) Money.ofJson? (fun m p =>
      Money.Rounds p.2 p.1 m ∧ .zero ≤ m.amount ∧ m.amount.scale ≤ m.currency.minorUnits) ∧
    ReadsAllowed (pair? date?) (fun p => p.1 ≤ p.2) DateRange.ofJson?
      (fun r p => (r.first, r.last) = p) ∧
    ReadsAllowed (pair? dateTime?) (fun p => p.1 < p.2) TimeSlot.ofJson?
      fun s p => (s.start, s.stop) = p := by
  refine ⟨fun m => ?_, fun r => ?_, fun s => ?_, fun m => ?_, fun p => ?_, fun r => ?_, fun r => ?_,
    Money.readsAllowed, DateRange.readsAllowed, TimeSlot.readsAllowed⟩
  · rw [parse?_write m.isWellFormed_toJson]
    exact m.ofJson?_toJson
  · rw [parse?_write r.isWellFormed_toJson, r.ofJson?_toJson]
  · rw [parse?_write s.isWellFormed_toJson, s.ofJson?_toJson]
  · rw [parse?_write m.isWellFormed_toJson, m.ofJson?_toJson]
  · rw [parse?_write p.isWellFormed_toJson]
    exact p.ofJson?_toJson
  · rw [parse?_write r.isWellFormed_toJson, r.ofJson?_toJson]
  · rw [parse?_write r.isWellFormed_toJson, r.ofJson?_toJson]

end ClubBooking
