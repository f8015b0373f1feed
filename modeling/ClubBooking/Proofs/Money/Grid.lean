import ClubBooking.Document.Values
import ClubBooking.Proofs.Decimal.Room
import ClubBooking.Proofs.Money.Minor

/-! Amounts of money are reckoned with as natural numbers. However an amount comes about, it is a
whole number of its currency's smallest unit; and in that unit the operations on two amounts of one
currency are those on natural numbers, as long as no sum reaches 10^26. -/

namespace ClubBooking.Money

inductive Pairing where
  | add | subtract | saturatingSub | min | max
deriving DecidableEq

namespace Pairing

def run : Pairing → Money → Money → Except Fault Money
  | add => Money.add
  | subtract => Money.subtract
  | saturatingSub => Money.saturatingSub
  | min => Money.min
  | max => Money.max

def decimal? : Pairing → Decimal → Decimal → Option Decimal
  | add, x, y => x.add y
  | subtract, x, y => (x.sub y).filter (0 ≤ ·.coeff)
  | saturatingSub, x, y => (x.sub y).map fun s => if 0 ≤ s.coeff then s else .zero
  | min, x, y => some (if y < x then y else x)
  | max, x, y => some (if x < y then y else x)

def number? : Pairing → Nat → Nat → Option Nat
  | add, m, n => some (m + n)
  | subtract, m, n => if n ≤ m then some (m - n) else none
  | saturatingSub, m, n => some (m - n)
  | min, m, n => some (Min.min m n)
  | max, m, n => some (Max.max m n)

end Pairing

inductive Scaling where
  | multiply | divide
deriving DecidableEq

namespace Scaling

def run : Scaling → Money → Decimal → Except Fault Money
  | multiply => Money.multiply
  | divide => Money.divide

def decimal? : Scaling → Decimal → Decimal → Option Decimal
  | multiply, x, k => if 0 ≤ k.coeff then x.mul k else none
  | divide, x, k => if 0 < k.coeff then x.div k else none

end Scaling

inductive Expr where
  | new (a : Decimal) (c : Currency)
  | ofUnits (n : UInt64) (c : Currency)
  | zero (c : Currency)
  | read (currency? : Json → Option Currency) (j : Json)
  | pair (op : Pairing) (x y : Expr)
  | scale (op : Scaling) (x : Expr) (k : Decimal)

def Expr.eval : Expr → Option Money
  | new a c => (ofDecimal a c).toOption
  | ofUnits n c => some (.ofUnits n c)
  | zero c => some (.zero c)
  | read currency? j => ofFields? currency? j
  | pair op x y => do (op.run (← x.eval) (← y.eval)).toOption
  | scale op x k => do (op.run (← x.eval) k).toOption

structure Bare where
  amount : Decimal
  currency : Currency
deriving DecidableEq

def bare (m : Money) : Bare := ⟨m.amount, m.currency⟩

namespace Bare

def new (a : Decimal) (c : Currency) : Option Bare :=
  if 0 ≤ a.coeff then some ⟨a.roundTo c.minorUnits, c⟩ else none

def read (currency? : Json → Option Currency) (j : Json) : Option Bare :=
  match j.record? ["amount", "currency"] 2 with
  | some [amount, currency] => do
    new (← Json.field? Json.decimal? amount) (← Json.field? currency? currency)
  | _ => none

def pair (op : Pairing) (p q : Bare) : Option Bare :=
  if p.currency = q.currency then (op.decimal? p.amount q.amount).map (⟨·, p.currency⟩) else none

def scale (op : Scaling) (p : Bare) (k : Decimal) : Option Bare :=
  (op.decimal? p.amount k).map fun s => ⟨s.roundTo p.currency.minorUnits, p.currency⟩

structure Counts (p : Bare) (n : Nat) : Prop where
  nonneg : 0 ≤ p.amount.coeff
  scale_le : p.amount.scale ≤ p.currency.minorUnits
  value : p.amount.coeff * 10 ^ p.currency.minorUnits = n * 10 ^ p.amount.scale

end Bare

/-- The operations with the checks that they make themselves, and no others. -/
def Expr.evalBare : Expr → Option Bare
  | new a c => Bare.new a c
  | ofUnits n c => some ⟨.ofUInt64 n, c⟩
  | zero c => some ⟨.zero, c⟩
  | read currency? j => Bare.read currency? j
  | pair op x y => do Bare.pair op (← x.evalBare) (← y.evalBare)
  | scale op x k => do Bare.scale op (← x.evalBare) k

theorem counts_minor (m : Money) : m.bare.Counts m.minor where
  nonneg := m.amount_nonneg
  scale_le := m.scale_le
  value := by
    rw [minor_eq_coeffAt]
    exact (Decimal.coeffAt_mul_pow_scale m.scale_le).symm

variable {a b c : Money}

theorem new_eq (a : Decimal) (c : Currency) :
    Bare.new a c = (ofDecimal a c).toOption.map bare := by
  unfold Bare.new ofDecimal
  split <;> rfl

theorem read_eq (currency? : Json → Option Currency) (j : Json) :
    Bare.read currency? j = (ofFields? currency? j).map bare := by
  unfold Bare.read ofFields?
  rcases j.record? ["amount", "currency"] 2 with _ | _ | ⟨amount, _ | ⟨currency, _ | _⟩⟩
  case some.cons.cons.nil =>
    simp only [new_eq, Option.bind_eq_bind, Option.map_bind, Function.comp_def]
  all_goals rfl

namespace Pairing

theorem run_of_currency_ne (op : Pairing) (h : a.currency ≠ b.currency) :
    op.run a b = .error (.currencyMismatch a.currency b.currency) := by
  cases op with
  | add => exact dif_neg h
  | subtract => exact dif_neg h
  | saturatingSub => exact dif_neg h
  | min =>
    show a.min b = _
    rw [Money.min, sameCurrency, if_neg h]
    rfl
  | max =>
    show a.max b = _
    rw [Money.max, sameCurrency, if_neg h]
    rfl

theorem decimal?_eq (op : Pairing) (hc : a.currency = b.currency) :
    (op.decimal? a.amount b.amount).map (⟨·, a.currency⟩) = (op.run a b).toOption.map bare := by
  obtain ⟨s, hs⟩ := Decimal.exists_sub a.amount_nonneg b.amount_nonneg
  cases op with
  | add =>
    show (a.amount.add b.amount).map _ = (a.add b).toOption.map bare
    unfold Money.add
    rw [dif_pos hc]
    split <;> next h => exact congrArg (Option.map _) h
  | subtract =>
    show ((a.amount.sub b.amount).filter _).map _ = (a.subOr b _).toOption.map bare
    rw [hs, subOr_of_sub hc hs]
    split
    · next h => simp [Option.filter, h, Except.toOption, bare]
    · next h => simp [Option.filter, h, Except.toOption]
  | saturatingSub =>
    show ((a.amount.sub b.amount).map _).map _ = (a.subOr b _).toOption.map bare
    rw [hs, subOr_of_sub hc hs]
    split
    · next h => simp [h, Except.toOption, bare]
    · next h => simp [h, Except.toOption, bare, Money.zero]
  | min =>
    show some _ = (a.min b).toOption.map bare
    rw [min_eq_ok_iff.2 ⟨hc, rfl⟩]
    split <;> simp [Except.toOption, bare, hc]
  | max =>
    show some _ = (a.max b).toOption.map bare
    rw [max_eq_ok_iff.2 ⟨hc, rfl⟩]
    split <;> simp [Except.toOption, bare, hc]

end Pairing

theorem pair_eq (op : Pairing) (a b : Money) :
    Bare.pair op a.bare b.bare = (op.run a b).toOption.map bare := by
  unfold Bare.pair
  split
  · next hc => exact op.decimal?_eq hc
  · next hc =>
    rw [op.run_of_currency_ne hc]
    rfl

theorem scale_eq (op : Scaling) (a : Money) (k : Decimal) :
    Bare.scale op a.bare k = (op.run a k).toOption.map bare := by
  cases op with
  | multiply =>
    show ((if 0 ≤ k.coeff then a.amount.mul k else none)).map _ = (a.multiply k).toOption.map bare
    unfold multiply
    split
    · split <;> next h => exact congrArg (Option.map _) h
    · rfl
  | divide =>
    show ((if 0 < k.coeff then a.amount.div k else none)).map _ = (a.divide k).toOption.map bare
    unfold divide
    by_cases hz : k.isZero
    · have hzero := Decimal.isZero_iff.1 hz
      rw [if_pos hz, if_neg (by omega)]
      rfl
    rw [if_neg hz]
    split
    · split <;> next h => exact congrArg (Option.map _) h
    · rfl

/-- No operation needs a check that it does not make: the bare amounts that come of it are amounts
of money. -/
theorem evalBare_eq (x : Expr) : x.evalBare = x.eval.map bare := by
  induction x with
  | new a c => exact new_eq a c
  | ofUnits n c => rfl
  | zero c => rfl
  | read currency? j => exact read_eq currency? j
  | pair op x y ihx ihy =>
    rw [Expr.evalBare, Expr.eval, ihx, ihy]
    cases x.eval with
    | none => rfl
    | some m =>
      cases y.eval with
      | none => rfl
      | some n => exact pair_eq op m n
  | scale op x k ih =>
    rw [Expr.evalBare, Expr.eval, ih]
    cases x.eval with
    | none => rfl
    | some m => exact scale_eq op m k

theorem Pairing.exists_run (op : Pairing) (hc : a.currency = b.currency)
    (hsum : a.minor + b.minor < 2 ^ 96) {n : Nat} (hn : op.number? a.minor b.minor = some n) :
    ∃ m, op.run a b = .ok m ∧ m.currency = a.currency ∧ m.minor = n := by
  cases op with
  | add =>
    cases hn
    exact exists_add hc hsum
  | subtract =>
    obtain ⟨hle, hn⟩ := Option.ite_none_right_eq_some.1 hn
    cases hn
    exact exists_subtract hc (by omega) hle
  | saturatingSub =>
    cases hn
    obtain ⟨d, hd, hminor⟩ := exists_saturatingSub hc (by omega) (by omega)
    exact ⟨d, hd, (currency_of_saturatingSub hd).2, hminor⟩
  | min =>
    cases hn
    have hmin := min_eq_ok_iff.2 ⟨hc, rfl⟩
    exact ⟨_, hmin, (currency_of_min hmin).1, minor_of_min hmin⟩
  | max =>
    cases hn
    have hmax := max_eq_ok_iff.2 ⟨hc, rfl⟩
    exact ⟨_, hmax, currency_of_max hmax, minor_of_max hmax⟩

theorem Pairing.eq_subtract_of_number? {op : Pairing} {m n : Nat} (h : op.number? m n = none) :
    op = subtract ∧ m < n := by
  cases op with
  | subtract => exact ⟨rfl, by simpa [number?] using h⟩
  | _ => cases h

structure Reckons (a b : Money) : Prop where
  numbers : ∀ op : Pairing, (op.run a b).toOption.map (fun m => (m.currency, m.minor)) =
    (op.number? a.minor b.minor).map fun n => (a.currency, n)
  refused_iff : ∀ f, a.subtract b = .error f ↔
    a.minor < b.minor ∧ f = .invalidAmount (.negativeDifference a b)
  order : a.compare? b = some (compare a.minor b.minor)
  add_comm : ∃ s t, a.add b = .ok s ∧ b.add a = .ok t ∧ s.sameValue t
  add_subtract : ∃ d, (do (← a.add b).subtract b) = Except.ok d ∧ d.sameValue a
  difference_add_min : ∃ s, (do (← a.saturatingSub b).add (← a.min b)) = Except.ok s ∧ s.sameValue a

theorem reckons_of_lt (hc : a.currency = b.currency) (hsum : a.minor + b.minor < 2 ^ 96) :
    a.Reckons b where
  numbers op := by
    cases hn : op.number? a.minor b.minor with
    | some n =>
      obtain ⟨m, hm, hcurrency, hminor⟩ := op.exists_run hc hsum hn
      rw [hm, ← hcurrency, ← hminor]
      rfl
    | none =>
      obtain ⟨rfl, hlt⟩ := Pairing.eq_subtract_of_number? hn
      rw [Pairing.run, subtract_of_lt hc (by omega) hlt]
      rfl
  refused_iff f := by
    rcases Nat.lt_or_ge a.minor b.minor with hlt | hle
    · rw [subtract_of_lt hc (by omega) hlt]
      simp [hlt, eq_comm]
    · obtain ⟨d, hd, -⟩ := exists_subtract hc (by omega) hle
      simp [hd, hle]
  order := compare?_eq hc
  add_comm := by
    obtain ⟨s, hs, hsc, hsn⟩ := exists_add hc hsum
    obtain ⟨t, ht, htc, htn⟩ := exists_add hc.symm (by omega)
    exact ⟨s, t, hs, ht, sameValue_iff.2 ⟨by rw [hsc, htc, hc], by omega⟩⟩
  add_subtract := by
    refine exists_bind_eq_ok (exists_add hc hsum) fun s ⟨hsc, hsn⟩ => ?_
    obtain ⟨d, hd, hdc, hdn⟩ := exists_subtract (hsc.trans hc) (by omega) (by omega)
    exact ⟨d, hd, sameValue_iff.2 ⟨hdc.trans hsc, by omega⟩⟩
  difference_add_min := by
    obtain ⟨d, hd, hdc, hdn⟩ := Pairing.saturatingSub.exists_run hc hsum rfl
    obtain ⟨m, hm, hmc, hmn⟩ := Pairing.min.exists_run hc hsum rfl
    obtain ⟨s, hs, hsc, hsn⟩ := exists_add (hdc.trans hmc.symm) (by omega)
    refine ⟨s, bind_eq_ok_iff.2 ⟨d, hd, bind_eq_ok_iff.2 ⟨m, hm, hs⟩⟩, ?_⟩
    exact sameValue_iff.2 ⟨hsc.trans hdc, by omega⟩

theorem exists_add_assoc (hab : a.currency = b.currency) (hbc : b.currency = c.currency)
    (hsum : a.minor + b.minor + c.minor < 2 ^ 96) :
    ∃ s t, (do (← a.add b).add c) = Except.ok s ∧ (do a.add (← b.add c)) = Except.ok t ∧
      s.sameValue t := by
  obtain ⟨l, hl, hlc, hln⟩ := exists_add hab (by omega)
  obtain ⟨r, hr, hrc, hrn⟩ := exists_add hbc (by omega)
  obtain ⟨s, hs, hsc, hsn⟩ := exists_add (hlc.trans (hab.trans hbc)) (by omega)
  obtain ⟨t, ht, htc, htn⟩ := exists_add (hab.trans hrc.symm) (by omega)
  refine ⟨s, t, bind_eq_ok_iff.2 ⟨l, hl, hs⟩, bind_eq_ok_iff.2 ⟨r, hr, ht⟩, ?_⟩
  exact sameValue_iff.2 ⟨by rw [hsc, hlc, htc], by omega⟩

/-- Whatever operations an amount comes from, it is not negative and a whole number of its
currency's smallest unit. In these numbers the operations on two amounts of one currency, whose sum
is below 10^26, are those of natural numbers, and so are their laws; two amounts of different
currencies are neither reckoned with nor compared. -/
theorem reckons_in_minor (x : Expr) (a b c : Money) :
    (x.evalBare = x.eval.map bare ∧
      ∀ p, x.evalBare = some p → ∃ m, x.eval = some m ∧ m.bare = p ∧ p.Counts m.minor) ∧
    (a.currency = b.currency → a.minor + b.minor < 10 ^ (26 + a.currency.minorUnits) →
      a.Reckons b) ∧
    (a.currency = b.currency → b.currency = c.currency →
      a.minor + b.minor + c.minor < 10 ^ (26 + a.currency.minorUnits) →
      ∃ s t, (do (← a.add b).add c) = Except.ok s ∧ (do a.add (← b.add c)) = Except.ok t ∧
        s.sameValue t) ∧
    (a.currency ≠ b.currency →
      (∀ op : Pairing, op.run a b = .error (.currencyMismatch a.currency b.currency)) ∧
        a.compare? b = none) := by
  have hpow := a.currency.pow_lt
  refine ⟨⟨evalBare_eq x, fun p hp => ?_⟩, fun hc hsum => ?_, fun hab hbc hsum => ?_, fun hne => ?_⟩
  · rw [evalBare_eq, Option.map_eq_some_iff] at hp
    obtain ⟨m, hm, rfl⟩ := hp
    exact ⟨m, hm, rfl, m.counts_minor⟩
  · exact reckons_of_lt hc (by omega)
  · exact exists_add_assoc hab hbc (by omega)
  · exact ⟨fun op => op.run_of_currency_ne hne, if_neg hne⟩

def thriceRead : Expr :=
  .pair .subtract
    (.scale .multiply
      (.read Json.name? (.record [("amount", .text "2.505"), ("currency", .text "USD")]))
      (.ofUInt64 3))
    (.ofUnits 4 .usd)

theorem reckons_tenAndThree :
    (∃ m, thriceRead.eval = some m ∧ m.minor = 353 ∧ m.bare.Counts 353) ∧
    (ofUnits 10 .usd).Reckons (ofUnits 3 .usd) ∧
    (∃ s t, (do (← (ofUnits 10 .usd).add (ofUnits 3 .usd)).add (ofUnits 5 .usd)) = Except.ok s ∧
      (do (ofUnits 10 .usd).add (← (ofUnits 3 .usd).add (ofUnits 5 .usd))) = Except.ok t ∧
      s.sameValue t) ∧
    ∀ op : Pairing, op.run (ofUnits 10 .usd) (ofUnits 3 .krw) =
      .error (.currencyMismatch .usd .krw) := by
  obtain ⟨⟨-, hgrid⟩, hpair, hassoc, -⟩ :=
    reckons_in_minor thriceRead (ofUnits 10 .usd) (ofUnits 3 .usd) (ofUnits 5 .usd)
  obtain ⟨-, -, -, hne⟩ :=
    reckons_in_minor thriceRead (ofUnits 10 .usd) (ofUnits 3 .krw) (ofUnits 5 .usd)
  refine ⟨?_, hpair rfl (by decide), hassoc rfl rfl (by decide), (hne (by decide)).1⟩
  obtain ⟨m, hm, hbare, hcounts⟩ := hgrid ⟨⟨false, 353, 2, by decide, by decide⟩, .usd⟩ rfl
  have hminor : m.minor = 353 := by
    have hvalue := hcounts.value
    simp only [Decimal.coeff, Currency.minorUnits] at hvalue
    omega
  rw [← hbare, hminor] at hcounts
  exact ⟨m, hm, hminor, hcounts⟩

end ClubBooking.Money
