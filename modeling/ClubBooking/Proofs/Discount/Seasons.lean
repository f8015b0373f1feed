import ClubBooking.Proofs.Discount.Making
import ClubBooking.Proofs.Discount.Totality
import ClubBooking.Proofs.Discount.Unapplied
import ClubBooking.Proofs.Money.Reduction

/-! The rate of a date. Of the periods that a date lies in, the first that is listed decides, by the
rate listed last for it; a rate of zero hides those of the periods that come after. What is listed
for one period may be moved past what is listed for another. -/

namespace ClubBooking

namespace SeasonalDiscount
variable {es fs : List (Season × Decimal)} {d : SeasonalDiscount} {date : Date} {s : Season}
  {r : Decimal}

def LastListed (es : List (Season × Decimal)) (s : Season) (r : Decimal) : Prop :=
  ∃ before after, es = before ++ (s, r) :: after ∧ ∀ e ∈ after, e.1 ≠ s

/-- The first period that a date lies in and that is listed, with the rate listed last for it. -/
structure Selects (es : List (Season × Decimal)) (date : Date) (s : Season) (r : Decimal) :
    Prop where
  contains : s.contains date = true
  last : LastListed es s r
  first : ∃ earlier later, Season.all = earlier ++ s :: later ∧
    ∀ t ∈ earlier, t.contains date = true → ∀ e ∈ es, e.1 ≠ t

/-- What is listed for each period is listed in the same order. -/
def Reorders (es fs : List (Season × Decimal)) : Prop :=
  ∀ s, es.filter (·.1 = s) = fs.filter (·.1 = s)

theorem mem_all (s : Season) : s ∈ Season.all := Named.mem_members s

theorem lookup_reverse_eq_some_iff : es.reverse.lookup s = some r ↔ LastListed es s r := by
  rw [List.lookup_eq_some_iff]
  constructor
  · rintro ⟨after, before, hsplit, hafter⟩
    refine ⟨before.reverse, after.reverse, ?_, fun e he => ?_⟩
    · rw [← es.reverse_reverse, hsplit]
      simp
    · exact fun heq => bne_iff_ne.1 (hafter e (List.mem_reverse.1 he)) heq.symm
  · rintro ⟨before, after, rfl, hafter⟩
    refine ⟨after.reverse, before.reverse, by simp, fun e he => ?_⟩
    exact bne_iff_ne.2 fun heq => hafter e (List.mem_reverse.1 he) heq.symm

theorem lookup_reverse_eq_none_iff : es.reverse.lookup s = none ↔ ∀ e ∈ es, e.1 ≠ s := by
  simp only [List.lookup_eq_none_iff, List.mem_reverse, bne_iff_ne, ne_comm (a := s)]

theorem lookup_filterMap (f : Season → Option Decimal) (l : List Season) :
    (l.filterMap fun t => (f t).map (t, ·)).lookup s = if s ∈ l then f s else none := by
  induction l with
  | nil => rfl
  | cons t l ih =>
    by_cases hst : s = t
    · subst hst
      cases hf : f s with
      | none => simp [hf, ih]
      | some r => simp [hf]
    · have hne : (s == t) = false := beq_false_of_ne hst
      cases hf : f t with
      | none => simp [hf, ih, hst]
      | some r => simp [hf, ih, hst, List.lookup_cons, hne]

theorem lookup_table (es : List (Season × Decimal)) (s : Season) :
    (table es).lookup s = es.reverse.lookup s := by
  rw [table, lookup_filterMap, if_pos (mem_all s)]

theorem findSome?_filter {α β : Type} (q : α → Bool) (f : α → Option β) (l : List α) :
    (l.filter q).findSome? f = l.findSome? fun a => if q a then f a else none := by
  rw [← List.head?_filterMap, List.filterMap_filter, List.head?_filterMap]

theorem rateFor_eq (h : d.rates = table es) (date : Date) :
    d.rateFor date = Season.all.findSome? fun s =>
      if s.contains date then (es.reverse.lookup s).map (s, ·) else none := by
  rw [rateFor, h, Season.matching, findSome?_filter]
  simp only [lookup_table]

theorem rateFor_eq_some_iff (h : d.rates = table es) :
    d.rateFor date = some (s, r) ↔ Selects es date s r := by
  rw [rateFor_eq h, List.findSome?_eq_some_iff]
  constructor
  · rintro ⟨earlier, t, later, hall, ht, hearlier⟩
    rw [Option.ite_none_right_eq_some, Option.map_eq_some_iff] at ht
    obtain ⟨hcontains, r, hlast, heq⟩ := ht
    cases heq
    refine ⟨hcontains, lookup_reverse_eq_some_iff.1 hlast, earlier, later, hall, ?_⟩
    intro t ht hin
    have hnone := hearlier t ht
    rw [if_pos hin, Option.map_eq_none_iff] at hnone
    exact lookup_reverse_eq_none_iff.1 hnone
  · rintro ⟨hcontains, hlast, earlier, later, hall, hearlier⟩
    refine ⟨earlier, s, later, hall, ?_, fun t ht => ?_⟩
    · rw [if_pos hcontains, lookup_reverse_eq_some_iff.2 hlast]
      rfl
    · split
      · next hin => rw [lookup_reverse_eq_none_iff.2 (hearlier t ht hin), Option.map_none]
      · rfl

theorem rateFor_eq_none_iff (h : d.rates = table es) :
    d.rateFor date = none ↔ ∀ e ∈ es, e.1.contains date = false := by
  rw [rateFor_eq h, List.findSome?_eq_none_iff]
  constructor
  · intro hnone e he
    by_contra hin
    have hlisted := hnone e.1 (mem_all e.1)
    rw [if_pos (Bool.eq_true_of_not_eq_false hin), Option.map_eq_none_iff] at hlisted
    exact lookup_reverse_eq_none_iff.1 hlisted e he rfl
  · intro hall s _
    split
    · next hin =>
      have hunlisted : ∀ e ∈ es, e.1 ≠ s := by
        rintro e he rfl
        exact Bool.false_ne_true ((hall e he).symm.trans hin)
      rw [lookup_reverse_eq_none_iff.2 hunlisted, Option.map_none]
    · rfl

theorem isApplicable_iff (h : d.rates = table es) :
    d.isApplicable date = true ↔ ∃ s r, Selects es date s r ∧ r.isZero = false := by
  simp only [← rateFor_eq_some_iff h, isApplicable, Option.any_eq_true, Bool.not_eq_true',
    Prod.exists]

theorem lookup_filter (es : List (Season × Decimal)) (s : Season) :
    (es.filter (·.1 = s)).lookup s = es.lookup s := by
  rw [List.lookup_eq_findSome?, List.lookup_eq_findSome?, findSome?_filter]
  congr 1
  funext e
  by_cases he : e.1 = s
  · simp [he]
  · simp [he, Ne.symm he]

theorem Reorders.table_eq (h : Reorders es fs) : table es = table fs := by
  have hlookup (s : Season) : es.reverse.lookup s = fs.reverse.lookup s := by
    rw [← lookup_filter es.reverse, ← lookup_filter fs.reverse, List.filter_reverse,
      List.filter_reverse, h s]
  simp only [table, hlookup]

theorem Reorders.mem_iff (h : Reorders es fs) (e : Season × Decimal) : e ∈ es ↔ e ∈ fs := by
  have hown (l : List (Season × Decimal)) : e ∈ l ↔ e ∈ l.filter (·.1 = e.1) := by
    rw [List.mem_filter, decide_eq_true_iff, and_iff_left rfl]
  rw [hown es, hown fs, h e.1]

theorem make_of_reorders (h : make es = .ok d) (hr : Reorders es fs) : make fs = .ok d := by
  obtain ⟨hne, hrates, htable, hpriority⟩ := of_make h
  obtain ⟨e, he⟩ := List.exists_mem_of_ne_nil es hne
  obtain ⟨made, hmade⟩ := exists_make (List.ne_nil_of_mem ((hr.mem_iff e).1 he))
    fun e he => hrates e ((hr.mem_iff e).2 he)
  obtain ⟨-, -, htable', hpriority'⟩ := of_make hmade
  have hsame : made = d := by
    obtain ⟨rates, priority, _⟩ := d
    obtain ⟨rates', priority', _⟩ := made
    obtain rfl : rates' = rates := htable'.trans (hr.table_eq.symm.trans htable.symm)
    obtain rfl : priority' = priority := hpriority'.trans hpriority.symm
    rfl
  rw [hmade, hsame]

/-- The seasonal discount of a list of rates looks at the first period of the date that is listed
and at the rate listed last for it. It applies if that rate is not zero and then takes off just that
rate; else the price stays as it is. The order in which periods are listed makes no difference. -/
theorem selected_by_make (h : make es = .ok d) :
    (∀ date s r, d.rateFor date = some (s, r) ↔ Selects es date s r) ∧
    (∀ date, d.rateFor date = none ↔ ∀ e ∈ es, e.1.contains date = false) ∧
    (∀ (p : Purchase) (price : Money),
      ((Discount.seasonal d).isApplicable p = true ↔
        ∃ s r, Selects es p.date s r ∧ r.isZero = false) ∧
      ((Discount.seasonal d).isApplicable p = false →
        (Discount.seasonal d).apply p price = .ok price) ∧
      ∀ s r, Selects es p.date s r → r.isZero = false →
        ∃ discount left, Money.TakesOff r price discount left ∧
          (Discount.seasonal d).apply p price = .ok left) ∧
    ∀ fs, Reorders es fs → make fs = .ok d := by
  obtain ⟨-, -, htable, -⟩ := of_make h
  refine ⟨fun _ _ _ => rateFor_eq_some_iff htable, fun _ => rateFor_eq_none_iff htable,
    fun p price => ⟨isApplicable_iff htable, fun hidle => apply_of_not_isApplicable hidle price,
      fun s r hselects hr => ?_⟩, fun fs => make_of_reorders h⟩
  have hrate := (rateFor_eq_some_iff htable).2 hselects
  obtain ⟨discount, left, htakes, hreduced⟩ :=
    Money.exists_takesOff (d.rates_ok (s, r) (mem_of_rateFor hrate)) price
  refine ⟨discount, left, htakes, ?_⟩
  show d.apply p.date price = .ok left
  rw [apply, hrate]
  exact (if_neg (Bool.eq_false_iff.1 hr)).trans hreduced

def summerRates : List (Season × Decimal) :=
  [(.summer, .one), (.summerVacation, .zero), (.summer, .eighth)]

def vacationDay : Date := ⟨740122, by decide, by decide⟩

def summerDay : Date := ⟨740073, by decide, by decide⟩

theorem selected_summerRates : ∃ d, make summerRates = .ok d ∧
    d.rateFor vacationDay = some (.summerVacation, .zero) ∧
    d.rateFor summerDay = some (.summer, .eighth) ∧
    make [(.summerVacation, .zero), (.summer, .one), (.summer, .eighth)] = .ok d := by
  obtain ⟨d, hd⟩ : ∃ d, make summerRates = .ok d := exists_make (by decide) (by decide)
  obtain ⟨hrateFor, -, -, horder⟩ := selected_by_make hd
  have hvacation : Selects summerRates vacationDay .summerVacation .zero :=
    ⟨by decide, ⟨[_], [_], rfl, by decide⟩, [.holidays, .backToSchool], _, rfl, by decide⟩
  have hsummer : Selects summerRates summerDay .summer .eighth :=
    ⟨by decide, ⟨[_, _], [], rfl, by decide⟩,
      [.holidays, .backToSchool, .summerVacation, .offSeason, .spring], _, rfl, by decide⟩
  refine ⟨d, hd, (hrateFor _ _ _).2 hvacation, (hrateFor _ _ _).2 hsummer, horder _ fun s => ?_⟩
  cases s <;> rfl

end SeasonalDiscount
end ClubBooking
