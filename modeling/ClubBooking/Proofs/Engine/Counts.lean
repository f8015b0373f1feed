import ClubBooking.Proofs.Engine.Bookings

/-! The counters agree with what happened. Each command moves them by what it asks and what is
answered, whichever way it ends, so after a run they hold the numbers of its checks, denials,
bookings and quotes; and the bookings that they count are the reservations that the run stored. -/

namespace ClubBooking

namespace Command

def asksPolicy : Command → Bool
  | check _ | reserve .. => true
  | _ => false

def asksPrice : Command → Bool
  | quote .. => true
  | _ => false

def isCall (c : Command) : Bool := c.asksPolicy || c.asksPrice

variable {c : Command}

theorem asksPrice_of_asksPolicy (h : c.asksPolicy = true) : c.asksPrice = false := by
  cases c <;> first | rfl | cases h

theorem asksPolicy_of_asksPrice (h : c.asksPrice = true) : c.asksPolicy = false := by
  cases c <;> first | rfl | cases h

end Command

namespace Answer

def isDenial : Answer → Bool
  | decided d => !d.allowed
  | booked (.denied _) => true
  | _ => false

def confirmed? : Answer → Option Reservation
  | booked (.confirmed r) => some r
  | _ => none

def isQuiet (a : Answer) : Bool := !a.isDenial && a.confirmed?.isNone

theorem confirmed?_of_isDenial {a : Answer} (h : a.isDenial = true) : a.confirmed? = none := by
  unfold confirmed?
  split
  · cases h
  · rfl

theorem isQuiet_iff {a : Answer} :
    a.isQuiet = true ↔ a.isDenial = false ∧ a.confirmed? = none := by
  simp [isQuiet]

end Answer

def Metrics.after (m : Metrics) (cs : List Command) (as : List Answer) : Metrics where
  checks := m.checks + .ofNat (cs.countP (·.asksPolicy))
  denied := m.denied + .ofNat (as.countP (·.isDenial))
  pricings := m.pricings + .ofNat (cs.countP (·.asksPrice))
  committed := m.committed + .ofNat (as.filterMap (·.confirmed?)).length

theorem Metrics.after_nil (m : Metrics) : m.after [] [] = m := by
  simp [after]

theorem Metrics.after_after (m : Metrics) (cs ds : List Command) (as bs : List Answer) :
    (m.after cs as).after ds bs = m.after (cs ++ ds) (as ++ bs) := by
  simp [after, List.countP_append, List.filterMap_append, UInt64.ofNat_add, UInt64.add_assoc]

namespace Engine
variable {e : Engine} {st next : State} {c : Command} {cs : List Command} {a : Option Answer}

inductive Outcome (st : State) : Command → Option Answer → State → Prop
  | changed {c : Command} {a : Option Answer} (store : Store) (hc : c.isCall = false)
      (ha : a.all (·.isQuiet)) : Outcome st c a { st with store }
  | checked {c : Command} {a : Option Answer} (hc : c.asksPolicy = true)
      (ha : a.all (·.isQuiet)) : Outcome st c a { st with metrics := st.metrics.countCheck }
  | denied {c : Command} {x : Answer} (hc : c.asksPolicy = true) (hx : x.isDenial = true) :
      Outcome st c (some x) { st with metrics := st.metrics.countDenied.countCheck }
  | confirmed (fresh : Identifier) (r : Request) :
      Outcome st (.reserve fresh r) (some (.booked (.confirmed (r.reservation fresh))))
        ⟨st.store.putReservation (r.reservation fresh), st.metrics.countCheck.countCommitted⟩
  | priced {c : Command} {a : Option Answer} (hc : c.asksPrice = true) (ha : a.all (·.isQuiet)) :
      Outcome st c a { st with metrics := st.metrics.countPricing }

theorem outcome_replace (st : State) (id : Identifier) (x : Except Fault Store)
    (hc : c.isCall = false) : Outcome st c (st.replace id x).1.toOption (st.replace id x).2 := by
  cases x with
  | error fault => exact .changed st.store hc rfl
  | ok store => exact .changed store hc rfl

theorem outcome_check (e : Engine) (st : State) (r : Request) :
    Outcome st (.check r) (e.perform st (.check r)).1.toOption (e.perform st (.check r)).2 := by
  have hanswer : (e.perform st (.check r)).1 = (e.decide st.store r).map .decided := rfl
  have hstate : (e.perform st (.check r)).2 = (e.check st r).2 := rfl
  rw [hanswer, hstate, check]
  cases e.decide st.store r with
  | error fault => exact .checked rfl rfl
  | ok d =>
    cases h : d.allowed with
    | false =>
      simp only [isDenial, h]
      exact .denied rfl (by simp [Answer.isDenial, h])
    | true =>
      simp only [isDenial, h]
      exact .checked rfl (by simp [Except.map, Except.toOption, Answer.isQuiet, Answer.isDenial, Answer.confirmed?, h])

theorem outcome_reserve (e : Engine) (st : State) (fresh : Identifier) (r : Request) :
    Outcome st (.reserve fresh r) (e.perform st (.reserve fresh r)).1.toOption
      (e.perform st (.reserve fresh r)).2 := by
  have hperform : e.perform st (.reserve fresh r) =
      (e.reserve st fresh r).map (·.map .booked) id := rfl
  rw [hperform, reserve_eq]
  cases snapshot st.store r with
  | error fault => exact .checked rfl rfl
  | ok s =>
    dsimp only
    split
    · exact .confirmed fresh r
    · exact .denied rfl rfl

theorem outcome_perform (e : Engine) (st : State) (c : Command) :
    Outcome st c (e.perform st c).1.toOption (e.perform st c).2 := by
  cases c with
  | insertPlan p => exact outcome_replace st p.id _ rfl
  | insertMember m => exact outcome_replace st m.id _ rfl
  | insertResource r => exact outcome_replace st r.id _ rfl
  | addReservation r => exact outcome_replace st r.id _ rfl
  | setStatus id status =>
    rw [perform]
    cases st.store.setStatus id status with
    | error fault => exact .changed st.store rfl rfl
    | ok x => exact .changed x.2 rfl rfl
  | check r => exact e.outcome_check st r
  | reserve fresh r => exact e.outcome_reserve st fresh r
  | quote member price date coupon =>
    rw [perform]
    cases h : e.quote st member price date coupon with
    | mk answer after =>
      have hafter : { st with metrics := st.metrics.countPricing } = after := congrArg Prod.snd h
      subst hafter
      cases answer with
      | error fault => exact .priced rfl rfl
      | ok b => exact .priced rfl rfl

def answers (e : Engine) : State → List Command → List Answer
  | _, [] => []
  | st, c :: cs => (e.perform st c).1.toOption.toList ++ answers e (e.perform st c).2 cs

theorem denials_of_quiet (h : a.all (·.isQuiet)) : a.toList.countP (·.isDenial) = 0 := by
  cases a with
  | none => rfl
  | some x => simp [(Answer.isQuiet_iff.1 h).1]

theorem confirmed_of_quiet (h : a.all (·.isQuiet)) : a.toList.filterMap (·.confirmed?) = [] := by
  cases a with
  | none => rfl
  | some x => simp [(Answer.isQuiet_iff.1 h).2]

namespace Outcome

theorem metrics_eq (h : Outcome st c a next) :
    next.metrics = st.metrics.after [c] a.toList := by
  cases h with
  | changed store hc ha =>
    obtain ⟨hpolicy, hprice⟩ : c.asksPolicy = false ∧ c.asksPrice = false := by
      simpa [Command.isCall] using hc
    simp [Metrics.after, hpolicy, hprice, denials_of_quiet ha, confirmed_of_quiet ha]
  | checked hc ha =>
    simp [Metrics.after, Metrics.countCheck, hc, Command.asksPrice_of_asksPolicy hc,
      denials_of_quiet ha, confirmed_of_quiet ha]
  | denied hc hx =>
    simp [Metrics.after, Metrics.countCheck, Metrics.countDenied, hc,
      Command.asksPrice_of_asksPolicy hc, hx, Answer.confirmed?_of_isDenial hx]
  | confirmed fresh r =>
    simp [Metrics.after, Metrics.countCheck, Metrics.countCommitted, Command.asksPolicy,
      Command.asksPrice, Answer.isDenial, Answer.confirmed?]
  | priced hc ha =>
    simp [Metrics.after, Metrics.countPricing, hc, Command.asksPolicy_of_asksPrice hc,
      denials_of_quiet ha, confirmed_of_quiet ha]

theorem decisions_le (h : Outcome st c a next) :
    a.toList.countP (·.isDenial) + (a.toList.filterMap (·.confirmed?)).length ≤
      [c].countP (·.asksPolicy) := by
  cases h with
  | changed store hc ha => simp [denials_of_quiet ha, confirmed_of_quiet ha]
  | checked hc ha => simp [denials_of_quiet ha, confirmed_of_quiet ha]
  | denied hc hx => simp [hc, hx, Answer.confirmed?_of_isDenial hx]
  | confirmed fresh r => exact Nat.le_refl 1
  | priced hc ha => simp [denials_of_quiet ha, confirmed_of_quiet ha]

theorem reservations_eq (h : Outcome st c a next) (hcall : c.isCall)
    (hnew : c.TakesNewId st.store) :
    next.store.reservations.values =
      st.store.reservations.values ++ a.toList.filterMap (·.confirmed?) := by
  cases h with
  | changed store hc ha => simp [hc] at hcall
  | checked hc ha => simp [confirmed_of_quiet ha]
  | denied hc hx => simp [Answer.confirmed?_of_isDenial hx]
  | confirmed fresh r => exact Table.values_put_of_get?_eq_none (r.reservation fresh) hnew
  | priced hc ha => simp [confirmed_of_quiet ha]

end Outcome

theorem metrics_run_eq (e : Engine) (st : State) (cs : List Command) :
    (e.run st cs).metrics = st.metrics.after cs (e.answers st cs) := by
  induction cs generalizing st with
  | nil => exact st.metrics.after_nil.symm
  | cons c cs ih =>
    rw [run_cons, ih, (e.outcome_perform st c).metrics_eq, Metrics.after_after]
    rfl

theorem decisions_run_le (e : Engine) (st : State) (cs : List Command) :
    (e.answers st cs).countP (·.isDenial) + ((e.answers st cs).filterMap (·.confirmed?)).length ≤
      cs.countP (·.asksPolicy) := by
  induction cs generalizing st with
  | nil => exact Nat.le_refl 0
  | cons c cs ih =>
    have hone := (e.outcome_perform st c).decisions_le
    have hrest := ih (e.perform st c).2
    rw [answers, List.countP_append, List.filterMap_append, List.length_append,
      ← List.singleton_append, List.countP_append]
    omega

theorem reservations_run_eq (hcalls : ∀ c ∈ cs, c.isCall)
    (h : e.Follows (fun st c => c.TakesNewId st.store) st cs) :
    (e.run st cs).store.reservations.values =
      st.store.reservations.values ++ (e.answers st cs).filterMap (·.confirmed?) := by
  induction cs generalizing st with
  | nil => exact (List.append_nil _).symm
  | cons c cs ih =>
    rw [List.forall_mem_cons] at hcalls
    rw [run_cons, ih hcalls.2 h.2, (e.outcome_perform st c).reservations_eq hcalls.1 h.1, answers,
      List.filterMap_append, List.append_assoc]

theorem toNat_zero_add_ofNat {n : Nat} (h : n < 2 ^ 64) : (0 + UInt64.ofNat n).toNat = n := by
  rw [UInt64.zero_add, UInt64.toNat_ofNat_of_lt' h]

/-- After fewer than 2^64 commands a new engine has counted its checks and its quotes, refused ones
too, its denials and its bookings. Where the store is left to the engine and identifiers are new,
the bookings are what the store has gained. -/
theorem counts_agree (e : Engine) (store : Store) {cs : List Command} (hlen : cs.length < 2 ^ 64) :
    let m := (e.run ⟨store, .zero⟩ cs).metrics
    let as := e.answers ⟨store, .zero⟩ cs
    m.checks.toNat = cs.countP (·.asksPolicy) ∧
    m.denied.toNat = as.countP (·.isDenial) ∧
    m.committed.toNat = (as.filterMap (·.confirmed?)).length ∧
    m.pricings.toNat = cs.countP (·.asksPrice) ∧
    m.denied.toNat + m.committed.toNat ≤ m.checks.toNat ∧
    ((∀ c ∈ cs, c.isCall) → e.Follows (fun st c => c.TakesNewId st.store) ⟨store, .zero⟩ cs →
      (e.run ⟨store, .zero⟩ cs).store.reservations.values =
        store.reservations.values ++ as.filterMap (·.confirmed?)) := by
  intro m as
  have hm : m = Metrics.zero.after cs as := e.metrics_run_eq ⟨store, .zero⟩ cs
  have hle : as.countP (·.isDenial) + (as.filterMap (·.confirmed?)).length ≤
      cs.countP (·.asksPolicy) := e.decisions_run_le ⟨store, .zero⟩ cs
  have hpolicy : cs.countP (·.asksPolicy) ≤ cs.length := List.countP_le_length
  have hprice : cs.countP (·.asksPrice) ≤ cs.length := List.countP_le_length
  -- no count passes 2^64, so no counter has started again from zero
  have hchecks : m.checks.toNat = cs.countP (·.asksPolicy) :=
    hm ▸ toNat_zero_add_ofNat (by omega)
  have hdenied : m.denied.toNat = as.countP (·.isDenial) := hm ▸ toNat_zero_add_ofNat (by omega)
  have hcommitted : m.committed.toNat = (as.filterMap (·.confirmed?)).length :=
    hm ▸ toNat_zero_add_ofNat (by omega)
  have hpricings : m.pricings.toNat = cs.countP (·.asksPrice) :=
    hm ▸ toNat_zero_add_ofNat (by omega)
  refine ⟨hchecks, hdenied, hcommitted, hpricings, by omega, fun hcalls h => ?_⟩
  exact reservations_run_eq hcalls h

def evening : List Command := [
  .reserve (ticket 1) (party 6), .check (party 5), .reserve (ticket 2) (party 5),
  .check { party 1 with memberId := ticket 9 }, .check (party 4),
  .quote default (.zero .usd) default none, .quote (ticket 9) (.zero .usd) default none]

theorem counts_agree_evening :
    let st := seatsOnly.run ⟨(seatsOnly.reached opening).store, .zero⟩ evening
    (st.metrics.checks.toNat = 5 ∧ st.metrics.denied.toNat = 2 ∧
      st.metrics.committed.toNat = 1 ∧ st.metrics.pricings.toNat = 2) ∧
    st.store.reservations.values = [(party 6).reservation (ticket 1)] := by
  have hlen : evening.length < 2 ^ 64 := by decide
  have hcalls : ∀ c ∈ evening, c.isCall := by decide
  have hnew : seatsOnly.Follows (fun st c => c.TakesNewId st.store)
      ⟨(seatsOnly.reached opening).store, .zero⟩ evening :=
    ⟨rfl, trivial, rfl, trivial, trivial, trivial, trivial, trivial⟩
  obtain ⟨hchecks, hdenied, hcommitted, hpricings, -, hstored⟩ :=
    seatsOnly.counts_agree (seatsOnly.reached opening).store hlen
  refine ⟨⟨hchecks.trans ?_, hdenied.trans ?_, hcommitted.trans ?_, hpricings.trans ?_⟩,
    (hstored hcalls hnew).trans ?_⟩
  all_goals rfl

end Engine
end ClubBooking
