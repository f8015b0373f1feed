import ClubBooking.Proofs.Engine.Integrity
import ClubBooking.Proofs.Engine.Seats

/-! A booking is made whole or not at all, and is never lost. What `reserve` answers and stores
follows from the snapshot of its request; whatever is asked afterwards, the reservation is found and
listed as it was made, with the status last set for it. -/

namespace ClubBooking

structure Store.Gains (s : Store) (v : Reservation) (t : Store) : Prop where
  plans : t.plans = s.plans
  members : t.members = s.members
  resources : t.resources = s.resources
  found : t.reservations.get? v.id = some v
  others : ∀ id ≠ v.id, t.reservations.get? id = s.reservations.get? id
  values : t.reservations.values = s.reservations.values ++ [v]

structure Store.Holds (s : Store) (v : Reservation) : Prop where
  found : s.reservation v.id = .ok v
  listed : (s.reservationsOf v.memberId).filter (·.id = v.id) = [v]

namespace Store
variable {s : Store} {v : Reservation}

theorem gains_putReservation (hnew : s.reservations.get? v.id = none) :
    s.Gains v (s.putReservation v) where
  plans := rfl
  members := rfl
  resources := rfl
  found := by rw [putReservation, Table.get?_put, if_pos rfl]
  others id hid := by rw [putReservation, Table.get?_put, if_neg (Ne.symm hid)]
  values := Table.values_put_of_get?_eq_none v hnew

theorem Sound.holds (h : s.Sound) (hv : s.reservations.get? v.id = some v) : s.Holds v where
  found := entry_eq_ok_iff.2 hv
  listed := by
    rw [reservationsOf, List.filter_comm, h.reservations.filter_values, hv]
    simp

end Store

def Command.TakesNewId (s : Store) : Command → Prop
  | .reserve fresh _ => s.reservations.get? fresh = none
  | .addReservation r => s.reservations.get? r.id = none
  | .insertPlan _ | .insertMember _ | .insertResource _ | .setStatus .. | .check _ | .quote .. => True

def Command.statusOf (id : Identifier) (status : ReservationStatus) : Command → ReservationStatus
  | .setStatus other new => if other = id then new else status
  | _ => status

def lastStatus (id : Identifier) (status : ReservationStatus) (cs : List Command) :
    ReservationStatus :=
  cs.foldl (fun status c => c.statusOf id status) status

namespace Engine
variable {e : Engine} {st : State} {v : Reservation}

/-- `reserve` goes by the snapshot of its request, and stores what it confirms and nothing else. -/
structure Atomic (e : Engine) (st : State) (fresh : Identifier) (r : Request) : Prop where
  error_iff : ∀ f, (e.reserve st fresh r).1 = .error f ↔ snapshot st.store r = .error f
  denied_iff : ∀ d, (e.reserve st fresh r).1 = .ok (.denied d) ↔
    ∃ s, snapshot st.store r = .ok s ∧ e.policy.allows s = false ∧ e.policy.evaluate s = d
  checked : ∀ d, (e.reserve st fresh r).1 = .ok (.denied d) → (e.check st r).1 = .ok d
  confirmed_iff : ∀ v, (e.reserve st fresh r).1 = .ok (.confirmed v) ↔
    (∃ s, snapshot st.store r = .ok s ∧ e.policy.allows s = true) ∧
      v = ⟨fresh, r.memberId, r.resourceId, r.slot, r.partySize, .confirmed⟩
  unchanged : (∀ v, (e.reserve st fresh r).1 ≠ .ok (.confirmed v)) →
    (e.reserve st fresh r).2.store = st.store
  gains : ∀ v, (e.reserve st fresh r).1 = .ok (.confirmed v) →
    st.store.Gains v (e.reserve st fresh r).2.store

theorem atomic_reserve (e : Engine) {st : State} {fresh : Identifier} (r : Request)
    (hnew : st.store.reservations.get? fresh = none) : e.Atomic st fresh r := by
  have hreserve := e.reserve_eq st fresh r
  cases hs : snapshot st.store r with
  | error fault =>
    rw [hs] at hreserve
    constructor <;> simp [hreserve, hs]
  | ok s =>
    rw [hs] at hreserve
    have hcheck : (e.check st r).1 = .ok (e.policy.evaluate s) := by
      rw [decision_check, decide, hs]
      rfl
    cases hallows : e.policy.allows s with
    | false =>
      simp only [hallows] at hreserve
      constructor <;> simp [hreserve, hs, hallows, hcheck]
    | true =>
      simp only [hallows] at hreserve
      constructor
      case confirmed_iff =>
        intro v
        rw [hreserve]
        constructor
        · rintro ⟨⟩
          exact ⟨⟨s, hs, hallows⟩, rfl⟩
        · rintro ⟨-, rfl⟩
          rfl
      case gains =>
        intro v hv
        rw [hreserve] at hv ⊢
        cases hv
        exact Store.gains_putReservation hnew
      all_goals simp [hreserve, hs, hallows]

theorem get?_of_changes {s t : Store} {c : Command} (h : e.Changes s c t) (hnew : c.TakesNewId s)
    (hv : s.reservations.get? v.id = some v) :
    t.reservations.get? v.id = some { v with status := c.statusOf v.id v.status } := by
  cases h with
  | same hother =>
    cases c with
    | setStatus id status =>
      have hne : id ≠ v.id := by
        rintro rfl
        cases hv.symm.trans (hother v.id status rfl)
      rw [Command.statusOf, if_neg hne]
      exact hv
    | _ => exact hv
  | insertPlan p => exact hv
  | insertMember hp => exact hv
  | insertResource x => exact hv
  | addReservation hm hx => exact Table.get?_put_of_new hnew hv
  | @setStatus id old status hold =>
    show (s.reservations.put id { old with status }).get? v.id = _
    rw [Table.get?_put, Command.statusOf]
    split
    · next hid =>
      subst hid
      cases hold.symm.trans hv
      rfl
    · exact hv
  | reserve fresh hfacts hallows => exact Table.get?_put_of_new hnew hv

theorem get?_run {cs : List Command} (h : e.Follows (fun st c => c.TakesNewId st.store) st cs)
    (hv : st.store.reservations.get? v.id = some v) :
    (e.run st cs).store.reservations.get? v.id =
      some { v with status := lastStatus v.id v.status cs } := by
  -- the hypothesis is used for the reservation with the status that the first command leaves
  induction cs generalizing st v with
  | nil => exact hv
  | cons c cs ih =>
    exact ih (v := { v with status := c.statusOf v.id v.status }) h.2
      (get?_of_changes (e.changes_perform st c) h.1 hv)

/-- In every state that commands lead to, a request is booked whole or not at all: refused just if
its facts cannot be had, denied just if the policy denies them, else confirmed, and only then is the
store another, by this one reservation. Nothing else that is asked changes the store. What is
confirmed is found from then on as it was made, with the status that was last set, and is listed
once for its member, whatever commands follow that use new identifiers. -/
theorem holds_of_confirmed (e : Engine) {past rest : List Command} {fresh : Identifier} {r : Request}
    (h : e.Follows (fun st c => c.TakesNewId st.store) (e.reached past) (.reserve fresh r :: rest)) :
    e.Atomic (e.reached past) fresh r ∧
    (∀ q, (e.check (e.reached past) q).2.store = (e.reached past).store) ∧
    (∀ id price date code,
      (e.quote (e.reached past) id price date code).2.store = (e.reached past).store) ∧
    ∀ v, (e.reserve (e.reached past) fresh r).1 = .ok (.confirmed v) →
      (e.reached (past ++ .reserve fresh r :: rest)).store.Holds
        { v with status := lastStatus fresh .confirmed rest } := by
  have hatomic := e.atomic_reserve r h.1
  refine ⟨hatomic, fun q => rfl, fun id price date code => rfl, fun v hv => ?_⟩
  have hfound := (hatomic.gains v hv).found
  obtain ⟨-, rfl⟩ := (hatomic.confirmed_iff v).1 hv
  refine Store.Sound.holds (e.sound_reached _) ?_
  rw [reached, run_append, run_cons]
  exact get?_run h.2 hfound

def opening : List Command := [
  .insertPlan ⟨default, "Silver", .ofList [], 1, 7, .zero, true⟩,
  .insertPlan ⟨default, "Gold", .ofList [.lounge], 3, 30, .zero, true⟩,
  .insertMember ⟨default, "Ada", .active, .standard, .singleDay default, default⟩,
  .insertResource tenSeats]

def visits : List Command := [
  .reserve (ticket 2) (party 4), .setStatus (ticket 1) .checkedIn,
  .reserve (ticket 3) (party 5), .setStatus (ticket 2) .cancelled, .check (party 5),
  .setStatus (ticket 1) .completed]

theorem holds_visits :
    (seatsOnly.reserve (seatsOnly.reached opening) (ticket 1) (party 6)).1 =
        .ok (.confirmed ⟨ticket 1, default, default, firstHour, 6, .confirmed⟩) ∧
      (seatsOnly.reached (opening ++ .reserve (ticket 1) (party 6) :: visits)).store.Holds
        ⟨ticket 1, default, default, firstHour, 6, .completed⟩ := by
  have hfollows : seatsOnly.Follows (fun st c => c.TakesNewId st.store) (seatsOnly.reached opening)
      (.reserve (ticket 1) (party 6) :: visits) :=
    ⟨rfl, rfl, trivial, rfl, trivial, trivial, trivial, trivial⟩
  have hconfirmed : (seatsOnly.reserve (seatsOnly.reached opening) (ticket 1) (party 6)).1 =
      .ok (.confirmed ⟨ticket 1, default, default, firstHour, 6, .confirmed⟩) := rfl
  obtain ⟨-, -, -, hholds⟩ := seatsOnly.holds_of_confirmed hfollows
  exact ⟨hconfirmed, hholds _ hconfirmed⟩

end Engine
end ClubBooking
