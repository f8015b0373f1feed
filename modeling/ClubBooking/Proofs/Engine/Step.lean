import ClubBooking.Engine.Command
import ClubBooking.Proofs.Refusal

/-! What the commands of an engine do. A snapshot reads the store and nothing else, and `reserve`
adds one reservation or none: its whole answer follows from the snapshot of its request. -/

namespace ClubBooking

namespace Table
variable {α : Type} {t : Table α} {k : Identifier} {u : α}

theorem get?_put_of_new {j : Identifier} {v : α} (hnew : t.get? k = none) (hu : t.get? j = some u) :
    (t.put k v).get? j = some u := by
  have hne : k ≠ j := by
    rintro rfl
    cases hnew.symm.trans hu
  rw [get?_put, if_neg hne, hu]

theorem values_put_of_get?_eq_none (v : α) (h : t.get? k = none) :
    (t.put k v).values = t.values ++ [v] := by
  obtain ⟨rows⟩ := t
  simp only [get?, Option.map_eq_none_iff, List.find?_eq_none, decide_eq_true_eq] at h
  simp only [put, values]
  induction rows with
  | nil => rfl
  | cons r rs ih =>
    rw [List.forall_mem_cons] at h
    rw [putRow, if_neg h.1, List.map_cons, ih h.2]
    rfl

theorem values_put_of_get?_eq_some (v : α) (h : t.get? k = some u) :
    ∃ before after, t.values = before ++ u :: after ∧
      (t.put k v).values = before ++ v :: after := by
  obtain ⟨rows⟩ := t
  simp only [get?, Option.map_eq_some_iff] at h
  simp only [put, values]
  induction rows with
  | nil => simp at h
  | cons r rs ih =>
    by_cases hr : r.1 = k
    · obtain ⟨found, hfound, rfl⟩ := h
      simp only [List.find?_cons, hr, decide_true, Option.some.injEq] at hfound
      subst hfound
      exact ⟨[], rs.map (·.2), rfl, by rw [putRow, if_pos hr]; rfl⟩
    · simp only [List.find?_cons, hr, decide_false] at h
      obtain ⟨before, after, hold, hnew⟩ := ih h
      refine ⟨r.2 :: before, after, by rw [List.map_cons, hold]; rfl, ?_⟩
      rw [putRow, if_neg hr, List.map_cons, hnew]
      rfl

end Table

structure Snapshot.IsOf (s : Snapshot) (store : Store) (r : Request) : Prop where
  member : store.member r.memberId = .ok s.member
  plan : store.plan s.member.planId = .ok s.plan
  resource : store.resource r.resourceId = .ok s.resource
  slot : s.slot = r.slot
  now : s.now = r.now
  partySize : s.partySize = r.partySize
  held : s.held = store.heldBy r.memberId r.now
  occupancy : s.occupancy = store.occupancy r.resourceId r.slot

def Request.reservation (r : Request) (fresh : Identifier) : Reservation :=
  ⟨fresh, r.memberId, r.resourceId, r.slot, r.partySize, .confirmed⟩

def Store.putReservation (s : Store) (r : Reservation) : Store :=
  { s with reservations := s.reservations.put r.id r }

theorem Store.filter_isActive_heldBy (s : Store) (member : Identifier) (now : DateTime) :
    (s.heldBy member now).filter (·.isActive) = s.heldBy member now := by
  rw [List.filter_eq_self]
  intro status hstatus
  obtain ⟨r, hr, rfl⟩ := List.mem_map.1 hstatus
  have hr := (List.mem_filter.1 hr).2
  simp only [Bool.and_eq_true] at hr
  exact hr.1.2

namespace Engine
variable {e : Engine} {st : State} {r : Request} {fresh : Identifier}

theorem isOf_of_snapshot {store : Store} {s : Snapshot} (h : snapshot store r = .ok s) :
    s.IsOf store r := by
  obtain ⟨⟨m, p⟩, hmp, h⟩ := bind_eq_ok_iff.1 h
  obtain ⟨m', hm, hmp⟩ := bind_eq_ok_iff.1 hmp
  obtain ⟨p', hp, hmp⟩ := bind_eq_ok_iff.1 hmp
  cases hmp
  obtain ⟨resource, hresource, h⟩ := bind_eq_ok_iff.1 h
  unfold Snapshot.make at h
  split at h
  · split at h
    · cases h
      exact ⟨hm, hp, hresource, rfl, rfl, rfl, store.filter_isActive_heldBy _ _, rfl⟩
    · cases h
  · cases h

theorem commit_of_snapshot (st : State) (fresh : Identifier) {s : Snapshot}
    (h : snapshot st.store r = .ok s) :
    commit st fresh r =
      .ok (r.reservation fresh,
        ⟨st.store.putReservation (r.reservation fresh), st.metrics.countCommitted⟩) := by
  have hs := isOf_of_snapshot h
  have hparty : r.partySize ≠ 0 := hs.partySize ▸ s.party_ne_zero
  unfold commit Reservation.make Store.addReservation
  rw [if_neg hparty]
  simp only [bind, Except.bind, hs.member, hs.resource]
  rfl

/-- The answer of `reserve` and the state it leaves, by the snapshot of its request. -/
theorem reserve_eq (e : Engine) (st : State) (fresh : Identifier) (r : Request) :
    e.reserve st fresh r =
      match snapshot st.store r with
      | .error fault => (.error fault, ⟨st.store, st.metrics.countCheck⟩)
      | .ok s =>
        if e.policy.allows s then
          (.ok (.confirmed (r.reservation fresh)),
            ⟨st.store.putReservation (r.reservation fresh),
              st.metrics.countCheck.countCommitted⟩)
        else
          (.ok (.denied (e.policy.evaluate s)), ⟨st.store, st.metrics.countDenied.countCheck⟩) := by
  unfold reserve check decide
  cases h : snapshot st.store r with
  | error fault => rfl
  | ok s =>
    have hallowed := e.policy.allowed_evaluate s
    cases hp : e.policy.allows s with
    | false =>
      rw [hp] at hallowed
      simp [bind, Except.bind, pure, Except.pure, isDenial, hallowed, hp, Timer.drop_check]
    | true =>
      rw [hp] at hallowed
      have hcommit := commit_of_snapshot ⟨st.store, st.metrics.countCheck⟩ fresh h
      simp [bind, Except.bind, pure, Except.pure, isDenial, hallowed, hp, Timer.drop_check, hcommit]

theorem store_reserve (e : Engine) (st : State) (fresh : Identifier) (r : Request) :
    (e.reserve st fresh r).2.store = st.store ∨
      ∃ s, snapshot st.store r = .ok s ∧ e.policy.allows s ∧
        (e.reserve st fresh r).2.store = st.store.putReservation (r.reservation fresh) := by
  rw [reserve_eq]
  cases h : snapshot st.store r with
  | error fault => exact .inl rfl
  | ok s =>
    dsimp only
    split
    · next hallows => exact .inr ⟨s, rfl, hallows, rfl⟩
    · exact .inl rfl

/-- What a command may do to a store: leave it as it is, or put one entry into one table. -/
inductive Changes (e : Engine) (s : Store) : Command → Store → Prop where
  -- any command may be refused, but setting a status only where there is no such reservation
  | same {c : Command}
      (h : ∀ id status, c = .setStatus id status → s.reservations.get? id = none) : e.Changes s c s
  | insertPlan (p : Plan) : e.Changes s (.insertPlan p) (s.insertPlan p)
  | insertMember {m : Member} {p : Plan} (h : s.plan m.planId = .ok p) :
      e.Changes s (.insertMember m) { s with members := s.members.put m.id m }
  | insertResource (r : Resource) : e.Changes s (.insertResource r) (s.insertResource r)
  | addReservation {r : Reservation} {m : Member} {resource : Resource}
      (hm : s.member r.memberId = .ok m) (hr : s.resource r.resourceId = .ok resource) :
      e.Changes s (.addReservation r) (s.putReservation r)
  | setStatus {id : Identifier} {old : Reservation} (status : ReservationStatus)
      (h : s.reservations.get? id = some old) :
      e.Changes s (.setStatus id status)
        { s with reservations := s.reservations.put id { old with status } }
  | reserve {r : Request} {facts : Snapshot} (fresh : Identifier) (hs : facts.IsOf s r)
      (h : e.policy.allows facts) :
      e.Changes s (.reserve fresh r) (s.putReservation (r.reservation fresh))

theorem changes_perform (e : Engine) (st : State) (c : Command) :
    e.Changes st.store c (e.perform st c).2.store := by
  cases c with
  | insertPlan p => exact .insertPlan p
  | insertMember m =>
    rw [perform]
    cases hm : st.store.insertMember m with
    | error fault => exact .same (by simp)
    | ok store =>
      obtain ⟨⟨p, hp⟩, rfl⟩ := Store.insertMember_eq_ok_iff.1 hm
      exact .insertMember hp
  | insertResource r => exact .insertResource r
  | addReservation r =>
    rw [perform]
    cases hr : st.store.addReservation r with
    | error fault => exact .same (by simp)
    | ok store =>
      obtain ⟨m, hm, hr⟩ := bind_eq_ok_iff.1 hr
      obtain ⟨resource, hresource, hr⟩ := bind_eq_ok_iff.1 hr
      cases hr
      exact .addReservation hm hresource
  | setStatus id status =>
    rw [perform]
    cases hr : st.store.reservation id with
    | error fault =>
      simp only [Store.setStatus, hr]
      refine .same fun i s hc => ?_
      cases hc
      exact Store.entry_eq_error_iff.1 hr |>.1
    | ok old =>
      simp only [Store.setStatus, hr]
      exact .setStatus status (Store.entry_eq_ok_iff.1 hr)
  | check r => exact .same (by simp)
  | reserve fresh r =>
    show e.Changes st.store _ (e.reserve st fresh r).2.store
    rcases store_reserve e st fresh r with hsame | ⟨s, hs, hallows, hstore⟩
    · rw [hsame]
      exact .same (by simp)
    · rw [hstore]
      exact .reserve fresh (isOf_of_snapshot hs) hallows
  | quote member price date coupon => exact .same (by simp)

def Follows (e : Engine) (may : State → Command → Prop) : State → List Command → Prop
  | _, [] => True
  | st, c :: cs => may st c ∧ Follows e may (e.perform st c).2 cs

theorem follows_append {may : State → Command → Prop} {done rest : List Command} :
    e.Follows may st (done ++ rest) ↔ e.Follows may st done ∧ e.Follows may (e.run st done) rest := by
  induction done generalizing st with
  | nil => simp [Follows, run_nil]
  | cons c cs ih => rw [List.cons_append, Follows, Follows, ih, run_cons, and_assoc]

/-- What every command keeps that may be given, a run of such commands keeps. -/
theorem Follows.run_keeps {may : State → Command → Prop} {P : State → Prop} {cs : List Command}
    (hstep : ∀ st c, P st → may st c → P (e.perform st c).2) (hst : P st)
    (h : e.Follows may st cs) : P (e.run st cs) := by
  induction cs generalizing st with
  | nil => exact hst
  | cons c cs ih => exact ih (hstep st c hst h.1) h.2

end Engine
end ClubBooking
