import ClubBooking.Proofs.Engine.Step
import Mathlib.Algebra.Order.BigOperators.Group.List
import Mathlib.Algebra.Order.Ring.Nat

/-! No resource is overbooked. The rule on capacity looks at the reservations that overlap a slot;
what it keeps is a bound at every instant, since the reservations that hold an instant of the slot
are among those that overlap it. -/

namespace ClubBooking

def Reservation.occupies (r : Reservation) (resource : Identifier) (t : DateTime) : Bool :=
  r.resourceId = resource && r.isActive && r.slot.contains t

theorem Reservation.occupies_iff {r : Reservation} {resource : Identifier} {t : DateTime} :
    r.occupies resource t ↔ r.resourceId = resource ∧ r.isActive ∧ r.slot.contains t := by
  simp [occupies, and_assoc]

def seatsTaken (rs : List Reservation) (resource : Identifier) (t : DateTime) : Nat :=
  ((rs.filter (·.occupies resource t)).map (·.partySize.toNat)).sum

def Store.seatsAt (s : Store) (resource : Identifier) (t : DateTime) : Nat :=
  seatsTaken s.reservations.values resource t

section seatsTaken
variable {rs before after : List Reservation} {r u : Reservation} {resource : Identifier}
  {t : DateTime}

theorem seatsTaken_append (rs ss : List Reservation) (resource : Identifier) (t : DateTime) :
    seatsTaken (rs ++ ss) resource t = seatsTaken rs resource t + seatsTaken ss resource t := by
  simp only [seatsTaken, List.filter_append, List.map_append, List.sum_append]

theorem seatsTaken_cons (r : Reservation) (rs : List Reservation) (resource : Identifier)
    (t : DateTime) :
    seatsTaken (r :: rs) resource t =
      (if r.occupies resource t then r.partySize.toNat else 0) + seatsTaken rs resource t := by
  unfold seatsTaken
  by_cases h : r.occupies resource t <;> simp [h]

theorem seatsTaken_singleton_le (r : Reservation) (resource : Identifier) (t : DateTime) :
    seatsTaken [r] resource t ≤ r.partySize.toNat := by
  rw [seatsTaken_cons]
  split
  · exact Nat.le_refl _
  · exact Nat.zero_le _

theorem seatsTaken_singleton_of_not_occupies (h : r.occupies resource t = false) :
    seatsTaken [r] resource t = 0 := by
  simp [seatsTaken, h]

theorem seatsTaken_replace_le (hseats : u.partySize = r.partySize)
    (h : u.occupies resource t → r.occupies resource t) :
    seatsTaken (before ++ u :: after) resource t ≤
      seatsTaken (before ++ r :: after) resource t := by
  rw [seatsTaken_append, seatsTaken_append, seatsTaken_cons, seatsTaken_cons, hseats]
  by_cases hu : u.occupies resource t
  · simp [hu, h hu]
  · simp [hu]

end seatsTaken

theorem Store.seatsAt_le_overlapping (s : Store) (resource : Identifier) {slot : TimeSlot}
    {t : DateTime} (ht : slot.contains t) :
    s.seatsAt resource t ≤ ((s.overlapping resource slot).map (·.partySize.toNat)).sum := by
  refine ((List.monotone_filter_right _ fun r hr => ?_).map _).sum_le_sum fun _ _ => Nat.zero_le _
  obtain ⟨hresource, hactive, hcontains⟩ := Reservation.occupies_iff.1 hr
  simp [hresource, hactive, TimeSlot.overlaps_of_contains hcontains ht]

namespace Count

theorem toNat_foldl_add (ns : List UInt32) (a : UInt32) :
    (ns.foldl add a).toNat = min (a.toNat + (ns.map UInt32.toNat).sum) 4294967295 := by
  induction ns generalizing a with
  | nil =>
    have := a.toNat_lt
    simp only [List.foldl_nil, List.map_nil, List.sum_nil]
    omega
  | cons n ns ih =>
    rw [List.foldl_cons, ih, toNat_add, List.map_cons, List.sum_cons]
    omega

theorem toNat_sum (ns : List UInt32) :
    (sum ns).toNat = min (ns.map UInt32.toNat).sum 4294967295 := by
  rw [sum, toNat_foldl_add, UInt32.toNat_zero, Nat.zero_add]

end Count

theorem Store.toNat_occupancy (s : Store) (resource : Identifier) (slot : TimeSlot) :
    (s.occupancy resource slot).toNat =
      min ((s.overlapping resource slot).map (·.partySize.toNat)).sum 4294967295 := by
  rw [Store.occupancy, Count.toNat_sum, List.map_map]
  rfl

theorem CapacityRule.fits_of_holds {k : CapacityRule} {store : Store} {r : Request} {s : Snapshot}
    (hs : s.IsOf store r) (h : k.holds s)
    (husable : (k.usableSeats s.resource.capacity).toNat < 4294967295) :
    ((store.overlapping r.resourceId r.slot).map (·.partySize.toNat)).sum + r.partySize.toNat ≤
      (k.usableSeats s.resource.capacity).toNat := by
  simp only [holds, requestedSeats, Bool.and_eq_true, decide_eq_true_eq, UInt32.le_iff_toNat_le,
    Count.toNat_add, hs.occupancy, hs.partySize, store.toNat_occupancy] at h
  omega

/-- Commands that leave it to the rules who gets seats: reservations come from `reserve` alone and
under new identifiers, no resource takes the place of another, and a reservation that has given up
its seats does not get them back. -/
def Command.LeavesSeatsToRules (st : Engine.State) : Command → Prop
  | .reserve fresh _ => st.store.reservations.get? fresh = none
  | .addReservation _ => False
  | .insertResource r => st.store.resources.get? r.id = none
  | .setStatus id status =>
    ∀ r, st.store.reservations.get? id = some r → status.isActive → r.isActive
  | .insertPlan _ | .insertMember _ | .check _ | .quote .. => True

/-- No resource has more seats taken than a rule on capacity allows, and none has any taken before
it is stored. -/
structure Store.WithinSeats (k : CapacityRule) (s : Store) : Prop where
  known : ∀ r ∈ s.reservations.values, ∃ resource, s.resources.get? r.resourceId = some resource
  bound : ∀ id resource, s.resources.get? id = some resource →
    (k.usableSeats resource.capacity).toNat < 4294967295 →
    ∀ t, s.seatsAt id t ≤ (k.usableSeats resource.capacity).toNat

namespace Store
variable {k : CapacityRule} {s : Store}

theorem WithinSeats.of_reservations_empty (h : s.reservations = .empty) : s.WithinSeats k where
  known r hr := by simp [h, Table.empty, Table.values] at hr
  bound id resource _ _ t := by
    simp [seatsAt, h, Table.empty, Table.values, seatsTaken]

theorem WithinSeats.congr {u : Store} (h : s.WithinSeats k) (hr : u.resources = s.resources)
    (hv : u.reservations = s.reservations) : u.WithinSeats k := by
  obtain ⟨plans, members, resources, reservations⟩ := u
  cases hr
  cases hv
  exact ⟨h.known, h.bound⟩

theorem WithinSeats.insertResource {r : Resource} (h : s.WithinSeats k)
    (hnew : s.resources.get? r.id = none) : (s.insertResource r).WithinSeats k where
  known v hv := by
    obtain ⟨resource, hresource⟩ := h.known v hv
    by_cases hid : r.id = v.resourceId
    · exact ⟨r, by simp [Store.insertResource, Table.get?_put, hid]⟩
    · exact ⟨resource, by simp [Store.insertResource, Table.get?_put, hid, hresource]⟩
  bound id resource hid husable t := by
    simp only [Store.insertResource, Table.get?_put] at hid
    split at hid
    · next hr =>
      have hnone : ∀ v ∈ s.reservations.values, v.occupies id t = false := by
        intro v hv
        obtain ⟨known, hknown⟩ := h.known v hv
        have hne : v.resourceId ≠ id := by
          rintro rfl
          rw [← hr, hnew] at hknown
          cases hknown
        simp [Reservation.occupies, hne]
      show seatsTaken s.reservations.values id t ≤ _
      rw [seatsTaken, List.filter_eq_nil_iff.2 fun v hv => by simp [hnone v hv]]
      exact Nat.zero_le _
    · exact h.bound id resource hid husable t

theorem WithinSeats.setStatus {id : Identifier} {status : ReservationStatus} {old : Reservation}
    (h : s.WithinSeats k) (hold : s.reservations.get? id = some old)
    (hactive : status.isActive → old.isActive) :
    WithinSeats k { s with reservations := s.reservations.put id { old with status } } := by
  obtain ⟨before, after, hvalues, hput⟩ :=
    Table.values_put_of_get?_eq_some { old with status } hold
  refine ⟨fun v hv => ?_, fun rid resource hrid husable t => ?_⟩
  · simp only [hput, List.mem_append, List.mem_cons] at hv
    rcases hv with hv | rfl | hv
    · exact h.known v (by simp [hvalues, hv])
    · exact h.known old (by simp [hvalues])
    · exact h.known v (by simp [hvalues, hv])
  · -- the reservation keeps its place and its seats, and does not become active again
    refine Nat.le_trans ?_ (h.bound rid resource hrid husable t)
    simp only [seatsAt, hput, hvalues]
    refine seatsTaken_replace_le rfl fun hocc => ?_
    obtain ⟨hid, hstatus, hcontains⟩ := Reservation.occupies_iff.1 hocc
    exact Reservation.occupies_iff.2 ⟨hid, hactive hstatus, hcontains⟩

theorem WithinSeats.putReservation {r : Request} {fresh : Identifier} {snapshot : Snapshot}
    (h : s.WithinSeats k) (hs : snapshot.IsOf s r) (hk : k.holds snapshot)
    (hnew : s.reservations.get? fresh = none) :
    (s.putReservation (r.reservation fresh)).WithinSeats k := by
  have hput := Table.values_put_of_get?_eq_none (r.reservation fresh) hnew
  have hresource := Store.entry_eq_ok_iff.1 hs.resource
  refine ⟨fun v hv => ?_, fun id resource hid husable t => ?_⟩
  · change v ∈ (s.reservations.put fresh (r.reservation fresh)).values at hv
    rw [hput, List.mem_append, List.mem_singleton] at hv
    rcases hv with hv | rfl
    · exact h.known v hv
    · exact ⟨snapshot.resource, hresource⟩
  · show seatsTaken (s.reservations.put fresh (r.reservation fresh)).values id t ≤ _
    rw [hput, seatsTaken_append]
    have hbefore := h.bound id resource hid husable t
    -- where the new reservation takes no seats, the bound from before does
    by_cases hocc : (r.reservation fresh).occupies id t
    · obtain ⟨hplace, -, hslot⟩ := Reservation.occupies_iff.1 hocc
      change r.resourceId = id at hplace
      change r.slot.contains t at hslot
      subst hplace
      cases hid.symm.trans hresource
      have hfits := CapacityRule.fits_of_holds hs hk husable
      have hoverlap := s.seatsAt_le_overlapping r.resourceId hslot
      have hone : seatsTaken [r.reservation fresh] r.resourceId t ≤ r.partySize.toNat :=
        seatsTaken_singleton_le ..
      unfold seatsAt at hoverlap
      omega
    · rw [seatsTaken_singleton_of_not_occupies (by simpa using hocc)]
      exact hbefore

end Store

namespace EligibilityPolicy

theorem holds_of_allows {p : EligibilityPolicy} {c : Condition} {s : Snapshot}
    (hmode : p.mode = .all) (hc : c ∈ p.conditions) (h : p.allows s) : c.holds s := by
  rw [allows_eq_all hmode, List.all_eq_true] at h
  exact h c hc

end EligibilityPolicy

namespace Engine
variable {e : Engine} {k : CapacityRule}

theorem withinSeats_perform {st : State} {c : Command} (hmode : e.policy.mode = .all)
    (hk : .rule (.capacity k) ∈ e.policy.conditions) (h : st.store.WithinSeats k)
    (hmay : c.LeavesSeatsToRules st) : (e.perform st c).2.store.WithinSeats k := by
  cases c with
  | insertPlan p => exact h.congr rfl rfl
  | insertMember m =>
    rw [perform]
    cases hm : st.store.insertMember m with
    | error fault => exact h
    | ok store =>
      obtain ⟨-, rfl⟩ := Store.insertMember_eq_ok_iff.1 hm
      exact h.congr rfl rfl
  | insertResource r => exact h.insertResource hmay
  | addReservation r => exact hmay.elim
  | setStatus id status =>
    rw [perform]
    cases hr : st.store.reservation id with
    | error fault =>
      simp only [Store.setStatus, hr]
      exact h
    | ok old =>
      have hold := Store.entry_eq_ok_iff.1 hr
      simp only [Store.setStatus, hr]
      exact h.setStatus hold (hmay old hold)
  | check r => exact h
  | reserve fresh r =>
    show (e.reserve st fresh r).2.store.WithinSeats k
    rcases store_reserve e st fresh r with hsame | ⟨s, hs, hallows, hstore⟩
    · rw [hsame]
      exact h
    · rw [hstore]
      exact h.putReservation (isOf_of_snapshot hs)
        (EligibilityPolicy.holds_of_allows hmode hk hallows) hmay
  | quote member price date coupon => exact h

/-- A run that starts without reservations and leaves the seats to a policy of all rules, one of
them on capacity, has at no point and at no instant more seats taken than the rule allows. -/
theorem seatsAt_le_usableSeats {st : State} {done rest : List Command}
    (hmode : e.policy.mode = .all) (hk : .rule (.capacity k) ∈ e.policy.conditions)
    (hempty : st.store.reservations = .empty)
    (h : e.Follows (fun st c => c.LeavesSeatsToRules st) st (done ++ rest))
    {id : Identifier} {resource : Resource}
    (hresource : (e.run st done).store.resource id = .ok resource)
    (husable : (k.usableSeats resource.capacity).toNat < 2 ^ 32 - 1) (t : DateTime) :
    (e.run st done).store.seatsAt id t ≤ (k.usableSeats resource.capacity).toNat := by
  have hkept : (e.run st done).store.WithinSeats k := by
    refine Follows.run_keeps (P := fun st => st.store.WithinSeats k) (fun st c hst hmay => ?_)
      (.of_reservations_empty hempty) (follows_append.1 h).1
    exact withinSeats_perform hmode hk hst hmay
  exact hkept.bound id resource (Store.entry_eq_ok_iff.1 hresource) husable t

def seatsOnly : Engine where
  policy := ⟨"seats", .all, .rule (.capacity .full), []⟩
  pricing := ⟨⟨"none", .sequential, none, none, none⟩, [.none]⟩

def firstHour : TimeSlot :=
  ⟨⟨default, .midnight⟩, ⟨default, ⟨3600, 0, by decide, by decide⟩⟩, by decide⟩

def party (seats : UInt32) : Request := ⟨default, default, firstHour, seats, firstHour.start⟩

def tenSeats : Resource := ⟨default, "Room", .lounge, 10, .always, true⟩

def ticket (n : Nat) : Identifier := ⟨n % 2 ^ 128, Nat.mod_lt n (by decide)⟩

def rebooking : List Command := [
  .insertPlan ⟨default, "Gold", .ofList [.lounge], 3, 30, .zero, true⟩,
  .insertMember ⟨default, "Ada", .active, .standard, .singleDay default, default⟩,
  .insertResource tenSeats,
  .reserve ⟨1, by decide⟩ (party 6), .reserve ⟨2, by decide⟩ (party 6),
  .setStatus ⟨1, by decide⟩ .cancelled, .reserve ⟨2, by decide⟩ (party 7)]

theorem seatsAt_rebooking :
    (seatsOnly.run .initial rebooking).store.seatsAt default firstHour.start = 7 ∧
      (seatsOnly.run .initial rebooking).store.seatsAt default firstHour.start ≤ 10 := by
  have hfollows : seatsOnly.Follows (fun st c => c.LeavesSeatsToRules st) .initial
      (rebooking ++ [.reserve ⟨3, by decide⟩ (party 3)]) := by
    refine ⟨trivial, trivial, rfl, rfl, rfl, ?_, rfl, rfl, trivial⟩
    intro r _ hactive
    cases hactive
  have hroom : (seatsOnly.run .initial rebooking).store.resource default = .ok tenSeats := rfl
  have husable : (CapacityRule.full.usableSeats tenSeats.capacity).toNat < 2 ^ 32 - 1 := by decide
  refine ⟨by decide, ?_⟩
  exact seatsAt_le_usableSeats rfl (List.mem_cons_self ..) rfl hfollows hroom husable firstHour.start

end Engine
end ClubBooking
