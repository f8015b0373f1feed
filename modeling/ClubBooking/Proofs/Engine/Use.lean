import ClubBooking.Proofs.Eligibility.Relief
import ClubBooking.Proofs.Engine.Seats

/-! What the stored reservations do to decisions. A snapshot reads them in two places only, as seats
that are taken and as reservations that a member holds. So to call a reservation off hurts no
request, and the order in which reservations are stored decides nothing. -/

namespace ClubBooking

structure Store.SameClub (t s : Store) : Prop where
  plans : t.plans = s.plans
  members : t.members = s.members
  resources : t.resources = s.resources

structure Store.Relieves (t s : Store) : Prop extends t.SameClub s where
  held : ∀ member now, (t.heldBy member now).Subperm (s.heldBy member now)
  occupancy : ∀ resource slot, t.occupancy resource slot ≤ s.occupancy resource slot

structure Store.Reorders (t s : Store) : Prop extends t.SameClub s where
  rows : t.reservations.rows.Perm s.reservations.rows

namespace Store
variable {s t : Store}

theorem Relieves.refl (s : Store) : s.Relieves s :=
  ⟨⟨rfl, rfl, rfl⟩, fun _ _ => .refl _, fun _ _ => UInt32.le_refl _⟩

theorem occupancy_le_of_sublist {resource : Identifier} {slot : TimeSlot}
    (h : (t.overlapping resource slot).Sublist (s.overlapping resource slot)) :
    t.occupancy resource slot ≤ s.occupancy resource slot := by
  have hsum := (h.map (·.partySize.toNat)).sum_le_sum fun _ _ => Nat.zero_le _
  rw [UInt32.le_iff_toNat_le, toNat_occupancy, toNat_occupancy]
  omega

theorem filter_put_sublist {id : Identifier} {old : Reservation} {status : ReservationStatus}
    {p : Reservation → Bool} (hp : ∀ r, p r → r.isActive) (hstatus : status.isActive = false)
    (hold : s.reservations.get? id = some old) :
    ((s.reservations.put id { old with status }).values.filter p).Sublist
      (s.reservations.values.filter p) := by
  obtain ⟨before, after, hvalues, hput⟩ := Table.values_put_of_get?_eq_some { old with status } hold
  have hgone : p { old with status } = false := by
    by_contra hyes
    have hactive := hp _ (eq_true_of_ne_false hyes)
    cases hstatus.symm.trans hactive
  rw [hvalues, hput, List.filter_append, List.filter_append,
    List.filter_cons_of_neg (by simp [hgone])]
  exact (List.Sublist.refl _).append ((List.sublist_cons_self _ _).filter p)

theorem relieves_setStatus {id : Identifier} {old : Reservation} {status : ReservationStatus}
    (hstatus : status.isActive = false) (hold : s.reservations.get? id = some old) :
    Relieves { s with reservations := s.reservations.put id { old with status } } s where
  plans := rfl
  members := rfl
  resources := rfl
  held member now := by
    refine ((filter_put_sublist (fun r hr => ?_) hstatus hold).map _).subperm
    simp only [Bool.and_eq_true] at hr
    exact hr.1.2
  occupancy resource slot := by
    refine occupancy_le_of_sublist (filter_put_sublist (fun r hr => ?_) hstatus hold)
    simp only [Bool.and_eq_true] at hr
    exact hr.1.2

theorem Reorders.values (h : t.Reorders s) : t.reservations.values.Perm s.reservations.values :=
  h.rows.map _

theorem Reorders.heldBy (h : t.Reorders s) (member : Identifier) (now : DateTime) :
    (t.heldBy member now).Perm (s.heldBy member now) := (h.values.filter _).map _

theorem Reorders.overlapping (h : t.Reorders s) (resource : Identifier) (slot : TimeSlot) :
    (t.overlapping resource slot).Perm (s.overlapping resource slot) := h.values.filter _

theorem Reorders.occupancy (h : t.Reorders s) (resource : Identifier) (slot : TimeSlot) :
    t.occupancy resource slot = s.occupancy resource slot := by
  rw [← UInt32.toNat_inj, toNat_occupancy, toNat_occupancy,
    ((h.overlapping resource slot).map _).sum_eq]

end Store

namespace Engine
variable {e : Engine} {s t : Store} {r : Request}

theorem snapshot_of_sameClub (h : t.SameClub s) (r : Request) :
    (∃ f, snapshot s r = .error f ∧ snapshot t r = .error f) ∨
      ∃ a b, snapshot s r = .ok a ∧ snapshot t r = .ok b := by
  have hmember : t.memberWithPlan r.memberId = s.memberWithPlan r.memberId := by
    simp only [Store.memberWithPlan, Store.member, Store.plan, h.plans, h.members]
  have hresource : t.resource r.resourceId = s.resource r.resourceId := by
    simp only [Store.resource, h.resources]
  simp only [snapshot, hmember, hresource, bind, Except.bind]
  cases s.memberWithPlan r.memberId with
  | error f => exact .inl ⟨f, rfl, rfl⟩
  | ok mp =>
    cases s.resource r.resourceId with
    | error f => exact .inl ⟨f, rfl, rfl⟩
    | ok resource =>
      simp only [Snapshot.make]
      split
      · split
        · exact .inr ⟨_, _, rfl, rfl⟩
        · exact .inl ⟨_, rfl, rfl⟩
      · exact .inl ⟨_, rfl, rfl⟩

theorem alike_of_sameClub {a b : Snapshot} (h : t.SameClub s) (ha : a.IsOf s r) (hb : b.IsOf t r) :
    b.Alike a := by
  have hmember : b.member = a.member := by
    have hm := hb.member
    rw [Store.member, h.members] at hm
    exact Except.ok.inj (hm.symm.trans ha.member)
  have hplan : b.plan = a.plan := by
    have hp := hb.plan
    rw [Store.plan, h.plans, hmember] at hp
    exact Except.ok.inj (hp.symm.trans ha.plan)
  have hresource : b.resource = a.resource := by
    have hr := hb.resource
    rw [Store.resource, h.resources] at hr
    exact Except.ok.inj (hr.symm.trans ha.resource)
  exact ⟨hmember, hplan, hresource, hb.slot.trans ha.slot.symm, hb.now.trans ha.now.symm⟩

theorem relieves_of_isOf {a b : Snapshot} (h : t.Relieves s) (ha : a.IsOf s r) (hb : b.IsOf t r) :
    b.Relieves a where
  toAlike := alike_of_sameClub h.toSameClub ha hb
  occupancy := by
    rw [ha.occupancy, hb.occupancy]
    exact h.occupancy r.resourceId r.slot
  partySize := by
    rw [ha.partySize, hb.partySize]
    exact UInt32.le_refl _
  held := by
    rw [ha.held, hb.held]
    exact h.held r.memberId r.now

theorem reorders_of_isOf {a b : Snapshot} (h : t.Reorders s) (ha : a.IsOf s r) (hb : b.IsOf t r) :
    b.Reorders a where
  toAlike := alike_of_sameClub h.toSameClub ha hb
  occupancy := by
    rw [ha.occupancy, hb.occupancy]
    exact h.occupancy r.resourceId r.slot
  partySize := hb.partySize.trans ha.partySize.symm
  held := by
    rw [ha.held, hb.held]
    exact h.heldBy r.memberId r.now

theorem decide_eq_ok_iff {d : Decision} :
    e.decide s r = .ok d ↔ ∃ a, snapshot s r = .ok a ∧ e.policy.evaluate a = d := by
  rw [decide, bind_eq_ok_iff]
  simp only [pure, Except.pure, Except.ok.injEq]

theorem relieves_perform_setStatus (st : State) (id : Identifier) {status : ReservationStatus}
    (hstatus : status.isActive = false) :
    (e.perform st (.setStatus id status)).2.store.Relieves st.store := by
  have hchanges := e.changes_perform st (.setStatus id status)
  generalize (e.perform st (.setStatus id status)).2.store = after at hchanges ⊢
  cases hchanges with
  | same _ => exact .refl _
  | setStatus _ hold => exact Store.relieves_setStatus hstatus hold

theorem decide_of_relieves (hp : ∀ c ∈ e.policy.conditions, c.IsPositive) (h : t.Relieves s)
    {d : Decision} (hd : e.decide s r = .ok d) (hallowed : d.allowed) :
    ∃ d', e.decide t r = .ok d' ∧ d'.allowed := by
  obtain ⟨a, ha, rfl⟩ := decide_eq_ok_iff.1 hd
  rw [EligibilityPolicy.allowed_evaluate] at hallowed
  rcases snapshot_of_sameClub h.toSameClub r with ⟨f, hf, -⟩ | ⟨a', b, ha', hb⟩
  · cases ha.symm.trans hf
  · cases ha.symm.trans ha'
    have hrelieves := relieves_of_isOf h (isOf_of_snapshot ha) (isOf_of_snapshot hb)
    refine ⟨e.policy.evaluate b, decide_eq_ok_iff.2 ⟨b, hb, rfl⟩, ?_⟩
    rw [EligibilityPolicy.allowed_evaluate]
    exact EligibilityPolicy.allows_of_relieves hp hrelieves hallowed

/-- A policy of rules put together with `and` and `or` allows what it allowed before a reservation
was called off, whatever is stored. The reason is in the trees: one that holds goes on to hold with
fewer seats taken, a smaller party and fewer reservations held, also if it is put together from a
list of such trees. -/
theorem allowed_of_release (e : Engine) (hp : ∀ c ∈ e.policy.conditions, c.IsPositive) :
    (∀ (st : State) (id : Identifier) (status : ReservationStatus) (r : Request) (d : Decision),
      status.isActive = false → (e.check st r).1 = .ok d → d.allowed →
      ∃ d', (e.check (e.perform st (.setStatus id status)).2 r).1 = .ok d' ∧ d'.allowed) ∧
    (∀ (s t : Snapshot) (c : Condition), c.IsPositive → t.Relieves s → c.holds s → c.holds t) ∧
    ∀ (mode : CombinationMode) (cs : List Condition) (tree : Condition),
      (∀ c ∈ cs, c.IsPositive) → mode.chain cs = .ok tree → tree.IsPositive := by
  refine ⟨fun st id status r d hstatus hd hallowed => ?_,
    fun s t c hc h hs => hc.holds_of_relieves h hs, fun mode cs tree hcs htree => ?_⟩
  · exact decide_of_relieves hp (relieves_perform_setStatus st id hstatus) hd hallowed
  · exact CombinationMode.forall_chain (fun _ _ => .and) (fun _ _ => .or) hcs htree

def seatsOrNothingHeld : Engine where
  policy := ⟨"desk", .any, .and (.rule (.capacity .full)) (.rule (.advance ⟨0, some 1⟩)),
    [.rule (.simultaneous ⟨true, some 1⟩)]⟩
  pricing := ⟨⟨"none", .sequential, none, none, none⟩, [.none]⟩

theorem allowed_afterNoShow :
    (seatsOrNothingHeld.check (seatsOnly.run .initial rebooking) (party 3)).1 =
        .ok ⟨"desk", true, []⟩ ∧
      ∃ d, (seatsOrNothingHeld.check (seatsOrNothingHeld.perform (seatsOnly.run .initial rebooking)
          (.setStatus (ticket 2) .noShow)).2 (party 3)).1 = .ok d ∧ d.allowed := by
  have hp : ∀ c ∈ seatsOrNothingHeld.policy.conditions, c.IsPositive := by
    intro c hc
    rcases List.mem_cons.1 hc with rfl | hc
    · exact .and (.rule _) (.rule _)
    · obtain rfl := List.mem_singleton.1 hc
      exact .rule _
  have hbefore : (seatsOrNothingHeld.check (seatsOnly.run .initial rebooking) (party 3)).1 =
      .ok ⟨"desk", true, []⟩ := rfl
  exact ⟨hbefore, (allowed_of_release _ hp).1 _ (ticket 2) .noShow _ _ rfl hbefore rfl⟩

/-- In whatever order the reservations are stored, a request is refused a snapshot for the same
fault or has one. The seats taken are then the sum of the parties that overlap, up to the greatest
count, the held reservations are the same but for their order, and a policy whose tests do not look
at these decides the same, in the same words. -/
theorem evaluate_of_reordered {e : Engine} (hp : ∀ c ∈ e.policy.conditions, c.IgnoresHeld)
    {s t : Store} (h : t.Reorders s) (r : Request) :
    e.decide t r = e.decide s r ∧
    (∀ f, snapshot t r = .error f ↔ snapshot s r = .error f) ∧
    ∀ a, snapshot s r = .ok a → ∃ b, snapshot t r = .ok b ∧
      b.occupancy = a.occupancy ∧
      a.occupancy.toNat =
        min ((s.overlapping r.resourceId r.slot).map (·.partySize.toNat)).sum (2 ^ 32 - 1) ∧
      b.held.Perm a.held ∧ e.policy.evaluate b = e.policy.evaluate a := by
  rcases snapshot_of_sameClub h.toSameClub r with ⟨f, hs, ht⟩ | ⟨a, b, ha, hb⟩
  · refine ⟨?_, by simp [hs, ht], by simp [hs]⟩
    simp only [decide, hs, ht]
  · have hfacts := isOf_of_snapshot ha
    have hreorders := reorders_of_isOf h hfacts (isOf_of_snapshot hb)
    have hevaluate : e.policy.evaluate b = e.policy.evaluate a :=
      EligibilityPolicy.evaluate_of_reorders hp hreorders
    refine ⟨?_, by simp [ha, hb], fun a' ha' => ?_⟩
    · rw [decide_eq_ok_iff.2 ⟨a, ha, rfl⟩, decide_eq_ok_iff.2 ⟨b, hb, hevaluate⟩]
    · cases ha.symm.trans ha'
      refine ⟨b, hb, hreorders.occupancy, ?_, hreorders.held, hevaluate⟩
      rw [hfacts.occupancy, Store.toNat_occupancy]
      rfl

def smallParties : Engine where
  policy := ⟨"small", .all, .rule (.simultaneous ⟨true, some 1⟩),
    [.test "Small party" fun s => s.partySize ≤ 2, .not (.not (.rule (.capacity .full)))]⟩
  pricing := ⟨⟨"none", .sequential, none, none, none⟩, [.none]⟩

def twoParties : Store :=
  (seatsOnly.run .initial [
    .insertPlan ⟨default, "Gold", .ofList [.lounge], 3, 30, .zero, true⟩,
    .insertMember ⟨default, "Ada", .active, .standard, .singleDay default, default⟩,
    .insertResource tenSeats,
    .reserve (ticket 1) (party 4), .reserve (ticket 2) (party 5),
    .setStatus (ticket 1) .pending]).store

theorem evaluate_twoParties :
    smallParties.decide { twoParties with reservations := ⟨twoParties.reservations.rows.reverse⟩ }
        (party 2) = smallParties.decide twoParties (party 2) ∧
      smallParties.decide twoParties (party 2) = .ok ⟨"small", false,
        ["Simultaneous reservation limit reached: 2 of 1",
          "Expected not to hold: NOT (Resource has capacity (utilization ceiling 100%))"]⟩ := by
  have hp : ∀ c ∈ smallParties.policy.conditions, c.IgnoresHeld := by
    intro c hc
    rcases List.mem_cons.1 hc with rfl | hc
    · trivial
    rcases List.mem_cons.1 hc with rfl | hc
    · intro s t h
      simp only [h.partySize]
    · obtain rfl := List.mem_singleton.1 hc
      trivial
  have h : Store.Reorders
      { twoParties with reservations := ⟨twoParties.reservations.rows.reverse⟩ } twoParties :=
    ⟨⟨rfl, rfl, rfl⟩, List.reverse_perm _⟩
  exact ⟨(evaluate_of_reordered hp h (party 2)).1, by rfl⟩

end Engine
end ClubBooking
