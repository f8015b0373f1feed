import ClubBooking.Proofs.Eligibility.Monotone
import ClubBooking.Proofs.Engine.Seats
import Mathlib.Data.List.Induction

/-! No member holds more reservations at a time than a rule on their number allows. The rule counts
at the instant of a request, and what has ended by then does not count; so as long as requests come
in the order of time, the count can only fall between them, and it grows by one where the rule has
left room for it. -/

namespace ClubBooking

def SimultaneousLimit.countsFor (l : SimultaneousLimit) (member : Identifier) (now : DateTime)
    (r : Reservation) : Bool :=
  r.memberId = member && l.counts r.status && now < r.slot.stop

def Store.heldAt (s : Store) (l : SimultaneousLimit) (member : Identifier) (now : DateTime) : Nat :=
  s.reservations.values.countP (l.countsFor member now)

namespace SimultaneousLimit
variable {l : SimultaneousLimit} {member : Identifier} {now later : DateTime} {r : Reservation}

theorem countsFor_iff : l.countsFor member now r ↔
    r.memberId = member ∧ l.counts r.status ∧ now < r.slot.stop := by
  simp [countsFor, and_assoc]

theorem isActive_of_counts {status : ReservationStatus} (h : l.counts status) :
    status.isActive := by
  cases status with
  | pending | confirmed | checkedIn => rfl
  | completed | cancelled | noShow => cases h

theorem countsFor_of_le (h : now ≤ later) (hr : l.countsFor member later r) :
    l.countsFor member now r := by
  obtain ⟨hmember, hcounts, hstop⟩ := countsFor_iff.1 hr
  exact countsFor_iff.2 ⟨hmember, hcounts, Int.lt_of_le_of_lt h hstop⟩

theorem held_eq_heldAt {store : Store} {q : Request} {s : Snapshot} (hs : s.IsOf store q) :
    l.held s = store.heldAt l q.memberId q.now := by
  rw [held, hs.held, Store.heldBy, List.countP_map, List.countP_filter, Store.heldAt]
  refine List.countP_congr fun r _ => ?_
  rw [countsFor_iff]
  simp only [Function.comp_apply, Bool.and_eq_true, decide_eq_true_eq]
  constructor
  · rintro ⟨hcounts, ⟨hmember, -⟩, hstop⟩
    exact ⟨hmember, hcounts, hstop⟩
  · rintro ⟨hmember, hcounts, hstop⟩
    exact ⟨hcounts, ⟨hmember, isActive_of_counts hcounts⟩, hstop⟩

theorem held_lt_of_holds {s : Snapshot} (h : l.holds s) :
    l.held s < s.plan.maxReservations.toNat ∧ ∀ cap ∈ l.cap, l.held s < cap.toNat := by
  rw [holds, limit_eq, decide_eq_true_eq] at h
  cases hcap : l.cap with
  | none =>
    rw [hcap] at h
    exact ⟨h, by simp⟩
  | some cap =>
    rw [hcap, Option.elim_some, toNat_min, Nat.lt_min] at h
    exact ⟨h.1, by simpa using h.2⟩

end SimultaneousLimit

namespace Store
variable {s t : Store} {l : SimultaneousLimit} {id member : Identifier} {now later : DateTime}

theorem heldAt_mono (h : now ≤ later) : s.heldAt l member later ≤ s.heldAt l member now :=
  List.countP_mono_left fun _ _ => SimultaneousLimit.countsFor_of_le h

/-- No member holds more than the plan or the cap of a rule allows, and none holds anything before
it is stored together with its plan. -/
structure WithinLimit (s : Store) (l : SimultaneousLimit) (now : DateTime) : Prop where
  known : ∀ r ∈ s.reservations.values, ∃ mp, s.memberWithPlan r.memberId = .ok mp
  bound : ∀ id m p, s.memberWithPlan id = .ok (m, p) →
    s.heldAt l id now ≤ p.maxReservations.toNat ∧ ∀ cap ∈ l.cap, s.heldAt l id now ≤ cap.toNat

theorem WithinLimit.of_reservations_empty (h : s.reservations = .empty) :
    s.WithinLimit l now where
  known r hr := by simp [h, Table.empty, Table.values] at hr
  bound id m p _ := by simp [heldAt, h, Table.empty, Table.values]

theorem WithinLimit.of_heldAt_le (h : s.WithinLimit l now)
    (hplans : ∀ id, t.memberWithPlan id = s.memberWithPlan id)
    (hknown : ∀ r ∈ t.reservations.values, ∃ mp, s.memberWithPlan r.memberId = .ok mp)
    (hfewer : ∀ id, t.heldAt l id later ≤ s.heldAt l id now) : t.WithinLimit l later where
  known r hr := by
    rw [hplans]
    exact hknown r hr
  bound id m p hmp := by
    rw [hplans] at hmp
    obtain ⟨hplan, hcap⟩ := h.bound id m p hmp
    exact ⟨Nat.le_trans (hfewer id) hplan, fun cap hmem => Nat.le_trans (hfewer id) (hcap cap hmem)⟩

theorem WithinLimit.of_le (h : s.WithinLimit l now) (hle : now ≤ later) :
    s.WithinLimit l later :=
  h.of_heldAt_le (fun _ => rfl) h.known fun _ => heldAt_mono hle

theorem WithinLimit.heldAt_eq_zero (h : s.WithinLimit l now)
    (hno : ¬ ∃ mp, s.memberWithPlan id = .ok mp) : s.heldAt l id now = 0 := by
  refine List.countP_eq_zero.2 fun r hr hcounts => hno ?_
  rw [← (SimultaneousLimit.countsFor_iff.1 hcounts).1]
  exact h.known r hr

theorem WithinLimit.of_memberWithPlan (h : s.WithinLimit l now)
    (hv : t.reservations = s.reservations)
    (hkept : ∀ id mp, s.memberWithPlan id = .ok mp → t.memberWithPlan id = .ok mp) :
    t.WithinLimit l now where
  known r hr := by
    rw [hv] at hr
    obtain ⟨mp, hmp⟩ := h.known r hr
    exact ⟨mp, hkept _ _ hmp⟩
  bound id m p hmp := by
    have heq : t.heldAt l id now = s.heldAt l id now := by rw [heldAt, heldAt, hv]
    rw [heq]
    by_cases hold : ∃ mp, s.memberWithPlan id = .ok mp
    · obtain ⟨mp, hold⟩ := hold
      cases hmp.symm.trans (hkept id mp hold)
      exact h.bound id m p hold
    · rw [h.heldAt_eq_zero hold]
      exact ⟨Nat.zero_le _, fun _ _ => Nat.zero_le _⟩

theorem memberWithPlan_insertPlan {p : Plan} (hnew : s.plans.get? p.id = none) {id : Identifier}
    {mp : Member × Plan} (h : s.memberWithPlan id = .ok mp) :
    (s.insertPlan p).memberWithPlan id = .ok mp := by
  obtain ⟨m, hm, h⟩ := bind_eq_ok_iff.1 h
  obtain ⟨q, hq, h⟩ := bind_eq_ok_iff.1 h
  have hplan : (s.insertPlan p).plan m.planId = .ok q :=
    entry_eq_ok_iff.2 (Table.get?_put_of_new hnew (entry_eq_ok_iff.1 hq))
  exact bind_eq_ok_iff.2 ⟨m, hm, bind_eq_ok_iff.2 ⟨q, hplan, h⟩⟩

theorem memberWithPlan_putMember {m : Member} (hnew : s.members.get? m.id = none)
    {id : Identifier} {mp : Member × Plan} (h : s.memberWithPlan id = .ok mp) :
    memberWithPlan { s with members := s.members.put m.id m } id = .ok mp := by
  obtain ⟨u, hu, h⟩ := bind_eq_ok_iff.1 h
  have hmember : member { s with members := s.members.put m.id m } id = .ok u :=
    entry_eq_ok_iff.2 (Table.get?_put_of_new hnew (entry_eq_ok_iff.1 hu))
  exact bind_eq_ok_iff.2 ⟨u, hmember, h⟩

theorem WithinLimit.setStatus {status : ReservationStatus} {old : Reservation}
    (h : s.WithinLimit l now) (hold : s.reservations.get? id = some old)
    (hcounts : l.counts status → l.counts old.status) :
    WithinLimit { s with reservations := s.reservations.put id { old with status } } l now := by
  obtain ⟨before, after, hvalues, hput⟩ :=
    Table.values_put_of_get?_eq_some { old with status } hold
  refine h.of_heldAt_le (fun _ => rfl) (fun r hr => ?_) fun member => ?_
  · simp only [hput, List.mem_append, List.mem_cons] at hr
    rcases hr with hr | rfl | hr
    · exact h.known r (by simp [hvalues, hr])
    · exact h.known old (by simp [hvalues])
    · exact h.known r (by simp [hvalues, hr])
  · have hone : l.countsFor member now { old with status } → l.countsFor member now old := by
      intro hnew
      obtain ⟨hmember, hnew, hstop⟩ := SimultaneousLimit.countsFor_iff.1 hnew
      exact SimultaneousLimit.countsFor_iff.2 ⟨hmember, hcounts hnew, hstop⟩
    simp only [heldAt, hput, hvalues, List.countP_append, List.countP_cons]
    by_cases hnew : l.countsFor member now { old with status }
    · simp [hnew, hone hnew]
    · simp [hnew]

theorem WithinLimit.putReservation {r : Request} {fresh : Identifier} {facts : Snapshot}
    (h : s.WithinLimit l r.now) (hs : facts.IsOf s r) (hl : l.holds facts)
    (hnew : s.reservations.get? fresh = none) :
    (s.putReservation (r.reservation fresh)).WithinLimit l r.now := by
  have hput : (s.putReservation (r.reservation fresh)).reservations.values =
      s.reservations.values ++ [r.reservation fresh] :=
    Table.values_put_of_get?_eq_none (r.reservation fresh) hnew
  have hmember : s.memberWithPlan r.memberId = .ok (facts.member, facts.plan) :=
    bind_eq_ok_iff.2 ⟨_, hs.member, bind_eq_ok_iff.2 ⟨_, hs.plan, rfl⟩⟩
  refine ⟨fun v hv => ?_, fun id m p hmp => ?_⟩
  · rw [hput, List.mem_append, List.mem_singleton] at hv
    rcases hv with hv | rfl
    · exact h.known v hv
    · exact ⟨_, hmember⟩
  · rw [heldAt, hput, List.countP_append, ← heldAt]
    by_cases hid : r.memberId = id
    · subst hid
      cases hmp.symm.trans hmember
      obtain ⟨hplan, hcap⟩ := SimultaneousLimit.held_lt_of_holds hl
      rw [SimultaneousLimit.held_eq_heldAt hs] at hplan hcap
      have hone : [r.reservation fresh].countP (l.countsFor r.memberId r.now) ≤ 1 :=
        List.countP_le_length
      refine ⟨by omega, fun cap hmem => ?_⟩
      have hcap := hcap cap hmem
      omega
    · have hnone : [r.reservation fresh].countP (l.countsFor id r.now) = 0 := by
        simp [SimultaneousLimit.countsFor, Request.reservation, hid]
      rw [hnone]
      exact h.bound id m p hmp

end Store

/-- Commands that leave it to the rules how many reservations members hold: reservations come from
`reserve` alone and under new identifiers, no member and no plan takes the place of another, and no
reservation that a rule does not count comes to be counted. -/
def Command.LeavesLimitToRules (l : SimultaneousLimit) (s : Store) : Command → Prop
  | .reserve fresh _ => s.reservations.get? fresh = none
  | .addReservation _ => False
  | .insertPlan p => s.plans.get? p.id = none
  | .insertMember m => s.members.get? m.id = none
  | .setStatus id status =>
    ∀ r, s.reservations.get? id = some r → l.counts status → l.counts r.status
  | .insertResource _ | .check _ | .quote .. => True

def Command.asksAt? : Command → Option DateTime
  | .reserve _ r => some r.now
  | _ => none

def requestTimes (cs : List Command) : List DateTime := cs.filterMap (·.asksAt?)

theorem requestTimes_concat (cs : List Command) (c : Command) :
    requestTimes (cs ++ [c]) = requestTimes cs ++ c.asksAt?.toList := by
  rw [requestTimes, List.filterMap_append, requestTimes]
  cases hc : c.asksAt? <;> simp [hc]

namespace Engine
variable {e : Engine} {l : SimultaneousLimit}

theorem withinLimit_of_changes {s t : Store} {c : Command} {now : DateTime}
    (hmode : e.policy.mode = .all) (hl : .rule (.simultaneous l) ∈ e.policy.conditions)
    (h : e.Changes s c t) (hmay : c.LeavesLimitToRules l s) (hnow : ∀ i ∈ c.asksAt?, i = now)
    (hs : s.WithinLimit l now) : t.WithinLimit l now := by
  cases h with
  | same _ => exact hs
  | insertPlan p => exact hs.of_memberWithPlan rfl fun id mp => Store.memberWithPlan_insertPlan hmay
  | insertMember hp => exact hs.of_memberWithPlan rfl fun id mp => Store.memberWithPlan_putMember hmay
  | insertResource x => exact ⟨hs.known, hs.bound⟩
  | addReservation hm hx => exact hmay.elim
  | setStatus status hold => exact hs.setStatus hold (hmay _ hold)
  | reserve fresh hfacts hallows =>
    obtain rfl := hnow _ rfl
    exact hs.putReservation hfacts (EligibilityPolicy.holds_of_allows hmode hl hallows) hmay

/-- The induction takes the commands from the last one back: what a request has to leave room for is
what is held at its own instant, and that is not before those of the requests in front of it. -/
theorem withinLimit_run {st : State} (hmode : e.policy.mode = .all)
    (hl : .rule (.simultaneous l) ∈ e.policy.conditions)
    (hempty : st.store.reservations = .empty) {cs : List Command} {now : DateTime}
    (h : e.Follows (fun st c => c.LeavesLimitToRules l st.store) st cs)
    (htimes : (requestTimes cs).Pairwise (· ≤ ·)) (hnow : ∀ i ∈ requestTimes cs, i ≤ now) :
    (e.run st cs).store.WithinLimit l now := by
  induction cs using List.reverseRecOn generalizing now with
  | nil => exact .of_reservations_empty hempty
  | append_singleton cs c ih =>
    obtain ⟨hfollows, hmay, -⟩ := follows_append.1 h
    have hchanges := e.changes_perform (e.run st cs) c
    rw [requestTimes_concat] at htimes hnow
    obtain ⟨htimes, -, hbefore⟩ := List.pairwise_append.1 htimes
    have hnow_before : ∀ i ∈ requestTimes cs, i ≤ now := fun i hi =>
      hnow i (List.mem_append_left _ hi)
    rw [run_append, run_cons, run_nil]
    cases hc : c.asksAt? with
    | none =>
      have hkept := ih hfollows htimes hnow_before
      exact withinLimit_of_changes hmode hl hchanges hmay (by simp [hc]) hkept
    | some i =>
      rw [hc] at hbefore hnow
      have hlast : ∀ j ∈ requestTimes cs, j ≤ i := fun j hj =>
        hbefore j hj i (List.mem_singleton_self i)
      have hkept := ih hfollows htimes hlast
      have hasked := withinLimit_of_changes hmode hl hchanges hmay (by simp [hc]) hkept
      exact hasked.of_le (hnow i (List.mem_append_right _ (List.mem_singleton_self i)))

/-- A run that starts without reservations, asks for them in the order of time and leaves them to a
policy of all rules, one of them on their number, has no member at any point hold more than its plan
allows, nor more than the cap of the rule: at the instant of the latest request, and at every later
one, so many reservations are counted that have not ended. -/
theorem heldAt_le_limit {st : State} {done rest : List Command} (hmode : e.policy.mode = .all)
    (hl : .rule (.simultaneous l) ∈ e.policy.conditions)
    (hempty : st.store.reservations = .empty)
    (h : e.Follows (fun st c => c.LeavesLimitToRules l st.store) st (done ++ rest))
    (htimes : (requestTimes (done ++ rest)).Pairwise (· ≤ ·)) {now : DateTime}
    (hnow : ∀ i ∈ requestTimes done, i ≤ now) (id : Identifier) :
    (∀ m p, (e.run st done).store.memberWithPlan id = .ok (m, p) →
      (e.run st done).store.heldAt l id now ≤ p.maxReservations.toNat) ∧
    ∀ cap ∈ l.cap, (e.run st done).store.heldAt l id now ≤ cap.toNat := by
  rw [requestTimes, List.filterMap_append] at htimes
  obtain ⟨htimes, -, -⟩ := List.pairwise_append.1 htimes
  have hkept := withinLimit_run hmode hl hempty (follows_append.1 h).1 htimes hnow
  refine ⟨fun m p hmp => (hkept.bound id m p hmp).1, fun cap hcap => ?_⟩
  by_cases hknown : ∃ mp, (e.run st done).store.memberWithPlan id = .ok mp
  · obtain ⟨⟨m, p⟩, hmp⟩ := hknown
    exact (hkept.bound id m p hmp).2 cap hcap
  · rw [hkept.heldAt_eq_zero hknown]
    exact Nat.zero_le _

def twoAtMost : SimultaneousLimit := ⟨false, some 2⟩

def heldOnly : Engine where
  policy := ⟨"held", .all, .rule (.simultaneous twoAtMost), []⟩
  pricing := ⟨⟨"none", .sequential, none, none, none⟩, [.none]⟩

def callingOff : List Command := [
  .insertPlan ⟨default, "Gold", .ofList [.lounge], 3, 30, .zero, true⟩,
  .insertMember ⟨default, "Ada", .active, .standard, .singleDay default, default⟩,
  .insertResource tenSeats,
  .reserve (ticket 1) (party 1), .reserve (ticket 2) (party 1),
  .reserve (ticket 3) (party 1), .setStatus (ticket 1) .cancelled,
  .reserve (ticket 3) (party 1)]

theorem heldAt_callingOff :
    (heldOnly.run .initial callingOff).store.heldAt twoAtMost default firstHour.start = 2 ∧
      (heldOnly.run .initial callingOff).store.heldAt twoAtMost default firstHour.start ≤ 2 := by
  have hfollows : heldOnly.Follows (fun st c => c.LeavesLimitToRules twoAtMost st.store) .initial
      (callingOff ++ [.reserve (ticket 4) { party 1 with now := firstHour.stop }]) := by
    refine ⟨rfl, rfl, trivial, rfl, rfl, rfl, ?_, rfl, rfl, trivial⟩
    intro r _ hcounts
    cases hcounts
  have htimes : (requestTimes (callingOff ++
      [.reserve (ticket 4) { party 1 with now := firstHour.stop }])).Pairwise (· ≤ ·) := by
    decide
  have hnow : ∀ i ∈ requestTimes callingOff, i ≤ firstHour.start := by decide
  obtain ⟨-, hcap⟩ :=
    heldAt_le_limit rfl (List.mem_cons_self ..) rfl hfollows htimes hnow default
  exact ⟨by decide, hcap 2 rfl⟩

end Engine
end ClubBooking
