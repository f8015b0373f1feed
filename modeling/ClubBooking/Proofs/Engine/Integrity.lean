import ClubBooking.Proofs.Discount.Refusals
import ClubBooking.Proofs.Engine.Step

/-! The store of an engine hangs together: every entry stands under its own identifier and under no
other, the plan of a member is there, and so are member and resource of a reservation. Every command
keeps this, refused ones included, whichever entries it replaces. -/

namespace ClubBooking

namespace Table
variable {α : Type} {t : Table α} {key : α → Identifier} {k : Identifier} {v : α}

/-- Every value stands under its own key, and no key has two rows. -/
structure KeyedBy (t : Table α) (key : α → Identifier) : Prop where
  own : ∀ row ∈ t.rows, key row.2 = row.1
  nodup : (t.rows.map (·.1)).Nodup

theorem mem_putRow {row : Identifier × α} {rs : List (Identifier × α)} (h : row ∈ putRow k v rs) :
    row = (k, v) ∨ row ∈ rs := by
  induction rs with
  | nil => exact .inl (List.mem_singleton.1 h)
  | cons r rs ih =>
    unfold putRow at h
    split at h
    · exact (List.mem_cons.1 h).imp_right (List.mem_cons_of_mem r)
    · rcases List.mem_cons.1 h with rfl | h
      · exact .inr (List.mem_cons_self ..)
      · exact (ih h).imp_right (List.mem_cons_of_mem r)

theorem nodup_putRow {rs : List (Identifier × α)} (h : (rs.map (·.1)).Nodup) :
    ((putRow k v rs).map (·.1)).Nodup := by
  induction rs with
  | nil => simp [putRow]
  | cons r rs ih =>
    rw [List.map_cons, List.nodup_cons] at h
    unfold putRow
    split
    · next hr =>
      rw [List.map_cons, List.nodup_cons]
      exact ⟨hr ▸ h.1, h.2⟩
    · next hr =>
      rw [List.map_cons, List.nodup_cons]
      refine ⟨fun hmem => ?_, ih h.2⟩
      obtain ⟨row, hrow, heq⟩ := List.mem_map.1 hmem
      rcases mem_putRow hrow with rfl | hrow
      · exact hr heq.symm
      · exact h.1 (List.mem_map.2 ⟨row, hrow, heq⟩)

theorem KeyedBy.empty (key : α → Identifier) : (empty : Table α).KeyedBy key :=
  ⟨by simp [Table.empty], by simp [Table.empty]⟩

theorem KeyedBy.put (h : t.KeyedBy key) (hv : key v = k) : (t.put k v).KeyedBy key where
  own row hrow := by
    rcases mem_putRow hrow with rfl | hrow
    · exact hv
    · exact h.own row hrow
  nodup := nodup_putRow h.nodup

theorem mem_values_of_get? (h : t.get? k = some v) : v ∈ t.values := by
  obtain ⟨row, hrow, rfl⟩ := Option.map_eq_some_iff.1 h
  exact List.mem_map_of_mem (List.mem_of_find?_eq_some hrow)

theorem mem_values_put {u : α} (h : u ∈ (t.put k v).values) : u = v ∨ u ∈ t.values := by
  obtain ⟨row, hrow, rfl⟩ := List.mem_map.1 h
  rcases mem_putRow hrow with rfl | hrow
  · exact .inl rfl
  · exact .inr (List.mem_map_of_mem hrow)

theorem KeyedBy.filter_values (h : t.KeyedBy key) (k : Identifier) :
    t.values.filter (key · = k) = (t.get? k).toList := by
  obtain ⟨rows⟩ := t
  obtain ⟨hown, hnodup⟩ := h
  simp only [values, get?]
  induction rows with
  | nil => rfl
  | cons r rs ih =>
    rw [List.forall_mem_cons] at hown
    rw [List.map_cons, List.nodup_cons] at hnodup
    by_cases hr : r.1 = k
    · have hrest : (rs.map (·.2)).filter (key · = k) = [] := by
        rw [List.filter_eq_nil_iff, List.forall_mem_map]
        intro row hrow
        rw [decide_eq_true_eq, hown.2 row hrow]
        rintro rfl
        exact hnodup.1 (List.mem_map.2 ⟨row, hrow, hr.symm⟩)
      rw [List.map_cons, List.filter_cons_of_pos (by simpa [hown.1] using hr), hrest]
      simp [hr]
    · rw [List.map_cons, List.filter_cons_of_neg (by simpa [hown.1] using hr),
        ih hown.2 hnodup.2]
      simp [hr]

theorem KeyedBy.key_of_get? (h : t.KeyedBy key) (hv : t.get? k = some v) : key v = k := by
  have hmem : v ∈ t.values.filter (key · = k) := by
    rw [h.filter_values, hv]
    exact List.mem_singleton_self v
  simpa using (List.mem_filter.1 hmem).2

theorem exists_get?_put (j : Identifier) (h : ∃ u, t.get? j = some u) :
    ∃ u, (t.put k v).get? j = some u := by
  rw [get?_put]
  split
  · exact ⟨v, rfl⟩
  · exact h

end Table

/-- Every entry of a store stands under its own identifier, and what it refers to is there. -/
structure Store.Sound (s : Store) : Prop where
  plans : s.plans.KeyedBy Plan.id
  members : s.members.KeyedBy Member.id
  resources : s.resources.KeyedBy Resource.id
  reservations : s.reservations.KeyedBy Reservation.id
  planKnown : ∀ m ∈ s.members.values, ∃ p, s.plans.get? m.planId = some p
  memberKnown : ∀ r ∈ s.reservations.values, ∃ m, s.members.get? r.memberId = some m
  resourceKnown : ∀ r ∈ s.reservations.values, ∃ x, s.resources.get? r.resourceId = some x

namespace Store.Sound
variable {s : Store}

theorem empty : Store.empty.Sound where
  plans := .empty _
  members := .empty _
  resources := .empty _
  reservations := .empty _
  planKnown := by simp [Store.empty, Table.empty, Table.values]
  memberKnown := by simp [Store.empty, Table.empty, Table.values]
  resourceKnown := by simp [Store.empty, Table.empty, Table.values]

theorem insertPlan (h : s.Sound) (p : Plan) : (s.insertPlan p).Sound :=
  { h with
    plans := h.plans.put rfl
    planKnown := fun m hm => Table.exists_get?_put m.planId (h.planKnown m hm) }

theorem putMember (h : s.Sound) {m : Member} {p : Plan} (hp : s.plan m.planId = .ok p) :
    Sound { s with members := s.members.put m.id m } :=
  { h with
    members := h.members.put rfl
    planKnown := fun u hu => by
      rcases Table.mem_values_put hu with rfl | hu
      · exact ⟨p, Store.entry_eq_ok_iff.1 hp⟩
      · exact h.planKnown u hu
    memberKnown := fun r hr => Table.exists_get?_put r.memberId (h.memberKnown r hr) }

theorem insertResource (h : s.Sound) (x : Resource) : (s.insertResource x).Sound :=
  { h with
    resources := h.resources.put rfl
    resourceKnown := fun r hr => Table.exists_get?_put r.resourceId (h.resourceKnown r hr) }

theorem putReservation (h : s.Sound) {r : Reservation} {m : Member} {x : Resource}
    (hm : s.member r.memberId = .ok m) (hx : s.resource r.resourceId = .ok x) :
    (s.putReservation r).Sound :=
  { h with
    reservations := h.reservations.put rfl
    memberKnown := fun u hu => by
      rcases Table.mem_values_put hu with rfl | hu
      · exact ⟨m, Store.entry_eq_ok_iff.1 hm⟩
      · exact h.memberKnown u hu
    resourceKnown := fun u hu => by
      rcases Table.mem_values_put hu with rfl | hu
      · exact ⟨x, Store.entry_eq_ok_iff.1 hx⟩
      · exact h.resourceKnown u hu }

theorem setStatus (h : s.Sound) {id : Identifier} {old : Reservation} (status : ReservationStatus)
    (hold : s.reservations.get? id = some old) :
    Sound { s with reservations := s.reservations.put id { old with status } } := by
  obtain rfl : old.id = id := h.reservations.key_of_get? hold
  have hmem := Table.mem_values_of_get? hold
  obtain ⟨m, hm⟩ := h.memberKnown old hmem
  obtain ⟨x, hx⟩ := h.resourceKnown old hmem
  exact h.putReservation (r := { old with status }) (Store.entry_eq_ok_iff.2 hm)
    (Store.entry_eq_ok_iff.2 hx)

theorem of_changes {e : Engine} {c : Command} {t : Store} (hs : s.Sound) (h : e.Changes s c t) :
    t.Sound := by
  cases h with
  | same _ => exact hs
  | insertPlan p => exact hs.insertPlan p
  | insertMember hp => exact hs.putMember hp
  | insertResource x => exact hs.insertResource x
  | addReservation hm hx => exact hs.putReservation hm hx
  | setStatus status hold => exact hs.setStatus status hold
  | reserve fresh hfacts _ => exact hs.putReservation hfacts.member hfacts.resource

theorem exists_plan (h : s.Sound) {id : Identifier} {m : Member}
    (hm : s.members.get? id = some m) :
    ∃ p, s.plans.get? m.planId = some p ∧ m.planId = p.id ∧ s.memberWithPlan id = .ok (m, p) := by
  obtain ⟨p, hp⟩ := h.planKnown m (Table.mem_values_of_get? hm)
  refine ⟨p, hp, (h.plans.key_of_get? hp).symm, ?_⟩
  refine bind_eq_ok_iff.2 ⟨m, Store.entry_eq_ok_iff.2 hm, ?_⟩
  exact bind_eq_ok_iff.2 ⟨p, Store.entry_eq_ok_iff.2 hp, rfl⟩

end Store.Sound

inductive Request.Fails (r : Request) (s : Store) : Fault → Prop where
  | noMember (h : s.members.get? r.memberId = none) : r.Fails s (.notFound .member r.memberId)
  | noResource {m : Member} (hm : s.members.get? r.memberId = some m)
      (h : s.resources.get? r.resourceId = none) : r.Fails s (.notFound .resource r.resourceId)
  | noParty {m : Member} {x : Resource} (hm : s.members.get? r.memberId = some m)
      (hx : s.resources.get? r.resourceId = some x) (h : r.partySize = 0) :
      r.Fails s (.invalid .emptyParty)

inductive Fault.BlamesPlan : Fault → Prop where
  | missing (plan : Identifier) : BlamesPlan (.notFound .plan plan)
  | notEnrolled (member plan : Identifier) : BlamesPlan (.invalid (.notEnrolled member plan))

theorem Request.Fails.not_blamesPlan {r : Request} {s : Store} {f : Fault} (h : r.Fails s f) :
    ¬ f.BlamesPlan := by
  rintro (_ | _) <;> cases h

theorem Fault.IsMonetary.not_blamesPlan {f : Fault} (h : f.IsMonetary) : ¬ f.BlamesPlan := by
  rintro (_ | _) <;> cases h

structure Purchase.IsOf (p : Purchase) (s : Store) (id : Identifier) (date : Date)
    (code : Option String) : Prop where
  member : s.members.get? id = some p.member
  plan : s.plans.get? p.member.planId = some p.plan
  date : p.date = date
  coupon : p.coupon = (code.map Text.trim).filter (· ≠ "")

theorem Purchase.IsOf.unique {p q : Purchase} {s : Store} {id : Identifier} {date : Date}
    {code : Option String} (hp : p.IsOf s id date code) (hq : q.IsOf s id date code) : p = q := by
  obtain ⟨m, plan, d, coupon, _⟩ := p
  obtain ⟨m', plan', d', coupon', _⟩ := q
  obtain ⟨hm, hplan, rfl, rfl⟩ := hp
  obtain ⟨hm', hplan', rfl, rfl⟩ := hq
  obtain rfl : m = m' := Option.some.inj (hm.symm.trans hm')
  obtain rfl : plan = plan' := Option.some.inj (hplan.symm.trans hplan')
  rfl

theorem Store.memberWithPlan_of_unknown {s : Store} {id : Identifier}
    (h : s.members.get? id = none) : s.memberWithPlan id = .error (.notFound .member id) := by
  have hm : s.member id = .error (.notFound .member id) := entry_eq_error_iff.2 ⟨h, rfl⟩
  simp only [memberWithPlan, hm, bind, Except.bind]

namespace Engine
variable {s : Store} {r : Request} {f : Fault}

theorem snapshot_of_fails (hs : s.Sound) (h : r.Fails s f) : snapshot s r = .error f := by
  cases h with
  | noMember h => simp only [snapshot, Store.memberWithPlan_of_unknown h, bind, Except.bind]
  | noResource hm h =>
    obtain ⟨p, -, -, hmp⟩ := hs.exists_plan hm
    have hr : s.resource r.resourceId = .error (.notFound .resource r.resourceId) :=
      Store.entry_eq_error_iff.2 ⟨h, rfl⟩
    simp only [snapshot, hmp, hr, bind, Except.bind]
  | noParty hm hx h =>
    obtain ⟨p, -, henrolled, hmp⟩ := hs.exists_plan hm
    have hr : s.resource r.resourceId = .ok _ := Store.entry_eq_ok_iff.2 hx
    simp only [snapshot, hmp, hr, bind, Except.bind, Snapshot.make]
    rw [dif_pos henrolled, dif_neg (not_not_intro h)]

theorem exists_snapshot_or_fails (hs : s.Sound) (r : Request) :
    (∃ facts, snapshot s r = .ok facts) ∨ ∃ f, r.Fails s f := by
  -- the plan needs no case of its own, a member that is stored has it
  cases hm : s.members.get? r.memberId with
  | none => exact .inr ⟨_, .noMember hm⟩
  | some m =>
    cases hx : s.resources.get? r.resourceId with
    | none => exact .inr ⟨_, .noResource hm hx⟩
    | some x =>
      by_cases hparty : r.partySize = 0
      · exact .inr ⟨_, .noParty hm hx hparty⟩
      obtain ⟨p, -, henrolled, hmp⟩ := hs.exists_plan hm
      have hr : s.resource r.resourceId = .ok x := Store.entry_eq_ok_iff.2 hx
      simp only [snapshot, hmp, hr, bind, Except.bind, Snapshot.make]
      rw [dif_pos henrolled, dif_pos hparty]
      exact .inl ⟨_, rfl⟩

theorem snapshot_eq_error_iff (hs : s.Sound) : snapshot s r = .error f ↔ r.Fails s f := by
  refine ⟨fun h => ?_, snapshot_of_fails hs⟩
  rcases exists_snapshot_or_fails hs r with ⟨facts, hfacts⟩ | ⟨g, hg⟩
  · cases h.symm.trans hfacts
  · cases h.symm.trans (snapshot_of_fails hs hg)
    exact hg

theorem quote_cases (e : Engine) {st : State} (hs : st.store.Sound) (id : Identifier)
    (price : Money) (date : Date) (code : Option String) :
    (st.store.members.get? id = none ∧
      (e.quote st id price date code).1 = .error (.notFound .member id)) ∨
    ∃ p : Purchase, p.IsOf st.store id date code ∧
      (e.quote st id price date code).1 = e.pricing.evaluate p price := by
  cases hm : st.store.members.get? id with
  | none =>
    refine .inl ⟨rfl, ?_⟩
    simp only [quote, Store.memberWithPlan_of_unknown hm, bind, Except.bind]
  | some m =>
    obtain ⟨plan, hplan, henrolled, hmp⟩ := hs.exists_plan hm
    let bare : Purchase := ⟨m, plan, date, none, henrolled⟩
    have hmake : Purchase.make m plan date = .ok bare := dif_pos henrolled
    simp only [quote, hmp, hmake, bind, Except.bind]
    cases code with
    | none => exact .inr ⟨bare, ⟨hm, hplan, rfl, rfl⟩, rfl⟩
    | some code =>
      refine .inr ⟨bare.withCoupon code, ⟨hm, hplan, rfl, ?_⟩, rfl⟩
      by_cases hblank : Text.trim code = "" <;>
        simp [Purchase.withCoupon, Option.filter, hblank]

theorem quote_eq_error_iff (e : Engine) {st : State} (hs : st.store.Sound) {id : Identifier}
    {price : Money} {date : Date} {code : Option String} :
    (e.quote st id price date code).1 = .error f ↔
      (st.store.members.get? id = none ∧ f = .notFound .member id) ∨
      ∃ p : Purchase, p.IsOf st.store id date code ∧ e.pricing.evaluate p price = .error f := by
  rcases e.quote_cases hs id price date code with ⟨hnone, hquote⟩ | ⟨p, hp, hquote⟩
  · rw [hquote, Except.error.injEq, eq_comm]
    refine ⟨fun hf => .inl ⟨hnone, hf⟩, ?_⟩
    rintro (⟨-, hf⟩ | ⟨q, hq, -⟩)
    · exact hf
    · cases hnone.symm.trans hq.member
  · rw [hquote]
    refine ⟨fun hf => .inr ⟨p, hp, hf⟩, ?_⟩
    rintro (⟨hnone, -⟩ | ⟨q, hq, hf⟩)
    · cases hnone.symm.trans hp.member
    · rw [hp.unique hq]
      exact hf

def reached (e : Engine) (cs : List Command) : State := e.run .initial cs

theorem sound_run (e : Engine) {st : State} (h : st.store.Sound) (cs : List Command) :
    (e.run st cs).store.Sound := by
  induction cs generalizing st with
  | nil => exact h
  | cons c cs ih => exact ih (h.of_changes (e.changes_perform st c))

theorem sound_reached (e : Engine) (cs : List Command) : (e.reached cs).store.Sound :=
  e.sound_run .empty cs

/-- Whatever commands are given, refused ones included, the store hangs together. So a request is
refused a snapshot just if its member is unknown, or else its resource, or else it is for nobody; a
quote is refused just if the member is unknown or pricing refuses the purchase. A plan that is
missing or is not the member's own is never the cause of either. -/
theorem error_iff_of_reached (e : Engine) (cs : List Command) :
    (e.reached cs).store.Sound ∧
    (∀ r f, snapshot (e.reached cs).store r = .error f ↔ r.Fails (e.reached cs).store f) ∧
    (∀ id price date code f, (e.quote (e.reached cs) id price date code).1 = .error f ↔
      ((e.reached cs).store.members.get? id = none ∧ f = .notFound .member id) ∨
      ∃ p : Purchase, p.IsOf (e.reached cs).store id date code ∧
        e.pricing.evaluate p price = .error f) ∧
    ∀ f : Fault, f.BlamesPlan →
      (∀ r, snapshot (e.reached cs).store r ≠ .error f) ∧
      ∀ id price date code, (e.quote (e.reached cs) id price date code).1 ≠ .error f := by
  have hs := e.sound_reached cs
  refine ⟨hs, fun r f => snapshot_eq_error_iff hs,
    fun id price date code f => e.quote_eq_error_iff hs, fun f hf => ⟨?_, ?_⟩⟩
  · intro r h
    exact ((snapshot_eq_error_iff hs).1 h).not_blamesPlan hf
  · intro id price date code h
    rcases (e.quote_eq_error_iff hs).1 h with ⟨-, rfl⟩ | ⟨p, -, h⟩
    · cases hf
    · exact (e.pricing.reckons_evaluate p price f h).not_blamesPlan hf

end Engine
end ClubBooking
