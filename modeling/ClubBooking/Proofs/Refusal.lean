import ClubBooking.Fault
import Mathlib.Data.List.Forall2

/-! What the answer of a computation that may be refused says of its steps. -/

namespace ClubBooking
variable {α β : Type}

theorem bind_eq_ok_iff {x : Except Fault α} {f : α → Except Fault β} {b : β} :
    x >>= f = .ok b ↔ ∃ a, x = .ok a ∧ f a = .ok b := by
  cases x with
  | error e => simp [bind, Except.bind]
  | ok a => simp [bind, Except.bind]

theorem map_eq_ok_iff {x : Except Fault α} {f : α → β} {b : β} :
    x.map f = .ok b ↔ ∃ a, x = .ok a ∧ f a = b := by
  cases x with
  | error e => simp [Except.map]
  | ok a => simp [Except.map]

theorem toOption_eq_some_iff {x : Except Fault α} {a : α} : x.toOption = some a ↔ x = .ok a := by
  cases x with
  | error e => simp [Except.toOption]
  | ok b => simp [Except.toOption]

theorem exists_bind_eq_ok {x : Except Fault α} {f : α → Except Fault β} {P : α → Prop}
    {Q : β → Prop} (hx : ∃ a, x = .ok a ∧ P a) (hf : ∀ a, P a → ∃ b, f a = .ok b ∧ Q b) :
    ∃ b, x >>= f = .ok b ∧ Q b := by
  obtain ⟨a, rfl, ha⟩ := hx
  exact hf a ha

theorem map_eq_map_iff {x y : Except Fault α} {g : α → β} :
    g <$> x = g <$> y ↔ (∃ f, x = .error f ∧ y = .error f) ∨
      ∃ a b, x = .ok a ∧ y = .ok b ∧ g a = g b := by
  cases x with
  | error e => cases y <;> simp [Functor.map, Except.map, eq_comm]
  | ok a => cases y <;> simp [Functor.map, Except.map]

theorem bind_eq_bind {γ δ : Type} {x : Except Fault α} {y : Except Fault β} {g : α → γ} {h : β → γ}
    {f : α → Except Fault δ} {k : β → Except Fault δ} (hxy : g <$> x = h <$> y)
    (hfk : ∀ a b, x = .ok a → y = .ok b → g a = h b → f a = k b) : x >>= f = y >>= k := by
  cases x with
  | error e =>
    cases y with
    | error e' =>
      cases hxy
      rfl
    | ok b => cases hxy
  | ok a =>
    cases y with
    | error e => cases hxy
    | ok b => exact hfk a b rfl rfl (Except.ok.inj hxy)

theorem forall_eq_ok_iff {all : List α → Except Fault Unit} (one : α → Except Fault Unit)
    (hnil : all [] = .ok ()) (hcons : ∀ a as, all (a :: as) = one a >>= fun _ => all as)
    {as : List α} : all as = .ok () ↔ ∀ a ∈ as, one a = .ok () := by
  induction as with
  | nil => simp [hnil]
  | cons a as ih =>
    rw [hcons, bind_eq_ok_iff, List.forall_mem_cons, ← ih]
    constructor
    · rintro ⟨⟨⟩, ha, has⟩
      exact ⟨ha, has⟩
    · rintro ⟨ha, has⟩
      exact ⟨(), ha, has⟩

theorem mapM_eq_ok_iff {f : α → Except Fault β} {as : List α} {bs : List β} :
    as.mapM f = .ok bs ↔ List.Forall₂ (fun a b => f a = .ok b) as bs := by
  induction as generalizing bs with
  | nil =>
    rw [List.mapM_nil, List.forall₂_nil_left_iff]
    simp [pure, Except.pure, eq_comm]
  | cons a as ih =>
    rw [List.mapM_cons, List.forall₂_cons_left_iff, bind_eq_ok_iff]
    constructor
    · rintro ⟨b, hb, h⟩
      obtain ⟨rest, hrest, h⟩ := bind_eq_ok_iff.1 h
      cases h
      exact ⟨b, rest, hb, ih.1 hrest, rfl⟩
    · rintro ⟨b, rest, hb, hrest, rfl⟩
      exact ⟨b, hb, bind_eq_ok_iff.2 ⟨rest, ih.2 hrest, rfl⟩⟩

theorem exists_of_mapM {f : α → Except Fault β} {as : List α} {bs : List β}
    (h : as.mapM f = .ok bs) {a : α} (ha : a ∈ as) : ∃ b, f a = .ok b := by
  have hall := mapM_eq_ok_iff.1 h
  clear h
  induction hall with
  | nil => cases ha
  | cons hab _ ih =>
    rcases List.mem_cons.1 ha with rfl | ha
    · exact ⟨_, hab⟩
    · exact ih ha

theorem exists_mapM {f : α → Except Fault β} {as : List α} (h : ∀ a ∈ as, ∃ b, f a = .ok b) :
    ∃ bs, as.mapM f = .ok bs := by
  induction as with
  | nil => exact ⟨[], rfl⟩
  | cons a as ih =>
    rw [List.forall_mem_cons] at h
    obtain ⟨⟨b, hb⟩, h⟩ := h
    obtain ⟨bs, hbs⟩ := ih h
    exact ⟨b :: bs, mapM_eq_ok_iff.2 (.cons hb (mapM_eq_ok_iff.1 hbs))⟩

theorem forall_mem_iff_of_mapM {f : α → Except Fault β} {as : List α} {bs : List β} {P : β → Prop}
    (h : as.mapM f = .ok bs) : (∀ b ∈ bs, P b) ↔ ∀ a ∈ as, ∀ b, f a = .ok b → P b := by
  have hall := mapM_eq_ok_iff.1 h
  clear h
  induction hall with
  | nil => simp
  | cons hab _ ih => simp only [List.forall_mem_cons, ih, hab, Except.ok.injEq, forall_eq']

end ClubBooking
