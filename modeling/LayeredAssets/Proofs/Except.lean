import Mathlib.Data.List.Forall2

namespace LayeredAssets.Except

variable {ε α β : Type}

theorem bind_eq_ok_iff {x : Except ε α} {f : α → Except ε β} {b : β} :
    x.bind f = .ok b ↔ ∃ a, x = .ok a ∧ f a = .ok b := by
  cases x with
  | error e => simp [Except.bind]
  | ok a => simp [Except.bind]

theorem map_eq_ok_iff {x : Except ε α} {f : α → β} {b : β} :
    x.map f = .ok b ↔ ∃ a, x = .ok a ∧ f a = b := by
  cases x with
  | error e => simp [Except.map]
  | ok a => simp [Except.map]

theorem map_eq_error_iff {x : Except ε α} {f : α → β} {e : ε} :
    x.map f = .error e ↔ x = .error e := by
  cases x with
  | error e => simp [Except.map]
  | ok a => simp [Except.map]

theorem mapError_eq_ok_iff {ε' : Type} {x : Except ε α} {f : ε → ε'} {a : α} :
    x.mapError f = .ok a ↔ x = .ok a := by
  cases x with
  | error e => simp [Except.mapError]
  | ok a => simp [Except.mapError]

theorem toOption_eq_some_iff {x : Except ε α} {a : α} : x.toOption = some a ↔ x = .ok a := by
  cases x with
  | error e => simp [Except.toOption]
  | ok a => simp [Except.toOption]

theorem exists_error_iff {x : Except ε α} : (∃ e, x = .error e) ↔ ¬ ∃ a, x = .ok a := by
  cases x with
  | error e => simp
  | ok a => simp

/-- All go well, one after the other. -/
theorem mapM_eq_ok_iff {f : α → Except ε β} {as : List α} {bs : List β} :
    as.mapM f = .ok bs ↔ List.Forall₂ (fun a b => f a = .ok b) as bs := by
  induction as generalizing bs with
  | nil =>
    rw [List.mapM_nil, List.forall₂_nil_left_iff]
    exact ⟨fun h => (Except.ok.inj h).symm, fun h => h ▸ rfl⟩
  | cons a as ih =>
    rw [List.mapM_cons]
    constructor
    · intro h
      obtain ⟨b, hb, h⟩ := bind_eq_ok_iff.mp h
      obtain ⟨bs', hbs, h⟩ := bind_eq_ok_iff.mp h
      cases h
      exact .cons hb (ih.mp hbs)
    · intro h
      cases h with
      | cons hb hbs =>
        rw [hb, ih.mpr hbs]
        rfl

/-- Each result comes from one of the list, and each of the list has its result. -/
theorem mapM_of_forall {f : α → Except ε β} {P : α → β → Prop} {as : List α}
    (h : ∀ a ∈ as, ∃ b, f a = .ok b ∧ P a b) :
    ∃ bs, as.mapM f = .ok bs ∧ (∀ b ∈ bs, ∃ a ∈ as, P a b) ∧ ∀ a ∈ as, ∃ b ∈ bs, P a b := by
  induction as with
  | nil => exact ⟨[], rfl, by simp, by simp⟩
  | cons a as ih =>
    obtain ⟨b, hb, hp⟩ := h a List.mem_cons_self
    obtain ⟨bs, hbs, hfrom, hto⟩ := ih fun a ha => h a (List.mem_cons_of_mem _ ha)
    refine ⟨b :: bs, mapM_eq_ok_iff.mpr (.cons hb (mapM_eq_ok_iff.mp hbs)), ?_, ?_⟩
    · rintro c (_ | ⟨_, hc⟩)
      · exact ⟨a, List.mem_cons_self, hp⟩
      · obtain ⟨d, hd, hpd⟩ := hfrom c hc
        exact ⟨d, List.mem_cons_of_mem _ hd, hpd⟩
    · rintro c (_ | ⟨_, hc⟩)
      · exact ⟨b, List.mem_cons_self, hp⟩
      · obtain ⟨d, hd, hpd⟩ := hto c hc
        exact ⟨d, List.mem_cons_of_mem _ hd, hpd⟩

theorem mapM_eq_error {f : α → Except ε β} {as : List α} {e : ε} (h : as.mapM f = .error e) :
    ∃ a ∈ as, f a = .error e := by
  induction as with
  | nil => cases h
  | cons a as ih =>
    rw [List.mapM_cons] at h
    cases ha : f a with
    | error e' =>
      rw [ha] at h
      cases h
      exact ⟨a, List.mem_cons_self, ha⟩
    | ok b =>
      cases has : as.mapM f with
      | error e' =>
        rw [ha, has] at h
        cases h
        obtain ⟨a', hm, he⟩ := ih has
        exact ⟨a', List.mem_cons_of_mem _ hm, he⟩
      | ok bs =>
        rw [ha, has] at h
        cases h

/-- What goes well is the same, and whatever goes wrong goes wrong in one way. -/
theorem eq_of_ok_iff {x y : Except ε α} {e : ε} (h : ∀ a, x = .ok a ↔ y = .ok a)
    (hx : ∀ e', x = .error e' → e' = e) (hy : ∀ e', y = .error e' → e' = e) : x = y := by
  cases hxa : x with
  | ok a => exact ((h a).mp hxa).symm
  | error e' =>
    cases hya : y with
    | ok a =>
      rw [(h a).mpr hya] at hxa
      cases hxa
    | error e'' => rw [hx e' hxa, hy e'' hya]

/-- Both go well or both go wrong, with results that belong together. -/
inductive Rel {ε' β : Type} (E : ε → ε' → Prop) (V : α → β → Prop) :
    Except ε α → Except ε' β → Prop
  | error {e e'} (h : E e e') : Rel E V (.error e) (.error e')
  | ok {a b} (h : V a b) : Rel E V (.ok a) (.ok b)

section
variable {ε' γ δ : Type} {E : ε → ε' → Prop} {V : α → β → Prop} {W : γ → δ → Prop}
  {x : Except ε α} {y : Except ε' β}

theorem Rel.bind {f : α → Except ε γ} {g : β → Except ε' δ} (h : Rel E V x y)
    (hf : ∀ {a b}, V a b → Rel E W (f a) (g b)) : Rel E W (x >>= f) (y >>= g) := by
  cases h with
  | error h => exact .error h
  | ok h => exact hf h

theorem Rel.map {f : α → γ} {g : β → δ} (h : Rel E V x y) (hf : ∀ {a b}, V a b → W (f a) (g b)) :
    Rel E W (x.map f) (y.map g) := by
  cases h with
  | error h => exact .error h
  | ok h => exact .ok (hf h)

theorem Rel.of_eq {F : ε → ε → Prop} {x' : Except ε α} (h : x = x') (refl : ∀ e, F e e) :
    Rel F Eq x x' := by
  subst h
  cases x with
  | error e => exact .error (refl e)
  | ok a => exact .ok rfl

end

end LayeredAssets.Except
