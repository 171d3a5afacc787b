import LayeredAssets.Proofs.Dependencies.Preorder
import LayeredAssets.Proofs.Table
import Mathlib.Data.List.Nodup

namespace LayeredAssets.Dependencies

/-- What the root needs, directly or not. -/
inductive Reachable (root : Definition) (all : List Definition) : String → Prop where
  | root : Reachable root all root.dataSet
  | required {name required : String} {owner : Definition} (reached : Reachable root all name)
      (owned : owner? root all name = some owner) (needed : required ∈ owner.required) :
      Reachable root all required

theorem holds_iff {found : List Priority} {name : String} :
    holds found name = true ↔ name ∈ found.map Priority.name := by
  simp [holds]

/-- The walk between two names. A name that an entry requires is found, missing or still waiting;
the last clause is what makes skipped names harmless. -/
structure Explored (root : Definition) (all : List Definition) (found : List Priority)
    (missing waiting : List String) : Prop where
  distinct : (found.map Priority.name).Nodup
  owned : ∀ p ∈ found, owner? root all p.name = some p.source
  unowned : ∀ name ∈ missing, owner? root all name = none
  found_reachable : ∀ p ∈ found, Reachable root all p.name
  missing_reachable : ∀ name ∈ missing, Reachable root all name
  waiting_reachable : ∀ name ∈ waiting, Reachable root all name
  rooted : holds found root.dataSet = true ∨ root.dataSet ∈ waiting
  closed : ∀ p ∈ found, ∀ name ∈ p.source.required,
    holds found name = true ∨ name ∈ missing ∨ name ∈ waiting

namespace Explored

variable {root : Definition} {all : List Definition} {found : List Priority}
  {missing waiting : List String} {name : String}

theorem start (root : Definition) (all : List Definition) :
    Explored root all [] [] [root.dataSet] where
  distinct := List.nodup_nil
  owned := by simp
  unowned := by simp
  found_reachable := by simp
  missing_reachable := by simp
  waiting_reachable := by
    intro name hn
    obtain rfl := List.mem_singleton.mp hn
    exact .root
  rooted := Or.inr (List.mem_singleton.mpr rfl)
  closed := by simp

theorem known (h : Explored root all found missing (name :: waiting))
    (hf : holds found name = true) : Explored root all found missing waiting where
  distinct := h.distinct
  owned := h.owned
  unowned := h.unowned
  found_reachable := h.found_reachable
  missing_reachable := h.missing_reachable
  waiting_reachable := fun n hn => h.waiting_reachable n (List.mem_cons_of_mem _ hn)
  rooted := by
    rcases h.rooted with hr | hr
    · exact Or.inl hr
    · rcases List.mem_cons.mp hr with he | hr
      · exact Or.inl (he ▸ hf)
      · exact Or.inr hr
  closed := by
    intro p hp n hn
    rcases h.closed p hp n hn with hc | hc | hc
    · exact Or.inl hc
    · exact Or.inr (Or.inl hc)
    · rcases List.mem_cons.mp hc with rfl | hc
      · exact Or.inl hf
      · exact Or.inr (Or.inr hc)

theorem miss (h : Explored root all found missing (name :: waiting))
    (ho : owner? root all name = none) :
    Explored root all found (name :: missing) waiting where
  distinct := h.distinct
  owned := h.owned
  unowned := List.forall_mem_cons.mpr ⟨ho, h.unowned⟩
  found_reachable := h.found_reachable
  missing_reachable :=
    List.forall_mem_cons.mpr ⟨h.waiting_reachable name List.mem_cons_self, h.missing_reachable⟩
  waiting_reachable := fun n hn => h.waiting_reachable n (List.mem_cons_of_mem _ hn)
  rooted := by
    rcases h.rooted with hr | hr
    · exact Or.inl hr
    · rcases List.mem_cons.mp hr with he | hr
      · rw [← he, owner?_root] at ho
        cases ho
      · exact Or.inr hr
  closed := by
    intro p hp n hn
    rcases h.closed p hp n hn with hc | hc | hc
    · exact Or.inl hc
    · exact Or.inr (Or.inl (List.mem_cons_of_mem _ hc))
    · rcases List.mem_cons.mp hc with rfl | hc
      · exact Or.inr (Or.inl List.mem_cons_self)
      · exact Or.inr (Or.inr hc)

/-- Leaving out what is found already does not open the walk, since `found'` only grows. -/
theorem visit {owner : Definition} (h : Explored root all found missing (name :: waiting))
    (hf : ¬ holds found name = true) (ho : owner? root all name = some owner) :
    Explored root all (⟨name, none, owner⟩ :: found) missing
      (owner.required.filter (fun n => !holds (⟨name, none, owner⟩ :: found) n) ++ waiting) where
  distinct := by
    rw [List.map_cons]
    exact List.nodup_cons.mpr ⟨fun hm => hf (holds_iff.mpr hm), h.distinct⟩
  owned := List.forall_mem_cons.mpr ⟨ho, h.owned⟩
  unowned := h.unowned
  found_reachable :=
    List.forall_mem_cons.mpr ⟨h.waiting_reachable name List.mem_cons_self, h.found_reachable⟩
  missing_reachable := h.missing_reachable
  waiting_reachable := by
    intro n hn
    rcases List.mem_append.mp hn with hn | hn
    · exact .required (h.waiting_reachable name List.mem_cons_self) ho (List.mem_filter.mp hn).1
    · exact h.waiting_reachable n (List.mem_cons_of_mem _ hn)
  rooted := by
    rcases h.rooted with hr | hr
    · exact Or.inl (holds_cons_of_holds _ hr)
    · rcases List.mem_cons.mp hr with he | hr
      · exact Or.inl (he ▸ holds_cons_self ..)
      · exact Or.inr (List.mem_append_right _ hr)
  closed := by
    intro p hp n hn
    by_cases hk : holds (⟨name, none, owner⟩ :: found) n = true
    · exact Or.inl hk
    · refine Or.inr ?_
      rcases List.mem_cons.mp hp with rfl | hp
      · exact Or.inr (List.mem_append_left _ (List.mem_filter.mpr ⟨hn, by simpa using hk⟩))
      · rcases h.closed p hp n hn with hc | hc | hc
        · exact absurd (holds_cons_of_holds _ hc) hk
        · exact Or.inl hc
        · rcases List.mem_cons.mp hc with rfl | hc
          · exact absurd (holds_cons_self ..) hk
          · exact Or.inr (List.mem_append_right _ hc)

/-- With nothing waiting, what is reachable has been found or is missing. -/
theorem complete (h : Explored root all found missing []) (hr : Reachable root all name) :
    name ∈ found.map Priority.name ∨ name ∈ missing := by
  induction hr with
  | root => exact Or.inl (holds_iff.mp (h.rooted.resolve_right List.not_mem_nil))
  | @required name required owner _ ho hn ih =>
    rcases ih with hf | hm
    · obtain ⟨p, hp, rfl⟩ := List.mem_map.mp hf
      have he := Option.some.inj ((h.owned p hp).symm.trans ho)
      rcases h.closed p hp required (he ▸ hn) with hc | hc | hc
      · exact Or.inl (holds_iff.mp hc)
      · exact Or.inr hc
      · cases hc
    · rw [h.unowned name hm] at ho
      cases ho

theorem mem_found_iff (h : Explored root all found missing []) :
    name ∈ found.map Priority.name ↔
      Reachable root all name ∧ (owner? root all name).isSome = true := by
  constructor
  · intro hn
    obtain ⟨p, hp, rfl⟩ := List.mem_map.mp hn
    exact ⟨h.found_reachable p hp, by rw [h.owned p hp]; rfl⟩
  · intro hn
    obtain ⟨hr, ho⟩ := hn
    refine (h.complete hr).resolve_right fun hm => ?_
    rw [h.unowned name hm] at ho
    cases ho

theorem mem_missing_iff (h : Explored root all found missing []) :
    name ∈ missing ↔ Reachable root all name ∧ owner? root all name = none := by
  constructor
  · exact fun hm => ⟨h.missing_reachable name hm, h.unowned name hm⟩
  · intro hn
    obtain ⟨hr, ho⟩ := hn
    refine (h.complete hr).resolve_left fun hf => ?_
    obtain ⟨p, hp, rfl⟩ := List.mem_map.mp hf
    rw [h.owned p hp] at ho
    cases ho

end Explored

/-- Each step of the walk keeps the account, so its end has one with nothing waiting. -/
theorem walk_explored {root : Definition} {all : List Definition} {found : List Priority}
    {missing waiting : List String} (h : Explored root all found missing waiting) :
    ∃ found', (walk root all found missing waiting).1 = found'.reverse ∧
      Explored root all found' (walk root all found missing waiting).2 [] := by
  induction found, missing, waiting using walk.induct root all with
  | case1 found missing =>
    rw [walk]
    exact ⟨found, rfl, h⟩
  | case2 found missing name waiting hf ih =>
    rw [walk, dif_pos hf]
    exact ih (h.known hf)
  | case3 found missing name waiting hf ho ih =>
    rw [walk_unowned hf ho]
    exact ih (h.miss ho)
  | case4 found missing name waiting hf owner ho hlt found' required ih =>
    rw [walk_owned hf ho]
    exact ih (h.visit hf ho)

/-- Where an entry lies is not known to the walk. -/
theorem walk_unplaced {root : Definition} {all : List Definition} {found : List Priority}
    {missing waiting : List String} (h : ∀ p ∈ found, p.path = none) :
    ∀ p ∈ (walk root all found missing waiting).1, p.path = none := by
  induction found, missing, waiting using walk.induct root all with
  | case1 found missing =>
    rw [walk]
    exact fun p hp => h p (List.mem_reverse.mp hp)
  | case2 found missing name waiting hf ih =>
    rw [walk, dif_pos hf]
    exact ih h
  | case3 found missing name waiting hf ho ih =>
    rw [walk_unowned hf ho]
    exact ih h
  | case4 found missing name waiting hf owner ho hlt found' required ih =>
    rw [walk_owned hf ho]
    exact ih (List.forall_mem_cons.mpr ⟨rfl, h⟩)

theorem of_unplaced (root : Definition) (all : List Definition) :
    ∀ p ∈ (of root all).priorities, p.path = none :=
  walk_unplaced (by simp)

theorem mem_sorted {names : List String} {name : String} :
    name ∈ Text.sorted names ↔ name ∈ names :=
  List.mem_mergeSort

theorem of_explored (root : Definition) (all : List Definition) :
    ∃ found, (of root all).priorities = found.reverse ∧
      Explored root all found (walk root all [] [] [root.dataSet]).2 [] :=
  walk_explored (.start root all)

section
variable {root : Definition} {all : List Definition} {name : String}

theorem owner?_of_mem {p : Priority} (h : p ∈ (of root all).priorities) :
    owner? root all p.name = some p.source := by
  obtain ⟨found, hf, hx⟩ := of_explored root all
  rw [hf, List.mem_reverse] at h
  exact hx.owned p h

theorem nodup_names (root : Definition) (all : List Definition) :
    ((of root all).priorities.map Priority.name).Nodup := by
  obtain ⟨found, hf, hx⟩ := of_explored root all
  rw [hf, List.map_reverse]
  exact List.nodup_reverse.mpr hx.distinct

theorem exists_mem_of_owned (hr : Reachable root all name)
    (ho : (owner? root all name).isSome = true) :
    ∃ p ∈ (of root all).priorities, p.name = name := by
  obtain ⟨found, hf, hx⟩ := of_explored root all
  obtain ⟨p, hp, hn⟩ := List.mem_map.mp (hx.mem_found_iff.mpr ⟨hr, ho⟩)
  exact ⟨p, hf ▸ List.mem_reverse.mpr hp, hn⟩

theorem mem_missing_of_unowned (hr : Reachable root all name)
    (ho : owner? root all name = none) : name ∈ (of root all).missing := by
  obtain ⟨found, _, hx⟩ := of_explored root all
  change name ∈ (Text.sorted (walk root all [] [] [root.dataSet]).2).eraseDups
  rw [List.mem_eraseDups, mem_sorted]
  exact hx.mem_missing_iff.mpr ⟨hr, ho⟩

end

/-- Of the reachable names, those with an owner are searched, the root's first, and the others are
missing; none is in both lists or twice in one, so together they count every reachable name once. -/
theorem reachable_partition (root : Definition) (all : List Definition) :
    ((of root all).names.Nodup ∧ (of root all).names.head? = some root.dataSet ∧
      ∀ name, name ∈ (of root all).names ↔
        Reachable root all name ∧ (owner? root all name).isSome = true) ∧
    ((of root all).missing.Nodup ∧ ∀ name, name ∈ (of root all).missing ↔
      Reachable root all name ∧ owner? root all name = none) ∧
    (of root all).names.Disjoint (of root all).missing ∧
      ((of root all).names ++ (of root all).missing).Nodup ∧
      ∀ name, name ∈ (of root all).names ++ (of root all).missing ↔ Reachable root all name := by
  obtain ⟨found, hf, h⟩ := walk_explored (Explored.start root all)
  have hnames : (of root all).names = (found.map Priority.name).reverse := by
    change (walk root all [] [] [root.dataSet]).1.map Priority.name = _
    rw [hf, List.map_reverse]
  have hmem : ∀ name, name ∈ (of root all).names ↔
      Reachable root all name ∧ (owner? root all name).isSome = true := by
    intro name
    rw [hnames, List.mem_reverse, h.mem_found_iff]
  have hmissing : ∀ name, name ∈ (of root all).missing ↔
      Reachable root all name ∧ owner? root all name = none := by
    intro name
    change name ∈ (Text.sorted (walk root all [] [] [root.dataSet]).2).eraseDups ↔ _
    rw [List.mem_eraseDups, mem_sorted, h.mem_missing_iff]
  have hdistinct : (of root all).names.Nodup := hnames ▸ List.nodup_reverse.mpr h.distinct
  have honce : (of root all).missing.Nodup := nodup_eraseDups _
  have hdisjoint : (of root all).names.Disjoint (of root all).missing := by
    intro name hn hm
    have ho := ((hmem name).mp hn).2
    rw [((hmissing name).mp hm).2] at ho
    cases ho
  refine ⟨⟨hdistinct, ?_, hmem⟩, ⟨honce, hmissing⟩, hdisjoint,
    List.nodup_append'.mpr ⟨hdistinct, honce, hdisjoint⟩, ?_⟩
  · obtain ⟨new, he, _⟩ := visits_extends all [⟨root.dataSet, none, root⟩] root.required
    rw [names, priorities_eq_visits, he]
    rfl
  · intro name
    rw [List.mem_append, hmem, hmissing]
    cases owner? root all name <;> simp

end LayeredAssets.Dependencies
