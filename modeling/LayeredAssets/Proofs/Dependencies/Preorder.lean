import LayeredAssets.Dependencies

namespace LayeredAssets.Dependencies

/-- The data sets that some definition owns and that have not been found yet. -/
def unvisited (all : List Definition) (found : List Priority) : List String :=
  (all.map Definition.dataSet).filter (fun name => !holds found name)

theorem holds_cons_self (name : String) (path : Option String) (source : Definition)
    (found : List Priority) : holds (⟨name, path, source⟩ :: found) name = true := by
  simp [holds]

theorem holds_cons_of_holds {found : List Priority} {name : String} (p : Priority)
    (h : holds found name = true) : holds (p :: found) name = true := by
  simp only [holds, List.any_cons, Bool.or_eq_true] at h ⊢
  exact Or.inr h

theorem holds_append (a b : List Priority) (name : String) :
    holds (a ++ b) name = (holds a name || holds b name) :=
  List.any_append

theorem holds_reverse (found : List Priority) (name : String) :
    holds found.reverse name = holds found name :=
  List.any_reverse

theorem find?_dataSet {all : List Definition} {owner : Definition} {name : String}
    (ho : Definition.find? all name = some owner) : owner ∈ all ∧ owner.dataSet = name :=
  ⟨List.mem_of_find?_eq_some ho, by simpa using List.find?_some ho⟩

/-- Appending the entry of an owned name leaves one name less to visit. -/
theorem unvisited_decreases {all : List Definition} {found : List Priority} {owner : Definition}
    {name : String} (hf : ¬ holds found name = true)
    (ho : Definition.find? all name = some owner) :
    (unvisited all (found ++ [⟨name, none, owner⟩])).length < (unvisited all found).length := by
  obtain ⟨hm, hd⟩ := find?_dataSet ho
  have hmem : name ∈ all.map Definition.dataSet := List.mem_map.mpr ⟨owner, hm, hd⟩
  refine filter_length_lt ?_ hmem (by simpa using hf) (by simp [holds])
  intro y hy
  simp only [holds_append, Bool.not_or, Bool.and_eq_true] at hy
  exact hy.1

/-- The recursive walk over a list of names. A name is visited if it is not in the result yet: it is
appended, and what its owner requires is walked before the names behind it. The bound is carried
along because the walk of those names starts from whatever the owner's walk left. -/
def visits (all : List Definition) (found : List Priority) : (names : List String) →
    { result : List Priority // (unvisited all result).length ≤ (unvisited all found).length }
  | [] => ⟨found, Nat.le_refl _⟩
  | name :: names =>
    if hf : holds found name then visits all found names
    else
      match ho : Definition.find? all name with
      | none => visits all found names
      | some owner =>
        have hlt := unvisited_decreases hf ho
        let inner := visits all (found ++ [⟨name, none, owner⟩]) owner.required
        have hinner := Nat.lt_of_le_of_lt inner.property hlt
        let result := visits all inner.val names
        ⟨result.val, Nat.le_trans result.property (Nat.le_of_lt hinner)⟩
termination_by names => ((unvisited all found).length, names.length)
decreasing_by
  · exact Prod.Lex.right _ (Nat.lt_succ_self _)
  · exact Prod.Lex.right _ (Nat.lt_succ_self _)
  · exact Prod.Lex.left _ _ hlt
  · exact Prod.Lex.left _ _ hinner

/-- The recursive depth-first walk: the root first, then everything it requires. -/
def preorder (root : Definition) (all : List Definition) : List Priority :=
  (visits all [⟨root.dataSet, none, root⟩] root.required).val

section
variable {all : List Definition} {found : List Priority} {name : String} {names : List String}

theorem visits_nil : (visits all found []).val = found := by
  rw [visits]

theorem visits_known (hf : holds found name = true) :
    (visits all found (name :: names)).val = (visits all found names).val := by
  rw [visits, dif_pos hf]

theorem visits_unowned (hf : ¬ holds found name = true) (ho : Definition.find? all name = none) :
    (visits all found (name :: names)).val = (visits all found names).val := by
  rw [visits, dif_neg hf]
  split
  · rfl
  · next owner ho' =>
    rw [ho] at ho'
    cases ho'

theorem visits_owned {owner : Definition} (hf : ¬ holds found name = true)
    (ho : Definition.find? all name = some owner) :
    (visits all found (name :: names)).val =
      (visits all (visits all (found ++ [⟨name, none, owner⟩]) owner.required).val names).val := by
  rw [visits, dif_neg hf]
  split
  · next ho' =>
    rw [ho] at ho'
    cases ho'
  · next owner' ho' =>
    obtain rfl := Option.some.inj (ho.symm.trans ho')
    rfl

/-- Walking two lists of names is walking the second from what the first left. -/
theorem visits_append (a b : List String) :
    (visits all found (a ++ b)).val = (visits all (visits all found a).val b).val := by
  induction a generalizing found with
  | nil => rw [List.nil_append, visits_nil]
  | cons name a ih =>
    by_cases hf : holds found name = true
    · rw [List.cons_append, visits_known hf, visits_known hf, ih]
    · cases ho : Definition.find? all name with
      | none => rw [List.cons_append, visits_unowned hf ho, visits_unowned hf ho, ih]
      | some owner => rw [List.cons_append, visits_owned hf ho, visits_owned hf ho, ih]

/-- The walk only ever appends. Every new entry is owned by the first definition that owns its
name. -/
theorem visits_extends (all : List Definition) (found : List Priority) (names : List String) :
    ∃ new, (visits all found names).val = found ++ new ∧
      ∀ p ∈ new, Definition.find? all p.name = some p.source := by
  induction found, names using visits.induct all with
  | case1 found => exact ⟨[], by rw [visits_nil, List.append_nil], by simp⟩
  | case2 found name names hf ih => rwa [visits_known hf]
  | case3 found name names hf ho ih => rwa [visits_unowned hf ho]
  | case4 found name names hf owner ho hlt inner hinner ihInner ihRest =>
    obtain ⟨a, ha, hsa⟩ := ihInner
    obtain ⟨b, hb, hsb⟩ := ihRest
    refine ⟨⟨name, none, owner⟩ :: (a ++ b), ?_, ?_⟩
    · rw [visits_owned hf ho, hb, ha]
      simp
    · intro p hp
      rcases List.mem_cons.mp hp with rfl | hp
      · exact ho
      · rcases List.mem_append.mp hp with hp | hp
        · exact hsa p hp
        · exact hsb p hp

theorem holds_visits (names : List String) (hf : holds found name = true) :
    holds (visits all found names).val name = true := by
  obtain ⟨new, he, _⟩ := visits_extends all found names
  rw [he, holds_append, hf, Bool.true_or]

/-- Names that were found before the walk may be left out of its list. -/
theorem visits_filter {before : List Priority}
    (hb : ∀ name, holds before name = true → holds found name = true) (names : List String) :
    (visits all found (names.filter (fun name => !holds before name))).val =
      (visits all found names).val := by
  induction names generalizing found with
  | nil => rfl
  | cons name names ih =>
    by_cases hk : holds before name = true
    · rw [List.filter_cons_of_neg (by simp [hk]), ih hb, visits_known (hb name hk)]
    · rw [List.filter_cons_of_pos (by simp [hk])]
      by_cases hf : holds found name = true
      · rw [visits_known hf, visits_known hf, ih hb]
      · cases ho : Definition.find? all name with
        | none => rw [visits_unowned hf ho, visits_unowned hf ho, ih hb]
        | some owner =>
          rw [visits_owned hf ho, visits_owned hf ho, ih]
          intro name' h
          apply holds_visits
          rw [holds_append, hb name' h, Bool.true_or]

end

/-- Below the root's own name, owners are the first definitions. -/
theorem owner?_of_ne {root : Definition} {all : List Definition} {name : String}
    (hn : name ≠ root.dataSet) : owner? root all name = Definition.find? all name :=
  if_neg hn

theorem owner?_root (root : Definition) (all : List Definition) :
    owner? root all root.dataSet = some root :=
  if_pos rfl

section
variable {root : Definition} {all : List Definition} {found : List Priority} {name : String}
  {missing waiting : List String}

theorem walk_unowned (hf : ¬ holds found name = true) (ho : owner? root all name = none) :
    walk root all found missing (name :: waiting) =
      walk root all found (name :: missing) waiting := by
  rw [walk, dif_neg hf]
  split
  · rfl
  · next owner ho' =>
    rw [ho] at ho'
    cases ho'

theorem walk_owned {owner : Definition} (hf : ¬ holds found name = true)
    (ho : owner? root all name = some owner) :
    walk root all found missing (name :: waiting) =
      walk root all (⟨name, none, owner⟩ :: found) missing
        (owner.required.filter (fun n => !holds (⟨name, none, owner⟩ :: found) n) ++ waiting) := by
  rw [walk, dif_neg hf]
  split
  · next ho' =>
    rw [ho] at ho'
    cases ho'
  · next owner' ho' =>
    obtain rfl := Option.some.inj (ho.symm.trans ho')
    rfl

/-- What waits on the stack is what the recursive walk has still to visit. The induction is on the
stack walk; the root is found already, so no name on the stack is owned by it. -/
theorem walk_eq_visits (hr : holds found root.dataSet = true) :
    (walk root all found missing waiting).1 = (visits all found.reverse waiting).val := by
  induction found, missing, waiting using walk.induct root all with
  | case1 found missing => rw [walk, visits_nil]
  | case2 found missing name waiting hf ih =>
    rw [walk, dif_pos hf, ih hr, visits_known (by rwa [holds_reverse])]
  | case3 found missing name waiting hf ho ih =>
    have hn : name ≠ root.dataSet := fun he => hf (he ▸ hr)
    rw [walk_unowned hf ho, ih hr,
      visits_unowned (by rwa [holds_reverse]) (owner?_of_ne hn ▸ ho)]
  | case4 found missing name waiting hf owner ho hlt found' required ih =>
    have hn : name ≠ root.dataSet := fun he => hf (he ▸ hr)
    have hr' : holds found' root.dataSet = true := holds_cons_of_holds _ hr
    have hb : ∀ name', holds found' name' = true →
        holds (found.reverse ++ [⟨name, none, owner⟩]) name' = true := by
      intro name' h
      rwa [← List.reverse_cons, holds_reverse]
    rw [walk_owned hf ho, ih hr', visits_append, List.reverse_cons, visits_filter hb,
      visits_owned (by rwa [holds_reverse]) (owner?_of_ne hn ▸ ho)]

end

/-- The walk starts by finding the root, which owns its own name whatever else does. -/
theorem walk_root (root : Definition) (all : List Definition) :
    walk root all [] [] [root.dataSet] =
      walk root all [⟨root.dataSet, none, root⟩] []
        (root.required.filter (fun name => !holds [⟨root.dataSet, none, root⟩] name)) := by
  rw [walk_owned (by simp [holds]) (owner?_root root all), List.append_nil]

theorem priorities_eq_visits (root : Definition) (all : List Definition) :
    (of root all).priorities =
      (visits all [⟨root.dataSet, none, root⟩] root.required).val := by
  change (walk root all [] [] [root.dataSet]).1 = _
  rw [walk_root, walk_eq_visits (holds_cons_self ..)]
  exact visits_filter (fun _ h => h) root.required

/-- The search order is the recursive walk's, entry by entry. The walk ends on every graph, cycles
among them, since both are functions. Only the first entry is the given root's own: every other
name is owned by the first definition that owns it. -/
theorem priorities_eq_preorder (root : Definition) (all : List Definition) :
    (of root all).priorities = preorder root all ∧
      ∃ rest, (of root all).priorities = ⟨root.dataSet, none, root⟩ :: rest ∧
        ∀ p ∈ rest, Definition.find? all p.name = some p.source := by
  obtain ⟨rest, he, hs⟩ := visits_extends all [⟨root.dataSet, none, root⟩] root.required
  have hw := priorities_eq_visits root all
  exact ⟨hw, rest, hw.trans he, hs⟩

end LayeredAssets.Dependencies
