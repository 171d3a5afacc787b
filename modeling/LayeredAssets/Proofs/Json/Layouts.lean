import LayeredAssets.Proofs.Json.Members

namespace LayeredAssets.Json

theorem Field.check_of_iff {α : Type} {name : String} {required : Bool} {reader : Reader α}
    {j : Json} : (Field.of name required reader).check j = .ok () ↔ ∃ a, reader j = .ok a := by
  rw [Field.of, Except.map_eq_ok_iff]
  simp

namespace Layout

variable {layout : Layout} {members cells found : List (String × Json)}

/-- In a closed layout every key of an object is a field, and every value passes the check of its
field. The cells are the members, and nothing else. -/
theorem ofMembers_eq_ok_iff (closed : layout.closed = true)
    (distinct : (members.map Prod.fst).Nodup)
    (fresh : ∀ key ∈ members.map Prod.fst, cells.lookup key = none) :
    layout.ofMembers cells (members.map member) = .ok found ↔
      (∀ m ∈ members, ∃ field, layout.field? m.1 = some field ∧ field.check m.2 = .ok ()) ∧
        found = members.reverse ++ cells := by
  induction members generalizing cells with
  | nil =>
    rw [List.map_nil, ofMembers]
    simp [eq_comm]
  | cons m members ih =>
    obtain ⟨key, j⟩ := m
    rw [List.map_cons, List.nodup_cons] at distinct
    obtain ⟨hnew, hcells⟩ := List.forall_mem_cons.mp fresh
    have hfresh : ∀ other ∈ members.map Prod.fst, List.lookup other ((key, j) :: cells) = none := by
      intro other hother
      have hne : (other == key) = false := by
        have : other ≠ key := fun he => distinct.1 (he ▸ hother)
        simpa using this
      rw [List.lookup_cons, hne]
      exact hcells other hother
    rw [List.map_cons, member, ofMembers, List.forall_mem_cons]
    cases hfield : layout.field? key with
    | none =>
      dsimp only
      rw [if_pos closed]
      simp
    | some field =>
      dsimp only
      rw [hnew, if_neg (by simp)]
      cases hcheck : field.check j with
      | error complaint => simp [hcheck]
      | ok =>
        rw [ih distinct.2 hfresh]
        simp [hcheck]

/-- An object in a closed layout, each key of which stands there once. -/
theorem cells_object_iff (closed : layout.closed = true) (distinct : (members.map Prod.fst).Nodup)
    (origin : Origin) : layout.cells origin (keyed members) = .ok found ↔
      (∀ m ∈ members, ∃ field, layout.field? m.1 = some field ∧ field.check m.2 = .ok ()) ∧
        found = members.reverse := by
  rw [keyed, cells, ofMembers_eq_ok_iff closed distinct (fun _ _ => rfl), List.append_nil]

/-- The values of an array belong to the fields in their order. Fields that are left without a value
must not be required. -/
theorem ofItems_eq_ok_iff {surplus : Complaint} {fields : List Field} {items : List Json} :
    layout.ofItems surplus fields items = .ok found ↔
      items.length ≤ fields.length ∧ (∀ p ∈ fields.zip items, p.1.check p.2 = .ok ()) ∧
        (∀ field ∈ fields.drop items.length, field.required = false) ∧
          found = (fields.map Field.name).zip items := by
  induction fields generalizing items found with
  | nil =>
    cases items with
    | nil =>
      rw [ofItems, Except.ok.injEq, eq_comm]
      simp
    | cons j items => simp [ofItems]
  | cons field fields ih =>
    cases items with
    | nil =>
      rw [ofItems]
      cases hrequired : field.required with
      | true => simp [hrequired]
      | false =>
        rw [if_neg (by simp), ih]
        simp [hrequired]
    | cons j items =>
      rw [ofItems]
      cases hcheck : field.check j with
      | error complaint => simp [hcheck]
      | ok =>
        dsimp only
        rw [Except.map_eq_ok_iff]
        simp only [ih, List.zip_cons_cons, List.forall_mem_cons, hcheck, true_and,
          List.length_cons, Nat.add_le_add_iff_right, List.drop_succ_cons, List.map_cons]
        constructor
        · rintro ⟨cells, ⟨hfew, hchecks, hrest, rfl⟩, rfl⟩
          exact ⟨hfew, hchecks, hrest, rfl⟩
        · rintro ⟨hfew, hchecks, hrest, rfl⟩
          exact ⟨_, ⟨hfew, hchecks, hrest, rfl⟩, rfl⟩

theorem cells_array_iff {origin : Origin} {items : List Json} :
    layout.cells origin (.array items) = .ok found ↔
      items.length ≤ layout.fields.length ∧
        (∀ p ∈ layout.fields.zip items, p.1.check p.2 = .ok ()) ∧
        (∀ field ∈ layout.fields.drop items.length, field.required = false) ∧
          found = (layout.fields.map Field.name).zip items :=
  ofItems_eq_ok_iff

end Layout

section
variable {members : List (String × Json)}

theorem mem_iff_lookup (distinct : (members.map Prod.fst).Nodup) {key : String} {j : Json} :
    (key, j) ∈ members ↔ members.lookup key = some j := by
  rw [← Table.getIn_eq_lookup]
  exact Table.mem_entries_iff (t := ⟨members⟩) distinct

/-- Where each key stands once, it does not matter from which end it is looked for. -/
theorem lookup_reverse (distinct : (members.map Prod.fst).Nodup) (key : String) :
    members.reverse.lookup key = members.lookup key := by
  have hreverse : (members.reverse.map Prod.fst).Nodup := by
    rw [List.map_reverse]
    exact List.nodup_reverse.mpr distinct
  ext j
  rw [← mem_iff_lookup hreverse, ← mem_iff_lookup distinct, List.mem_reverse]

end
end LayeredAssets.Json
