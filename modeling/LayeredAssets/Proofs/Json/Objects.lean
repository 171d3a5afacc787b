import LayeredAssets.Json.Reading
import LayeredAssets.Proofs.Except

namespace LayeredAssets.Json

/-- A list of texts. -/
def texts (items : List String) : Json := .array (items.map .string)

/-- What an object that can be read counts as: of a key that it holds twice, the last value. -/
def named (members : List (Option String × Json)) : List (String × Json) :=
  entries (mergeMembers (mergedMembers members))

/-- The text is an array of objects and nothing else, and each object can be read whole. -/
inductive ArrayOf (text : String) : List (List (String × Json)) → Prop
  | intro {objects : List (List (Option String × Json))}
    (hroot : Document.ofText text = ⟨.array (objects.map .object), false⟩)
    (hread : ∀ members ∈ objects, (Json.object members).isReadable (nesting - 1) = true) :
    ArrayOf text (objects.map named)

theorem Document.readAs_eq_ok_iff {α : Type} {reader : Reader α} {text : String} {a : α} :
    readAs reader text = .ok a ↔
      reader (ofText text).root = .ok a ∧ (ofText text).surplus = false := by
  unfold readAs
  generalize ofText text = document
  cases hread : reader document.root with
  | error complaint => simp [hread]
  | ok b =>
    cases hsurplus : document.surplus with
    | true => simp [hread, hsurplus]
    | false => simp [hread, hsurplus]

theorem Reader.members_eq_ok_iff {room : Nat} {j : Json} {object : List (String × Json)} :
    Reader.members room j = .ok object ↔
      ∃ members, j = .object members ∧ (Json.object members).isReadable room = true ∧
        object = named members := by
  cases j with
  | object members =>
    rw [Reader.members]
    by_cases hr : (Json.object members).isReadable room = true
    · rw [if_pos hr]
      constructor
      · intro h
        exact ⟨members, rfl, hr, (Except.ok.inj h).symm⟩
      · rintro ⟨inner, he, -, rfl⟩
        obtain rfl := Json.object.inj he
        rfl
    · rw [if_neg hr]
      constructor
      · intro h
        cases h
      · rintro ⟨inner, he, h, -⟩
        obtain rfl := Json.object.inj he
        exact absurd h hr
  | _ => simp [Reader.members]

/-- A list of readings is one of objects. -/
theorem forall₂_members_iff {room : Nat} {items : List Json}
    {objects : List (List (String × Json))} :
    List.Forall₂ (fun j object => Reader.members room j = .ok object) items objects ↔
      ∃ inner : List (List (Option String × Json)), items = inner.map .object ∧
        (∀ members ∈ inner, (Json.object members).isReadable room = true) ∧
        objects = inner.map named := by
  constructor
  · intro h
    induction h with
    | nil => exact ⟨[], rfl, by simp, rfl⟩
    | cons h _ ih =>
      obtain ⟨members, rfl, hr, rfl⟩ := Reader.members_eq_ok_iff.mp h
      obtain ⟨inner, rfl, hrest, rfl⟩ := ih
      exact ⟨members :: inner, rfl, List.forall_mem_cons.mpr ⟨hr, hrest⟩, rfl⟩
  · rintro ⟨inner, rfl, hr, rfl⟩
    rw [List.forall₂_map_left_iff, List.forall₂_map_right_iff, List.forall₂_same]
    intro members hm
    exact Reader.members_eq_ok_iff.mpr ⟨members, rfl, hr members hm, rfl⟩

theorem readAs_objects_iff {text : String} {objects : List (List (String × Json))} :
    Document.readAs (Reader.list (Reader.members (nesting - 1))) text = .ok objects ↔
      ArrayOf text objects := by
  rw [Document.readAs_eq_ok_iff]
  constructor
  · rintro ⟨hroot, hsurplus⟩
    cases hdocument : Document.ofText text with
    | mk root surplus =>
      rw [hdocument] at hroot hsurplus
      cases hsurplus
      cases root with
      | array items =>
        have hitems := Except.mapM_eq_ok_iff.mp hroot
        obtain ⟨inner, rfl, hread, rfl⟩ := forall₂_members_iff.mp hitems
        exact .intro hdocument hread
      | _ => cases hroot
  · rintro ⟨hroot, hread⟩
    rw [hroot]
    refine ⟨Except.mapM_eq_ok_iff.mpr (forall₂_members_iff.mpr ⟨_, rfl, hread, rfl⟩), rfl⟩

end LayeredAssets.Json
