import LayeredAssets.Identity.Fingerprint
import LayeredAssets.Proofs.Json.Layouts

namespace LayeredAssets

namespace Json

/-- The value that may be given is a list of texts. One that is not given has none. -/
def ListsTexts (given : Option Json) (items : List String) : Prop :=
  given = some (texts items) ∨ given = none ∧ items = []

theorem ListsTexts.of_some {j : Json} {items : List String} (h : ListsTexts (some j) items) :
    j = texts items := by
  simpa [ListsTexts] using h

theorem Reader.string_eq_ok_iff {j : Json} {s : String} :
    Reader.string j = .ok s ↔ j = .string s := by
  cases j <;> simp [Reader.string]

theorem Reader.list_string_eq_ok_iff {j : Json} {items : List String} :
    Reader.list Reader.string j = .ok items ↔ j = texts items := by
  cases j with
  | array values =>
    rw [Reader.list, Except.mapM_eq_ok_iff, texts, Json.array.injEq]
    simp only [Reader.string_eq_ok_iff]
    rw [← List.forall₂_eq_eq_eq, List.forall₂_map_right_iff]
  | _ => simp [Reader.list, texts]

theorem mergedItems_eq_map (values : List Json) : mergedItems values = values.map merged := by
  induction values with
  | nil => rfl
  | cons j values ih => rw [mergedItems, ih, List.map_cons]

theorem merged_eq_string_iff {j : Json} {s : String} : j.merged = .string s ↔ j = .string s := by
  cases j <;> simp [merged]

/-- A list of texts is the same before and after its keys are merged. -/
theorem merged_eq_texts_iff {j : Json} {items : List String} :
    j.merged = texts items ↔ j = texts items := by
  cases j with
  | array values =>
    rw [merged, mergedItems_eq_map, texts, Json.array.injEq, Json.array.injEq]
    induction values generalizing items with
    | nil => simp
    | cons j values ih =>
      cases items with
      | nil => simp
      | cons s items => simp [merged_eq_string_iff, ih]
  | _ => simp [merged, texts]

theorem listsTexts_merged_iff {given : Option Json} {items : List String} :
    ListsTexts (given.map merged) items ↔ ListsTexts given items := by
  cases given with
  | none => simp [ListsTexts]
  | some j => simp [ListsTexts, merged_eq_texts_iff]

end Json

namespace Fingerprint
open Json

def fieldNames : List String := ["contains_any", "contains_all", "not_contains"]

/-- A value that spells a fingerprint: an object with three keys that may be there, of a repeated
one the last value counting, or an array that has the three lists in their order and may be
short. -/
inductive Spelled : Json → Fingerprint → Prop where
  | object {members : List (String × Json)} {anyOf allOf noneOf : List String}
      (known : ∀ key ∈ keysOf members, key ∈ fieldNames)
      (any : ListsTexts (lastUnder members "contains_any") anyOf)
      (all : ListsTexts (lastUnder members "contains_all") allOf)
      (none : ListsTexts (lastUnder members "not_contains") noneOf) :
      Spelled (keyed members) ⟨anyOf, allOf, noneOf⟩
  | array {items : List Json} {anyOf allOf noneOf : List String} (few : items.length ≤ 3)
      (any : ListsTexts items[0]? anyOf) (all : ListsTexts items[1]? allOf)
      (none : ListsTexts items[2]? noneOf) :
      Spelled (.array items) ⟨anyOf, allOf, noneOf⟩

/-- What a fingerprint asks of a place: no file that it excludes, all that it requires, one of those
that it wants one of, and one file at least that it names and that is there. -/
structure Suits (print : Fingerprint) (holds : String → Bool) : Prop where
  excluded : ∀ file ∈ print.noneOf, holds file = false
  required : ∀ file ∈ print.allOf, holds file = true
  wanted : print.anyOf ≠ [] → ∃ file ∈ print.anyOf, holds file = true
  told : print.allOf ≠ [] ∨ ∃ file ∈ print.anyOf, holds file = true

section
variable {print : Fingerprint} {holds : String → Bool}

theorem fits_iff_suits : print.fits holds = true ↔ print.Suits holds := by
  simp only [fits, Bool.and_eq_true, Bool.or_eq_true, Bool.not_eq_true', List.all_eq_true,
    List.any_eq_false, List.any_eq_true, List.isEmpty_iff, List.isEmpty_eq_false_iff,
    Bool.not_eq_true]
  constructor
  · rintro ⟨⟨⟨hall, hnone⟩, hany⟩, htold⟩
    exact ⟨hnone, hall, fun hne => hany.resolve_left hne, htold⟩
  · intro h
    refine ⟨⟨⟨h.required, h.excluded⟩, ?_⟩, h.told⟩
    by_cases hne : print.anyOf = []
    · exact Or.inl hne
    · exact Or.inr (h.wanted hne)

/-- More files do not take a place away from a fingerprint, as long as none of them is excluded. -/
theorem Suits.mono {more : String → Bool} (h : print.Suits holds)
    (grows : ∀ file, holds file = true → more file = true)
    (same : ∀ file ∈ print.noneOf, holds file = more file) : print.Suits more where
  excluded file hm := (same file hm).symm.trans (h.excluded file hm)
  required file hm := grows file (h.required file hm)
  wanted hne := by
    obtain ⟨file, hm, hf⟩ := h.wanted hne
    exact ⟨file, hm, grows file hf⟩
  told := h.told.imp id fun ⟨file, hm, hf⟩ => ⟨file, hm, grows file hf⟩

theorem isMeta_iff : print.isMeta = true ↔ print = ⟨[], [], []⟩ := by
  obtain ⟨anyOf, allOf, noneOf⟩ := print
  simp [isMeta, and_assoc]

/-- Nothing suits a fingerprint that asks for nothing. -/
theorem not_suits_of_isMeta (h : print.isMeta = true) : ¬ print.Suits holds := by
  rw [isMeta_iff] at h
  subst h
  intro hs
  obtain hall | ⟨file, hm, _⟩ := hs.told
  · exact hall rfl
  · cases hm

end

theorem fields_eq : layout.fields = fieldNames.map fun name => .of name false files := rfl

theorem check_eq_ok_iff {name : String} {required : Bool} {j : Json} :
    (Field.of name required files).check j = .ok () ↔ ∃ items, j = texts items :=
  Field.check_of_iff.trans (exists_congr fun _ => Reader.list_string_eq_ok_iff)

theorem field?_eq_some_iff {key : String} {field : Field} :
    layout.field? key = some field ↔ key ∈ fieldNames ∧ field = .of key false files := by
  rw [Layout.field?, fields_eq, List.find?_map]
  have hname : ((fun f : Field => f.name == key) ∘ fun name => .of name false files) =
      fun name => name == key := rfl
  rw [hname]
  by_cases hkey : key ∈ fieldNames
  · have hfind : fieldNames.find? (fun name => name == key) = some key := by
      simp only [fieldNames, List.mem_cons, List.not_mem_nil, or_false] at hkey
      rcases hkey with rfl | rfl | rfl <;> rfl
    simp [hfind, hkey, eq_comm]
  · have hfind : fieldNames.find? (fun name => name == key) = none := by
      rw [List.find?_eq_none]
      rintro name hm he
      exact hkey (beq_iff_eq.mp he ▸ hm)
    simp [hfind, hkey]

/-- The value under a key that may be missing. -/
theorem optional_files_iff {cells : Cells} {key : String} {items : List String} :
    cells.optional key files [] = .ok items ↔ ListsTexts (cells.lookup key) items := by
  unfold Cells.optional
  cases cells.lookup key with
  | none => simp [ListsTexts, eq_comm]
  | some j => simp [ListsTexts, files, Reader.list_string_eq_ok_iff]

theorem reader_eq_ok_iff {origin : Origin} {j : Json} {print : Fingerprint} :
    reader origin j = .ok print ↔ ∃ cells, layout.cells origin j = .ok cells ∧
      ListsTexts (cells.lookup "contains_any") print.anyOf ∧
      ListsTexts (cells.lookup "contains_all") print.allOf ∧
      ListsTexts (cells.lookup "not_contains") print.noneOf := by
  unfold reader
  simp only [bind, Except.bind_eq_ok_iff]
  apply exists_congr
  intro cells
  apply and_congr_right
  intro _
  constructor
  · rintro ⟨anyOf, hany, allOf, hall, noneOf, hnone, he⟩
    cases he
    exact ⟨optional_files_iff.mp hany, optional_files_iff.mp hall, optional_files_iff.mp hnone⟩
  · rintro ⟨hany, hall, hnone⟩
    exact ⟨_, optional_files_iff.mpr hany, _, optional_files_iff.mpr hall, _,
      optional_files_iff.mpr hnone, rfl⟩

/-- An object in which no key stands twice. -/
theorem reader_keyed_iff {members : List (String × Json)} (distinct : (members.map Prod.fst).Nodup)
    {origin : Origin} {print : Fingerprint} : reader origin (keyed members) = .ok print ↔
      (∀ key ∈ members.map Prod.fst, key ∈ fieldNames) ∧
        ListsTexts (members.lookup "contains_any") print.anyOf ∧
        ListsTexts (members.lookup "contains_all") print.allOf ∧
        ListsTexts (members.lookup "not_contains") print.noneOf := by
  rw [reader_eq_ok_iff]
  constructor
  · rintro ⟨cells, hcells, hlists⟩
    obtain ⟨hfields, rfl⟩ := (Layout.cells_object_iff rfl distinct origin).mp hcells
    simp only [lookup_reverse distinct] at hlists
    refine ⟨?_, hlists⟩
    intro key hkey
    obtain ⟨m, hm, rfl⟩ := List.mem_map.mp hkey
    obtain ⟨field, hfield, -⟩ := hfields m hm
    exact (field?_eq_some_iff.mp hfield).1
  · rintro ⟨hknown, hlists⟩
    refine ⟨members.reverse, (Layout.cells_object_iff rfl distinct origin).mpr ⟨?_, rfl⟩, ?_⟩
    · intro m hm
      have hkey := hknown m.1 (List.mem_map_of_mem hm)
      have hlookup : members.lookup m.1 = some m.2 := (mem_iff_lookup distinct).mp hm
      have hfound : ∀ {key items}, m.1 = key → ListsTexts (members.lookup key) items →
          ∃ items, m.2 = texts items := by
        rintro key items rfl h
        rw [hlookup] at h
        exact ⟨items, h.of_some⟩
      obtain ⟨items, hitems⟩ : ∃ items, m.2 = texts items := by
        have hnames := hkey
        simp only [fieldNames, List.mem_cons, List.not_mem_nil, or_false] at hnames
        obtain ⟨hany, hall, hnone⟩ := hlists
        rcases hnames with hname | hname | hname
        · exact hfound hname hany
        · exact hfound hname hall
        · exact hfound hname hnone
      exact ⟨_, field?_eq_some_iff.mpr ⟨hkey, rfl⟩, check_eq_ok_iff.mpr ⟨items, hitems⟩⟩
    · simpa only [lookup_reverse distinct] using hlists

theorem reader_array_iff {origin : Origin} {items : List Json} {print : Fingerprint} :
    reader origin (.array items) = .ok print ↔ items.length ≤ 3 ∧
      ListsTexts items[0]? print.anyOf ∧ ListsTexts items[1]? print.allOf ∧
        ListsTexts items[2]? print.noneOf := by
  have hlookups : items.length ≤ 3 →
      ((layout.fields.map Field.name).zip items).lookup "contains_any" = items[0]? ∧
      ((layout.fields.map Field.name).zip items).lookup "contains_all" = items[1]? ∧
      ((layout.fields.map Field.name).zip items).lookup "not_contains" = items[2]? := by
    intro hfew
    rcases items with _ | ⟨a, _ | ⟨b, _ | ⟨c, _ | ⟨d, rest⟩⟩⟩⟩
    · exact ⟨rfl, rfl, rfl⟩
    · exact ⟨rfl, rfl, rfl⟩
    · exact ⟨rfl, rfl, rfl⟩
    · exact ⟨rfl, rfl, rfl⟩
    · simp only [List.length_cons] at hfew
      omega
  rw [reader_eq_ok_iff]
  simp only [Layout.cells_array_iff]
  constructor
  · rintro ⟨cells, ⟨hfew, hchecks, -, rfl⟩, hlists⟩
    obtain ⟨hany, hall, hnone⟩ := hlookups hfew
    rw [hany, hall, hnone] at hlists
    exact ⟨hfew, hlists⟩
  · rintro ⟨hfew, hlists⟩
    obtain ⟨hany, hall, hnone⟩ := hlookups hfew
    have htexts : ∀ j ∈ items, ∃ names, j = texts names := by
      intro j hj
      obtain ⟨i, hi⟩ := List.mem_iff_getElem?.mp hj
      have hlt := (List.getElem?_eq_some_iff.mp hi).1
      obtain rfl | rfl | rfl : i = 0 ∨ i = 1 ∨ i = 2 := by omega
      · exact ⟨_, (hi ▸ hlists.1).of_some⟩
      · exact ⟨_, (hi ▸ hlists.2.1).of_some⟩
      · exact ⟨_, (hi ▸ hlists.2.2).of_some⟩
    refine ⟨_, ⟨hfew, ?_, ?_, rfl⟩, by rwa [hany, hall, hnone]⟩
    · rintro ⟨field, j⟩ hp
      obtain ⟨hfield, hj⟩ := List.of_mem_zip hp
      rw [fields_eq] at hfield
      obtain ⟨name, -, rfl⟩ := List.mem_map.mp hfield
      exact check_eq_ok_iff.mpr (htexts j hj)
    · intro field hfield
      have hm := List.mem_of_mem_drop hfield
      rw [fields_eq] at hm
      obtain ⟨name, -, rfl⟩ := List.mem_map.mp hm
      rfl

/-- A value that was read whole is read as the fingerprint that it spells. -/
theorem reader_merged_iff {j : Json} {room : Nat} (readable : j.isReadable room = true)
    {print : Fingerprint} : reader .value j.merged = .ok print ↔ Spelled j print := by
  cases j with
  | object inner =>
    obtain ⟨members, rfl⟩ := exists_keyed_of_readable readable
    have hdistinct : ((named (members.map member)).map Prod.fst).Nodup := by
      rw [keys_named]
      exact nodup_keysOf members
    change reader .value (keyed members).merged = _ ↔ Spelled (keyed members) print
    rw [merged_keyed, reader_keyed_iff hdistinct, keys_named]
    simp only [lookup_named, listsTexts_merged_iff]
    constructor
    · rintro ⟨hknown, hany, hall, hnone⟩
      exact .object hknown hany hall hnone
    · intro h
      generalize hj : keyed members = j at h
      cases h with
      | @object members' _ _ _ hknown hany hall hnone =>
        obtain rfl := keyed_injective hj
        exact ⟨hknown, hany, hall, hnone⟩
      | array => cases hj
  | array items =>
    rw [merged, mergedItems_eq_map, reader_array_iff]
    simp only [List.length_map, List.getElem?_map, listsTexts_merged_iff]
    constructor
    · rintro ⟨hfew, hany, hall, hnone⟩
      exact .array hfew hany hall hnone
    · intro h
      cases h with
      | array hfew hany hall hnone => exact ⟨hfew, hany, hall, hnone⟩
  | _ =>
    constructor
    · intro h
      cases h
    · intro h
      cases h

end Fingerprint
end LayeredAssets
