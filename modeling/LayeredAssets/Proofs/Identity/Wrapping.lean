import LayeredAssets.PathTable
import LayeredAssets.Proofs.Identity.Catalogs
import LayeredAssets.Proofs.Json.Writing

namespace LayeredAssets

namespace Json

mutual

/-- How many containers stand in one another. -/
def depth : Json → Nat
  | array items => depthItems items + 1
  | object members => depthMembers members + 1
  | _ => 0

def depthItems : List Json → Nat
  | [] => 0
  | j :: rest => max j.depth (depthItems rest)

def depthMembers : List (Option String × Json) → Nat
  | [] => 0
  | (_, j) :: rest => max j.depth (depthMembers rest)

end

mutual

/-- What can be read at all can be read where there is room for all its containers. -/
theorem isReadable_iff_depth {room : Nat} : ∀ {j : Json}, j.isReadable room = true →
    ∀ {other : Nat}, j.isReadable other = true ↔ j.depth ≤ other
  | null, _, _ => by simp [isReadable, depth]
  | bool _, _, _ => by simp [isReadable, depth]
  | integer _, _, _ => by simp [isReadable, depth]
  | floating, _, _ => by simp [isReadable, depth]
  | string _, _, _ => by simp [isReadable, depth]
  | unreadable, h, _ => by cases h
  | broken, h, _ => by cases h
  | array items, h, other => by
    rw [isReadable, Bool.and_eq_true] at h
    rw [isReadable, Bool.and_eq_true, decide_eq_true_eq, readableItems_iff_depth h.2, depth]
    omega
  | object members, h, other => by
    rw [isReadable, Bool.and_eq_true] at h
    rw [isReadable, Bool.and_eq_true, decide_eq_true_eq, readableMembers_iff_depth h.2, depth]
    omega

theorem readableItems_iff_depth {room : Nat} : ∀ {items : List Json},
    readableItems room items = true →
      ∀ {other : Nat}, readableItems other items = true ↔ depthItems items ≤ other
  | [], _, _ => by simp [readableItems, depthItems]
  | j :: rest, h, other => by
    rw [readableItems, Bool.and_eq_true] at h
    rw [readableItems, Bool.and_eq_true, isReadable_iff_depth h.1, readableItems_iff_depth h.2,
      depthItems, Nat.max_le]

theorem readableMembers_iff_depth {room : Nat} : ∀ {members : List (Option String × Json)},
    readableMembers room members = true →
      ∀ {other : Nat}, readableMembers other members = true ↔ depthMembers members ≤ other
  | [], _, _ => by simp [readableMembers, depthMembers]
  | (key, j) :: rest, h, other => by
    rw [readableMembers, Bool.and_eq_true, Bool.and_eq_true] at h
    rw [readableMembers, Bool.and_eq_true, Bool.and_eq_true, isReadable_iff_depth h.1.2,
      readableMembers_iff_depth h.2, depthMembers, Nat.max_le, h.1.1]
    simp

end

/-- What can be read at all can be read inside a container unless it is as deep as the parser goes. -/
theorem isReadable_inside_iff {j : Json} {room : Nat} (h : j.isReadable room = true) :
    j.isReadable (nesting - 1) = true ↔ j.depth < nesting := by
  rw [isReadable_iff_depth h]
  exact Nat.le_sub_one_iff_lt (by decide)

end Json

namespace Identity.Catalog
open Json (Document KeyText Written MemberWritten keyed lastUnder member named nesting objectText)

/-- A text of a catalog, under the key of a wrapping and among other members. -/
def wrapped (before : List (String × String)) (key text : String)
    (after : List (String × String)) : String :=
  objectText (before ++ (key, text) :: after)

/-- Members that may stand beside a wrapped catalog: their keys are other ones, and the parser takes
their values. -/
structure Siblings (texts : List (String × String)) (members : List (String × Json)) : Prop where
  written : List.Forall₂ MemberWritten texts members
  others : ∀ m ∈ members, m.1 ≠ "data_set_ids"
  accepted : ∀ m ∈ members, m.2.isReadable nesting = true

section
variable {file key text : String} {inner : List (Option String × Json)}
  {before after : List (String × String)} {front back : List (String × Json)}

theorem parse_malformed (h : Written text (.object inner))
    (hr : (Json.object inner).isReadable nesting = false) :
    parse text = .error (.text .malformed) := by
  rw [parse, Json.readAs_written h, Json.Reader.members, if_neg (by simp [hr])]
  rfl

/-- What becomes of a text that can be read is what becomes of the members in it. -/
theorem parse_readable {members object : List (String × Json)} (h : Written text (keyed members))
    (hr : (keyed members).isReadable nesting = true)
    (hobject : unwrap (named (members.map member)) = .ok object) :
    parse text = (object.mapM readEntry).map Catalog.mk := by
  have hread : Json.Reader.members nesting (keyed members) = .ok (named (members.map member)) :=
    if_pos hr
  rw [parse, Json.readAs_written h, hread]
  simp only [Except.mapError, bind, Except.bind, hobject]
  cases object.mapM readEntry with
  | error fault => rfl
  | ok entries => rfl

theorem written_wrapped {j : Json} (hkey : KeyText key "data_set_ids") (h : Written text j)
    (hfront : Siblings before front) (hback : Siblings after back) :
    Written (wrapped before key text after) (keyed (front ++ ("data_set_ids", j) :: back)) :=
  Json.written_object (List.rel_append hfront.written (.cons ⟨hkey, h⟩ hback.written))

theorem lastUnder_wrapped {j : Json} (hfront : Siblings before front)
    (hback : Siblings after back) :
    lastUnder (front ++ ("data_set_ids", j) :: back) "data_set_ids" = some j := by
  simp [lastUnder, lastNamed, List.filter_append, Json.filter_key_eq_nil hfront.others,
    Json.filter_key_eq_nil hback.others]

theorem isReadable_wrapped_iff {j : Json} :
    (keyed (front ++ ("data_set_ids", j) :: back)).isReadable nesting = true ↔
      j.isReadable (nesting - 1) = true ∧
        ∀ m ∈ front ++ back, m.2.isReadable (nesting - 1) = true := by
  rw [Json.isReadable_keyed_iff]
  simp only [List.forall_mem_append, List.forall_mem_cons, show 0 < nesting by decide, true_and]
  exact and_left_comm

/-- Where nothing is nested too deep for the parser, a wrapping changes nothing. -/
theorem ofText_wrapped (hkey : KeyText key "data_set_ids") (h : Written text (.object inner))
    (bare : ∀ m ∈ inner, m.1 ≠ some "data_set_ids") (hfront : Siblings before front)
    (hback : Siblings after back) (hinner : (Json.object inner).depth < nesting)
    (hothers : ∀ m ∈ front ++ back, m.2.depth < nesting) :
    ofText file (wrapped before key text after) = ofText file text := by
  have hwritten := written_wrapped hkey h hfront hback
  have haccepted : ∀ m ∈ front ++ back, m.2.isReadable nesting = true :=
    List.forall_mem_append.mpr ⟨hfront.accepted, hback.accepted⟩
  have hrest : ∀ m ∈ front ++ back, m.2.isReadable (nesting - 1) = true := fun m hm =>
    (Json.isReadable_inside_iff (haccepted m hm)).mpr (hothers m hm)
  rw [ofText, ofText]
  cases hreadable : (Json.object inner).isReadable nesting with
  | false =>
    -- It is not the depth that keeps the text from being read, and so the wrapping does not help.
    have hno : (keyed (front ++ ("data_set_ids", .object inner) :: back)).isReadable nesting =
        false := by
      rw [Bool.eq_false_iff, Ne, isReadable_wrapped_iff]
      rintro ⟨hinside, -⟩
      have hr := (Json.isReadable_iff_depth hinside).mpr hinner.le
      rw [hreadable] at hr
      cases hr
    rw [parse_malformed h hreadable, parse_malformed hwritten hno]
  | true =>
    obtain ⟨members, rfl⟩ := Json.exists_keyed_of_readable hreadable
    have hwhole := isReadable_wrapped_iff.mpr
      ⟨(Json.isReadable_inside_iff hreadable).mpr hinner, hrest⟩
    have hnamed : ∀ m ∈ members, m.1 ≠ "data_set_ids" := by
      intro m hm
      simpa [member] using bare (member m) (List.mem_map_of_mem hm)
    have hlast : lastUnder members "data_set_ids" = none := by
      rw [lastUnder, lastNamed, Json.filter_key_eq_nil hnamed]
      rfl
    rw [parse_readable h hreadable ((unwrap_named_iff hreadable).mpr (.inl ⟨hlast, rfl⟩)),
      parse_readable hwritten hwhole ((unwrap_named_iff hwhole).mpr
        (.inr ⟨members, lastUnder_wrapped hfront hback, rfl⟩))]

/-- Where something is, the wrapped text is none for the parser. -/
theorem ofText_wrapped_error (hkey : KeyText key "data_set_ids")
    (h : Written text (.object inner)) (hfront : Siblings before front)
    (hback : Siblings after back)
    (deep : nesting ≤ (Json.object inner).depth ∨ ∃ m ∈ front ++ back, nesting ≤ m.2.depth) :
    ofText file (wrapped before key text after) = .error (.config file (.text .malformed)) := by
  have hno : (keyed (front ++ ("data_set_ids", .object inner) :: back)).isReadable nesting =
      false := by
    rw [Bool.eq_false_iff, Ne, isReadable_wrapped_iff]
    rintro ⟨hinner, hothers⟩
    have hdeep : ∀ {j : Json}, j.isReadable (nesting - 1) = true → ¬ nesting ≤ j.depth :=
      fun hj => Nat.not_le.mpr ((Json.isReadable_inside_iff hj).mp hj)
    obtain hle | ⟨m, hm, hle⟩ := deep
    · exact hdeep hinner hle
    · exact hdeep (hothers m hm) hle
  rw [ofText, parse_malformed (written_wrapped hkey h hfront hback) hno]
  rfl

end
end Identity.Catalog

namespace Candidates
open Json (Written texts nesting)

section
variable {file text : String} {items : List Json} {paths : List String}

theorem strings?_eq_some_iff : strings? items = some paths ↔ .array items = texts paths := by
  rw [texts, Json.array.injEq]
  induction items generalizing paths with
  | nil =>
    rw [strings?, List.mapM_nil]
    simp [eq_comm]
  | cons j items ih =>
    rw [strings?, List.mapM_cons]
    cases j with
    | string s =>
      change (some s).bind (fun s => (strings? items).bind fun rest => some (s :: rest)) = _ ↔ _
      rw [Option.bind_some, Option.bind_eq_some_iff]
      constructor
      · rintro ⟨rest, hrest, he⟩
        cases he
        rw [ih.mp hrest, List.map_cons]
      · intro h
        cases paths with
        | nil => cases h
        | cons path paths =>
          obtain ⟨hs, hrest⟩ := List.cons.inj h
          cases hs
          exact ⟨paths, ih.mpr hrest, rfl⟩
    | _ =>
      constructor
      · intro h
        cases h
      · intro h
        cases paths with
        | nil => cases h
        | cons path paths => cases h

theorem reader_eq_ok_iff {j : Json} :
    reader j = .ok paths ↔ j.isReadable nesting = true ∧ paths? j = some paths := by
  unfold reader
  by_cases hr : j.isReadable nesting = true
  · rw [if_pos hr]
    cases paths? j with
    | none => simp
    | some found => simp [hr]
  · rw [if_neg hr]
    simp [hr]

theorem isReadable_texts {room : Nat} (h : 0 < room) :
    (texts paths).isReadable room = true := by
  rw [texts, Json.isReadable, Bool.and_eq_true, decide_eq_true_eq]
  refine ⟨h, ?_⟩
  induction paths with
  | nil => rfl
  | cons path paths ih => simpa [Json.readableItems, Json.isReadable] using ih

/-- A list of paths is told by what stands in it. -/
theorem ofText_array_iff (h : Written text (.array items)) :
    ofText file text = .ok paths ↔ .array items = texts paths := by
  rw [ofText, Json.readAs_written h, Except.mapError_eq_ok_iff, reader_eq_ok_iff, paths?,
    strings?_eq_some_iff]
  constructor
  · exact fun h => h.2
  · intro h
    rw [h]
    exact ⟨isReadable_texts (by decide), rfl⟩

theorem ofText_wrapped_array_iff {key : String} (hkey : Json.KeyText key "paths")
    (h : Written text (.array items)) :
    ofText file (Json.objectText [(key, text)]) = .ok paths ↔ .array items = texts paths := by
  have hwritten : Written (Json.objectText [(key, text)])
      (Json.keyed [("paths", .array items)]) := Json.written_object (.cons ⟨hkey, h⟩ .nil)
  have hpaths : paths? (Json.keyed [("paths", .array items)]) = strings? items := rfl
  rw [ofText, Json.readAs_written hwritten, Except.mapError_eq_ok_iff, reader_eq_ok_iff, hpaths,
    strings?_eq_some_iff, Json.isReadable_keyed_iff, List.forall_mem_singleton]
  constructor
  · exact fun h => h.2
  · intro h
    rw [h]
    exact ⟨⟨by decide, isReadable_texts (by decide)⟩, rfl⟩

end
end Candidates

namespace Identity
open Catalog (Siblings wrapped)
open Json (KeyText Written keyed lastUnder nesting objectText)

/-- A wrapping adds a level of nesting to a catalog and changes nothing else: what was read before
is read as the same, unless it was as deep as the parser goes. Paths are never so deep. -/
theorem wrapping_adds_one_level (file : String) :
    (∀ text inner, Written text (.object inner) → (∀ m ∈ inner, m.1 ≠ some "data_set_ids") →
      ∀ key, KeyText key "data_set_ids" → ∀ before after front back, Siblings before front →
        Siblings after back →
        ((Json.object inner).depth < nesting → (∀ m ∈ front ++ back, m.2.depth < nesting) →
          Catalog.ofText file (wrapped before key text after) = Catalog.ofText file text) ∧
        ((nesting ≤ (Json.object inner).depth ∨ ∃ m ∈ front ++ back, nesting ≤ m.2.depth) →
          ∃ fault, Catalog.ofText file (wrapped before key text after) = .error fault)) ∧
      ∀ text items, Written text (.array items) → ∀ key, KeyText key "paths" → ∀ paths,
        Candidates.ofText file text = .ok paths ↔
          Candidates.ofText file (objectText [(key, text)]) = .ok paths := by
  constructor
  · intro text inner h bare key hkey before after front back hfront hback
    constructor
    · intro hinner hothers
      exact Catalog.ofText_wrapped hkey h bare hfront hback hinner hothers
    · intro deep
      exact ⟨_, Catalog.ofText_wrapped_error hkey h hfront hback deep⟩
  · intro text items h key hkey paths
    rw [Candidates.ofText_array_iff h, Candidates.ofText_wrapped_array_iff hkey h]

def fullText : String := "\x7b\"full\":\x7b\"contains_all\":[\"S1\"]\x7d\x7d"

def fullMembers : List (String × Json) :=
  [(.ofList "full".toList,
    keyed [(.ofList "contains_all".toList, Json.texts [.ofList "S1".toList])])]

/-- The key of a wrapping with an escape for its last letter, and with blanks around it. -/
def escapedKey : String :=
  .ofList ([' '] ++ '"' :: ("data_set_id\\u0073\"".toList ++ ['\n']))

theorem keyText_escaped : KeyText escapedKey "data_set_ids" := by
  have hspells : Json.Literal.start.Spells "data_set_id\\u0073\"".toList
      (some (.ofList "data_set_ids".toList)) := by
    iterate 17 apply Json.Literal.Spells.more rfl
    exact .ends rfl
  exact .intro (by simp [Json.Reading.isBlank]) hspells (by simp [Json.Reading.isBlank])

theorem wrapping_adds_one_level_full :
    Catalog.ofText "ids" (wrapped [] escapedKey fullText [("\"version\"", "1")]) =
        Catalog.ofText "ids" fullText ∧
      (Candidates.ofText "paths" "[\"cd1\"]" = .ok ["cd1"] ↔
        Candidates.ofText "paths" (objectText [("\"paths\"", "[\"cd1\"]")]) = .ok ["cd1"]) := by
  have hfull : Written fullText (keyed fullMembers) := ⟨by rfl, by rfl⟩
  have hcd : Written "[\"cd1\"]" (Json.texts [.ofList "cd1".toList]) := ⟨by rfl, by rfl⟩
  have hpaths : KeyText "\"paths\"" "paths" := Json.keyText_quoted "paths" (by simp [Json.Plain])
  have hversion : Json.MemberWritten ("\"version\"", "1") ("version", .integer 1) :=
    ⟨Json.keyText_quoted "version" (by simp [Json.Plain]), ⟨by rfl, by rfl⟩⟩
  have hback : Siblings [("\"version\"", "1")] [("version", .integer 1)] :=
    ⟨.cons hversion .nil, by simp, by simp [Json.isReadable]⟩
  have hfront : Siblings [] [] := ⟨.nil, by simp, by simp⟩
  constructor
  · exact ((wrapping_adds_one_level "ids").1 _ _ hfull (by decide) _ keyText_escaped _ _ _ _
      hfront hback).1 (by decide) (by decide)
  · exact (wrapping_adds_one_level "paths").2 _ _ hcd _ hpaths _

/-- Objects in one another, the innermost of them empty. -/
def nested : Nat → Json
  | 0 => keyed []
  | n + 1 => keyed [("a", nested n)]

def nestedText : Nat → String
  | 0 => objectText []
  | n + 1 => objectText [("\"a\"", nestedText n)]

theorem written_nested (n : Nat) : Written (nestedText n) (nested n) := by
  induction n with
  | zero => exact Json.written_object .nil
  | succ n ih =>
    exact Json.written_object (.cons ⟨Json.keyText_quoted "a" (by simp [Json.Plain]), ih⟩ .nil)

theorem isReadable_nested_iff {n room : Nat} : (nested n).isReadable room = true ↔ n < room := by
  induction n generalizing room with
  | zero => simp [nested, Json.isReadable_keyed_iff]
  | succ n ih =>
    rw [nested, Json.isReadable_keyed_iff, List.forall_mem_singleton, ih]
    omega

/-- A key with two values. The first one, which the second replaces, makes the object as deep as the
parser goes. -/
def deepestText : String :=
  objectText [("\"X\"", nestedText 125), ("\"X\"", nestedText 0)]

def deepestMembers : List (String × Json) := [("X", nested 125), ("X", nested 0)]

theorem written_deepest : Written deepestText (keyed deepestMembers) := by
  have hkey : Json.KeyText "\"X\"" "X" := Json.keyText_quoted "X" (by simp [Json.Plain])
  exact Json.written_object
    (.cons ⟨hkey, written_nested 125⟩ (.cons ⟨hkey, written_nested 0⟩ .nil))

theorem isReadable_deepest_iff {room : Nat} :
    (keyed deepestMembers).isReadable room = true ↔ nesting ≤ room := by
  rw [Json.isReadable_keyed_iff]
  simp only [deepestMembers, List.forall_mem_cons, isReadable_nested_iff, nesting]
  simp only [List.not_mem_nil, false_implies, implies_true, and_true]
  omega

theorem spells_deepest : Catalog.Spells deepestText deepestMembers [("X", ⟨[], [], []⟩)] where
  text := .bare written_deepest.document (isReadable_deepest_iff.mpr le_rfl) rfl
  keys := by simp [deepestMembers, Json.keysOf, List.eraseDups_cons]
  values := by
    have hlast : lastUnder deepestMembers "X" = some (keyed []) := rfl
    have hspelled : Fingerprint.Spelled (keyed []) ⟨[], [], []⟩ :=
      .object (by simp [Json.keysOf]) (.inr ⟨rfl, rfl⟩) (.inr ⟨rfl, rfl⟩) (.inr ⟨rfl, rfl⟩)
    exact List.forall_mem_singleton.mpr ⟨_, hlast, hspelled⟩

/-- A catalog as deep as the parser goes is one on its own and none in a wrapping. -/
theorem deepest_catalog_breaks_wrapped : ¬ ∀ (file text : String)
    (inner : List (Option String × Json)), Written text (.object inner) →
      (∀ m ∈ inner, m.1 ≠ some "data_set_ids") →
        ∀ key, KeyText key "data_set_ids" → ∀ before after front back, Siblings before front →
          Siblings after back →
            ((∃ catalog, Catalog.ofText file text = .ok catalog) ↔
              ∃ catalog, Catalog.ofText file (wrapped before key text after) = .ok catalog) := by
  intro hall
  have hnone : Siblings [] [] := ⟨.nil, by simp, by simp⟩
  have hbare : ∀ m ∈ deepestMembers.map Json.member, m.1 ≠ some "data_set_ids" := by
    simp [deepestMembers, Json.member]
  have hreadable := isReadable_deepest_iff.mpr (le_refl nesting)
  have hdeep : nesting ≤ (keyed deepestMembers).depth :=
    isReadable_deepest_iff.mp ((Json.isReadable_iff_depth hreadable).mpr le_rfl)
  have hkey : KeyText "\"data_set_ids\"" "data_set_ids" :=
    Json.keyText_quoted "data_set_ids" (by simp [Json.Plain])
  obtain ⟨catalog, hcatalog⟩ := (hall "ids" _ _ written_deepest hbare _ hkey _ _ _ _ hnone hnone).mp
    ⟨_, spells_deepest.ofText "ids"⟩
  have hfault : Catalog.ofText "ids" (wrapped [] "\"data_set_ids\"" deepestText []) = _ :=
    Catalog.ofText_wrapped_error hkey written_deepest hnone hnone (.inl hdeep)
  rw [hfault] at hcatalog
  cases hcatalog

end Identity
end LayeredAssets
