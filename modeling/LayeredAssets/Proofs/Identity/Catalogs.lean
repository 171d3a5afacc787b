import LayeredAssets.Identity.Catalog
import LayeredAssets.Proofs.Identity.Fingerprints
import Mathlib.Data.Finset.Card

namespace LayeredAssets.Identity.Catalog
open Json (Document keyed keysOf lastUnder member named nesting)

/-- The text is an object of identities, or an object that keeps such a one under a key of its own.
No key counts but the last of its name. -/
inductive TextOf (text : String) : List (String × Json) → Prop where
  | bare {members : List (String × Json)}
      (document : Document.ofText text = ⟨keyed members, false⟩)
      (readable : (keyed members).isReadable nesting = true)
      (unwrapped : lastUnder members "data_set_ids" = none) : TextOf text members
  | wrapped {outer members : List (String × Json)}
      (document : Document.ofText text = ⟨keyed outer, false⟩)
      (readable : (keyed outer).isReadable nesting = true)
      (wraps : lastUnder outer "data_set_ids" = some (keyed members)) : TextOf text members

/-- A catalog as its text spells it: the keys, each where it stands first, and with each of them the
fingerprint that its last value spells. -/
structure Spells (text : String) (members : List (String × Json))
    (prints : List (String × Fingerprint)) : Prop where
  text : TextOf text members
  keys : prints.map Prod.fst = keysOf members
  values : ∀ p ∈ prints, ∃ j, lastUnder members p.1 = some j ∧ Fingerprint.Spelled j p.2

section
variable {file text : String} {members : List (String × Json)}
  {prints : List (String × Fingerprint)} {catalog : Catalog}

theorem readEntry_eq_ok_iff {m : String × Json} {entry : String × Fingerprint} :
    readEntry m = .ok entry ↔ entry.1 = m.1 ∧ Fingerprint.reader .value m.2 = .ok entry.2 := by
  obtain ⟨name, print⟩ := entry
  unfold readEntry
  cases Fingerprint.reader .value m.2 with
  | error complaint => simp
  | ok other => simp [eq_comm]

/-- What a text has to hold for its members to become a catalog. -/
theorem parse_eq_ok_iff : parse text = .ok catalog ↔ ∃ outer members,
    Document.readAs (Json.Reader.members nesting) text = .ok outer ∧ unwrap outer = .ok members ∧
      members.mapM readEntry = .ok catalog.entries := by
  unfold parse
  simp only [bind, Except.bind_eq_ok_iff, Except.mapError_eq_ok_iff]
  constructor
  · rintro ⟨outer, houter, members, hmembers, entries, hentries, he⟩
    cases he
    exact ⟨outer, members, houter, hmembers, hentries⟩
  · rintro ⟨outer, members, houter, hmembers, hentries⟩
    exact ⟨outer, houter, members, hmembers, catalog.entries, hentries, rfl⟩

theorem readAs_members_iff {object : List (String × Json)} :
    Document.readAs (Json.Reader.members nesting) text = .ok object ↔ ∃ members,
      Document.ofText text = ⟨keyed members, false⟩ ∧
        (keyed members).isReadable nesting = true ∧ object = named (members.map member) := by
  rw [Json.Document.readAs_eq_ok_iff, Json.Reader.members_eq_ok_iff]
  cases Document.ofText text with
  | mk root surplus =>
    constructor
    · rintro ⟨⟨inner, rfl, hreadable, hobject⟩, rfl⟩
      obtain ⟨members, rfl⟩ := Json.exists_keyed_of_readable hreadable
      exact ⟨members, rfl, hreadable, hobject⟩
    · rintro ⟨members, hdocument, hreadable, hobject⟩
      cases hdocument
      exact ⟨⟨_, rfl, hreadable, hobject⟩, rfl⟩

/-- An object keeps its members under the key of a wrapping, or is what is wanted itself. -/
theorem unwrap_named_iff {outer object : List (String × Json)}
    (readable : (keyed outer).isReadable nesting = true) :
    unwrap (named (outer.map member)) = .ok object ↔
      lastUnder outer "data_set_ids" = none ∧ object = named (outer.map member) ∨
        ∃ members, lastUnder outer "data_set_ids" = some (keyed members) ∧
          object = named (members.map member) := by
  rw [unwrap, Json.lookup_named]
  cases hlast : lastUnder outer "data_set_ids" with
  | none => simp [eq_comm]
  | some j =>
    have hj := Json.readable_of_mem readable (Json.mem_of_lastUnder hlast)
    cases j with
    | object inner =>
      obtain ⟨members, rfl⟩ := Json.exists_keyed_of_readable hj
      have hmerged : (Json.object (members.map member)).merged =
          .object ((named (members.map member)).map member) := Json.merged_keyed members
      rw [Option.map_some, hmerged]
      simp only [Json.entries_member, Except.ok.injEq, reduceCtorEq, false_and, false_or]
      constructor
      · rintro rfl
        exact ⟨members, rfl, rfl⟩
      · rintro ⟨others, hsame, rfl⟩
        obtain rfl := Json.keyed_injective (Option.some.inj hsame)
        rfl
    | _ => simp [Json.merged, keyed]

theorem textOf_iff {object : List (String × Json)} :
    (∃ outer, Document.readAs (Json.Reader.members nesting) text = .ok outer ∧
        unwrap outer = .ok object) ↔
      ∃ members, TextOf text members ∧ object = named (members.map member) := by
  constructor
  · rintro ⟨outer, houter, hobject⟩
    obtain ⟨members, hdocument, hreadable, rfl⟩ := readAs_members_iff.mp houter
    obtain ⟨hlast, rfl⟩ | ⟨inner, hlast, rfl⟩ := (unwrap_named_iff hreadable).mp hobject
    · exact ⟨members, .bare hdocument hreadable hlast, rfl⟩
    · exact ⟨inner, .wrapped hdocument hreadable hlast, rfl⟩
  · rintro ⟨members, htext, rfl⟩
    cases htext with
    | bare hdocument hreadable hlast =>
      exact ⟨_, readAs_members_iff.mpr ⟨_, hdocument, hreadable, rfl⟩,
        (unwrap_named_iff hreadable).mpr (.inl ⟨hlast, rfl⟩)⟩
    | wrapped hdocument hreadable hlast =>
      exact ⟨_, readAs_members_iff.mpr ⟨_, hdocument, hreadable, rfl⟩,
        (unwrap_named_iff hreadable).mpr (.inr ⟨members, hlast, rfl⟩)⟩

theorem TextOf.readable (h : TextOf text members) :
    ∃ room, (keyed members).isReadable room = true := by
  cases h with
  | bare _ hreadable _ => exact ⟨_, hreadable⟩
  | wrapped _ hreadable hlast =>
    exact ⟨_, Json.readable_of_mem hreadable (Json.mem_of_lastUnder hlast)⟩

/-- The members become a catalog when each spells a fingerprint where it counts. -/
theorem mapM_readEntry_iff {room : Nat} (readable : (keyed members).isReadable room = true) :
    (named (members.map member)).mapM readEntry = .ok prints ↔
      prints.map Prod.fst = keysOf members ∧
        ∀ p ∈ prints, ∃ j, lastUnder members p.1 = some j ∧ Fingerprint.Spelled j p.2 := by
  rw [Except.mapM_eq_ok_iff]
  simp only [readEntry_eq_ok_iff]
  rw [Json.forall₂_named_iff (R := fun j print => Fingerprint.reader .value j = .ok print)]
  apply and_congr_right
  intro _
  apply forall₂_congr
  intro p _
  apply exists_congr
  intro j
  apply and_congr_right
  intro hlast
  have hj := Json.readable_of_mem readable (Json.mem_of_lastUnder hlast)
  exact Fingerprint.reader_merged_iff hj

/-- A text that becomes a catalog spells it. -/
theorem ofText_eq_ok_iff :
    ofText file text = .ok catalog ↔ ∃ members, Spells text members catalog.entries := by
  rw [ofText, Except.mapError_eq_ok_iff, parse_eq_ok_iff]
  constructor
  · rintro ⟨outer, object, houter, hobject, hentries⟩
    obtain ⟨members, htext, rfl⟩ := textOf_iff.mp ⟨outer, houter, hobject⟩
    obtain ⟨room, hreadable⟩ := htext.readable
    obtain ⟨hkeys, hvalues⟩ := (mapM_readEntry_iff hreadable).mp hentries
    exact ⟨members, htext, hkeys, hvalues⟩
  · rintro ⟨members, htext, hkeys, hvalues⟩
    obtain ⟨room, hreadable⟩ := htext.readable
    obtain ⟨outer, houter, hobject⟩ := textOf_iff.mpr ⟨members, htext, rfl⟩
    exact ⟨outer, _, houter, hobject, (mapM_readEntry_iff hreadable).mpr ⟨hkeys, hvalues⟩⟩

/-- No key stands twice in a catalog. -/
theorem Spells.nodup (h : Spells text members prints) : (prints.map Prod.fst).Nodup := by
  rw [h.keys]
  exact Json.nodup_keysOf members

theorem Spells.ofText (h : Spells text members prints) (file : String) :
    ofText file text = .ok ⟨prints⟩ := ofText_eq_ok_iff.mpr ⟨members, h⟩

theorem identify?_eq_some_iff {holds : String → Bool} {name : String} :
    catalog.identify? holds = some name ↔ ∃ before print after,
      catalog.entries = before ++ (name, print) :: after ∧ print.Suits holds ∧
        ∀ other ∈ before, ¬ other.2.Suits holds := by
  rw [identify?, Option.map_eq_some_iff]
  constructor
  · rintro ⟨⟨name, print⟩, hfind, rfl⟩
    obtain ⟨hfits, before, after, hentries, hbefore⟩ := List.find?_eq_some_iff_append.mp hfind
    refine ⟨before, print, after, hentries, Fingerprint.fits_iff_suits.mp hfits, ?_⟩
    intro other hother hsuits
    simpa [Fingerprint.fits_iff_suits.mpr hsuits] using hbefore other hother
  · rintro ⟨before, print, after, hentries, hsuits, hbefore⟩
    refine ⟨(name, print), List.find?_eq_some_iff_append.mpr ?_, rfl⟩
    refine ⟨Fingerprint.fits_iff_suits.mpr hsuits, before, after, hentries, ?_⟩
    intro other hother
    simpa [← Fingerprint.fits_iff_suits] using hbefore other hother

theorem isMeta_iff_mem {name : String} :
    catalog.isMeta name = true ↔ (name, ⟨[], [], []⟩) ∈ catalog.entries := by
  rw [isMeta, List.any_eq_true]
  simp only [Bool.and_eq_true, beq_iff_eq, Fingerprint.isMeta_iff]
  constructor
  · rintro ⟨⟨name, print⟩, hm, rfl, rfl⟩
    exact hm
  · intro hm
    exact ⟨_, hm, rfl, rfl⟩

/-- What is identified asks for something: where no key stands twice, a name that only groups
others is never returned. -/
theorem isMeta_of_identify? (distinct : (catalog.entries.map Prod.fst).Nodup)
    {holds : String → Bool} {name : String} (h : catalog.identify? holds = some name) :
    catalog.isMeta name = false := by
  obtain ⟨before, print, after, hentries, hsuits, -⟩ := identify?_eq_some_iff.mp h
  rw [Bool.eq_false_iff]
  intro hmeta
  have hm : (name, print) ∈ catalog.entries := by simp [hentries]
  have hprint := List.inj_on_of_nodup_map distinct (isMeta_iff_mem.mp hmeta) hm rfl
  exact Fingerprint.not_suits_of_isMeta (Fingerprint.isMeta_iff.mpr (Prod.mk.inj hprint).2.symm)
    hsuits

theorem Spells.size (h : Spells text members prints) :
    (⟨prints⟩ : Catalog).size = (members.map Prod.fst).toFinset.card := by
  have hkeys : (members.map Prod.fst).toFinset = (keysOf members).toFinset := by
    ext key
    simp [keysOf, List.mem_eraseDups]
  rw [hkeys, List.toFinset_card_of_nodup (Json.nodup_keysOf members), ← h.keys, List.length_map]
  rfl

/-- A text becomes a catalog exactly when it spells one. The catalog then identifies a place, which
is given by the files that it holds, as the first key whose fingerprint suits the place. Its size is
the number of keys that the text has. -/
theorem identification_follows_text (file text : String) :
    ((∃ catalog, ofText file text = .ok catalog) ↔ ∃ members prints, Spells text members prints) ∧
      (∀ members prints, Spells text members prints → ∃ catalog, ofText file text = .ok catalog ∧
        (∀ holds name, catalog.identify? holds = some name ↔ ∃ before print after,
          prints = before ++ (name, print) :: after ∧ print.Suits holds ∧
            ∀ other ∈ before, ¬ other.2.Suits holds) ∧
        (∀ name, catalog.isMeta name = true ↔ (name, ⟨[], [], []⟩) ∈ prints) ∧
        (∀ holds name, catalog.identify? holds = some name → catalog.isMeta name = false) ∧
        catalog.size = (members.map Prod.fst).toFinset.card) ∧
      ∀ (print : Fingerprint) (holds more : String → Bool),
        (∀ name, holds name = true → more name = true) →
        (∀ name ∈ print.noneOf, holds name = more name) →
        print.fits holds = true → print.fits more = true := by
  refine ⟨?_, ?_, ?_⟩
  · constructor
    · rintro ⟨catalog, h⟩
      obtain ⟨members, hspells⟩ := ofText_eq_ok_iff.mp h
      exact ⟨members, catalog.entries, hspells⟩
    · rintro ⟨members, prints, h⟩
      exact ⟨⟨prints⟩, h.ofText file⟩
  · intro members prints h
    refine ⟨⟨prints⟩, h.ofText file, ?_, ?_, ?_, h.size⟩
    · intro holds name
      exact identify?_eq_some_iff
    · intro name
      exact isMeta_iff_mem
    · intro holds name
      exact isMeta_of_identify? h.nodup
  · intro print holds more grows same hfits
    exact Fingerprint.fits_iff_suits.mpr
      ((Fingerprint.fits_iff_suits.mp hfits).mono grows same)

/-- A wrapped catalog: `demo` stands twice and its last value is an array, `group` asks for
nothing. -/
def demoText : String :=
  "\x7b\"data_set_ids\":\x7b\"demo\":\x7b\x7d,\"group\":\x7b\x7d," ++
    "\"full\":\x7b\"contains_all\":[\"S1\"]\x7d," ++
    "\"demo\":[[\"D1\"],[],[\"S1\"]]\x7d,\"version\":1\x7d"

def demoMembers : List (String × Json) :=
  [(.ofList "demo".toList, .object []), (.ofList "group".toList, .object []),
    (.ofList "full".toList,
      Json.keyed [(.ofList "contains_all".toList, Json.texts [.ofList "S1".toList])]),
    (.ofList "demo".toList, .array [Json.texts [.ofList "D1".toList], .array [],
      Json.texts [.ofList "S1".toList]])]

def demoPrints : List (String × Fingerprint) :=
  [("demo", ⟨["D1"], [], ["S1"]⟩), ("group", ⟨[], [], []⟩), ("full", ⟨[], ["S1"], []⟩)]

theorem spells_demo : Spells demoText demoMembers demoPrints where
  text := by
    have hdocument : Document.ofText demoText = ⟨keyed [(.ofList "data_set_ids".toList,
        keyed demoMembers), (.ofList "version".toList, .integer 1)], false⟩ := by rfl
    exact .wrapped hdocument (by rfl) (by rfl)
  keys := by decide
  values := by
    have hdemo : Fingerprint.Spelled (.array [Json.texts [.ofList "D1".toList], .array [],
        Json.texts [.ofList "S1".toList]]) ⟨["D1"], [], ["S1"]⟩ :=
      .array (by decide) (.inl rfl) (.inl rfl) (.inl rfl)
    have hgroup : Fingerprint.Spelled (Json.keyed []) ⟨[], [], []⟩ :=
      .object (by simp [keysOf]) (.inr ⟨rfl, rfl⟩) (.inr ⟨rfl, rfl⟩) (.inr ⟨rfl, rfl⟩)
    have hfull : Fingerprint.Spelled (Json.keyed [(.ofList "contains_all".toList,
        Json.texts [.ofList "S1".toList])]) ⟨[], ["S1"], []⟩ :=
      .object (by decide) (.inr ⟨rfl, rfl⟩) (.inl rfl) (.inr ⟨rfl, rfl⟩)
    simp only [demoPrints, List.forall_mem_cons]
    exact ⟨⟨_, rfl, hdemo⟩, ⟨_, rfl, hgroup⟩, ⟨_, rfl, hfull⟩, by simp⟩

theorem identification_follows_text_demo :
    Spells demoText demoMembers demoPrints ∧
      ∃ catalog, ofText "ids" demoText = .ok catalog ∧
        catalog.identify? (fun name => name == "D1") = some "demo" ∧
        catalog.identify? (fun name => name == "D1" || name == "S1") = some "full" ∧
        catalog.isMeta "group" = true ∧ catalog.size = 3 ∧
        (⟨["D1"], [], ["S1"]⟩ : Fingerprint).fits (fun name => name == "D1" || name == "D2") =
          true := by
  obtain ⟨-, hread, hmore⟩ := identification_follows_text "ids" demoText
  obtain ⟨catalog, hcatalog, hidentify, hmeta, -, hsize⟩ := hread _ _ spells_demo
  refine ⟨spells_demo, catalog, hcatalog, ?_, ?_, ?_, ?_, ?_⟩
  · refine (hidentify _ _).mpr ⟨[], _, _, rfl, ?_, by simp⟩
    exact Fingerprint.fits_iff_suits.mp (by decide)
  · refine (hidentify _ _).mpr ⟨demoPrints.take 2, _, [], rfl, ?_, ?_⟩
    · exact Fingerprint.fits_iff_suits.mp (by decide)
    · simp only [← Fingerprint.fits_iff_suits]
      decide
  · exact (hmeta _).mpr (by simp [demoPrints])
  · rw [hsize]
    decide
  · exact hmore _ (fun name => name == "D1") _ (by simp +contextual) (by simp) (by decide)

end
end LayeredAssets.Identity.Catalog
