import LayeredAssets.PathTable
import LayeredAssets.Proofs.Except
import LayeredAssets.Proofs.Identity.Catalogs
import LayeredAssets.Proofs.Table

namespace LayeredAssets

namespace Identity.Catalog

/-- A catalog that a program can have: the empty one, or one that a text became. -/
inductive Given : Catalog → Prop where
  | empty : Given empty
  | read {file text : String} {catalog : Catalog} (h : ofText file text = .ok catalog) :
      Given catalog

/-- A path is one of an identity: it can be opened, and what it holds is identified so. -/
def Identifies (catalog : Catalog) (host : Host) (path name : String) : Prop :=
  ∃ b, Backend.ofDataPath host path = .ok b ∧ catalog.identify? (b.isFile host) = some name

section
variable {catalog : Catalog} {host : Host} {path name : String}

theorem Given.nodup (h : catalog.Given) : (catalog.entries.map Prod.fst).Nodup := by
  cases h with
  | empty => exact List.nodup_nil
  | read h =>
    obtain ⟨members, hspells⟩ := ofText_eq_ok_iff.mp h
    exact hspells.nodup

theorem given_of_load {b : Backend} {file : String} (h : load host b file = .ok catalog) :
    catalog.Given := by
  unfold load at h
  split at h
  · obtain ⟨text, -, htext⟩ := Except.bind_eq_ok_iff.mp h
    exact .read htext
  · cases h
    exact .empty

theorem identifyPath?_eq_some_iff :
    catalog.identifyPath? host path = some name ↔ catalog.Identifies host path name := by
  unfold identifyPath? Identifies
  cases Backend.ofDataPath host path with
  | error fault => simp
  | ok b => simp

/-- A path that cannot be opened, and one that is opened without being told, have no identity. -/
theorem identifyPath?_eq_none_iff : catalog.identifyPath? host path = none ↔
    ∀ b, Backend.ofDataPath host path = .ok b → catalog.identify? (b.isFile host) = none := by
  unfold identifyPath?
  cases Backend.ofDataPath host path with
  | error fault => simp
  | ok b => simp

theorem Identifies.unique {other : String} (h : catalog.Identifies host path name)
    (h' : catalog.Identifies host path other) : name = other := by
  rw [← identifyPath?_eq_some_iff] at h h'
  exact Option.some.inj (h.symm.trans h')

theorem Identifies.isMeta (h : catalog.Identifies host path name) (given : catalog.Given) :
    catalog.isMeta name = false := by
  obtain ⟨b, -, hname⟩ := h
  exact isMeta_of_identify? given.nodup hname

end
end Identity.Catalog

namespace PathTable
open Identity (Catalog)

section
variable {host : Host} {catalog : Catalog}

/-- What one candidate does to the table. -/
def take (host : Host) (catalog : Catalog) (bindings : Table String String) (path : String) :
    Table String String :=
  match catalog.identifyPath? host path with
  | some name => bind bindings name path
  | none => bindings

theorem ofCandidates_eq (candidates : List String) : ofCandidates host catalog candidates =
    ⟨catalog, candidates.foldl (take host catalog) .empty⟩ := rfl

theorem get?_bind (bindings : Table String String) (name path wanted : String) :
    (bind bindings name path).get? wanted =
      (bindings.get? wanted).or (if name = wanted then some path else none) := by
  unfold bind Table.contains
  by_cases hname : name = wanted
  · subst hname
    cases hbound : bindings.get? name with
    | some bound => simp [hbound]
    | none => simp [Table.get?_set]
  · rw [if_neg hname, Option.or_none]
    split
    · rfl
    · rw [Table.get?_set, if_neg hname]

/-- A candidate fills the place of its own identity if that is free, and no other. -/
theorem get?_take (bindings : Table String String) (path wanted : String) :
    (take host catalog bindings path).get? wanted = (bindings.get? wanted).or
      (if catalog.identifyPath? host path = some wanted then some path else none) := by
  unfold take
  cases catalog.identifyPath? host path with
  | none => simp
  | some name => simp [get?_bind]

theorem get?_foldl_take (bindings : Table String String) (candidates : List String)
    (wanted : String) : (candidates.foldl (take host catalog) bindings).get? wanted =
      (bindings.get? wanted).or
        (candidates.find? fun path => catalog.identifyPath? host path = some wanted) := by
  -- The candidates are tried behind whatever is bound already, so the induction is over any table.
  induction candidates generalizing bindings with
  | nil => simp
  | cons path candidates ih =>
    rw [List.foldl_cons, ih, get?_take, Option.or_assoc, List.find?_cons]
    by_cases hpath : catalog.identifyPath? host path = some wanted
    · simp [hpath]
    · simp [hpath]

/-- The table finds the first candidate of each identity. -/
theorem path?_ofCandidates (candidates : List String) (name : String) :
    (ofCandidates host catalog candidates).path? name =
      candidates.find? fun path => catalog.identifyPath? host path = some name := by
  rw [ofCandidates_eq, path?, get?_foldl_take]
  rfl

theorem path?_eq_some_iff {candidates : List String} {name path : String} :
    (ofCandidates host catalog candidates).path? name = some path ↔ ∃ before after,
      candidates = before ++ path :: after ∧ catalog.Identifies host path name ∧
        ∀ other ∈ before, ¬ catalog.Identifies host other name := by
  rw [path?_ofCandidates, List.find?_eq_some_iff_append]
  simp only [decide_eq_true_eq, Bool.not_eq_true', decide_eq_false_iff_not,
    Catalog.identifyPath?_eq_some_iff]
  constructor
  · rintro ⟨hpath, before, after, hcandidates, hbefore⟩
    exact ⟨before, after, hcandidates, hpath, hbefore⟩
  · rintro ⟨before, after, hcandidates, hpath, hbefore⟩
    exact ⟨hpath, before, after, hcandidates, hbefore⟩

theorem identifies_of_path? {candidates : List String} {name path : String}
    (h : (ofCandidates host catalog candidates).path? name = some path) :
    catalog.Identifies host path name := by
  obtain ⟨_, _, _, hpath, _⟩ := path?_eq_some_iff.mp h
  exact hpath

theorem path?_append {candidates : List String} {name path : String}
    (h : (ofCandidates host catalog candidates).path? name = some path) (more : List String) :
    (ofCandidates host catalog (candidates ++ more)).path? name = some path := by
  rw [path?_ofCandidates] at h ⊢
  rw [List.find?_append, h, Option.some_or]

/-- A candidate without identity can be left out. -/
theorem ofCandidates_skip {path : String} (h : catalog.identifyPath? host path = none)
    (before after : List String) : ofCandidates host catalog (before ++ path :: after) =
      ofCandidates host catalog (before ++ after) := by
  have hskip : ∀ bindings, take host catalog bindings path = bindings := by
    intro bindings
    rw [take, h]
  simp [ofCandidates_eq, List.foldl_append, hskip]

theorem not_mem_missing {table : PathTable} {name : String} (h : table.catalog.isMeta name = true)
    (names : List String) : name ∉ table.missing names := by
  simp [missing, h]

end

/-- Each identity has the first candidate that is identified as it, and this alone says where the
identities lie. Candidates that cannot be opened or told apart may stand anywhere, and candidates
that are added behind the others take nothing away. -/
theorem first_identified_is_bound {catalog : Catalog} (given : catalog.Given) (host : Host)
    (candidates : List String) :
    (∀ name path, (ofCandidates host catalog candidates).path? name = some path ↔
        ∃ before after, candidates = before ++ path :: after ∧
          catalog.Identifies host path name ∧
            ∀ other ∈ before, ¬ catalog.Identifies host other name) ∧
      (∀ name path, (ofCandidates host catalog candidates).path? name = some path →
        catalog.Identifies host path name) ∧
      (∀ name other path, (ofCandidates host catalog candidates).path? name = some path →
        (ofCandidates host catalog candidates).path? other = some path → name = other) ∧
      (∀ name, catalog.isMeta name = true →
        (ofCandidates host catalog candidates).path? name = none ∧
          ∀ names, name ∉ (ofCandidates host catalog candidates).missing names) ∧
      (∀ before path after, candidates = before ++ path :: after →
        (∀ b, Backend.ofDataPath host path = .ok b →
          catalog.identify? (b.isFile host) = none) →
        ofCandidates host catalog candidates = ofCandidates host catalog (before ++ after)) ∧
      ∀ more name path, (ofCandidates host catalog candidates).path? name = some path →
        (ofCandidates host catalog (candidates ++ more)).path? name = some path := by
  refine ⟨?_, ?_, ?_, ?_, ?_, ?_⟩
  · intro name path
    exact path?_eq_some_iff
  · intro name path
    exact identifies_of_path?
  · intro name other path h h'
    exact (identifies_of_path? h).unique (identifies_of_path? h')
  · intro name hmeta
    constructor
    · rw [Option.eq_none_iff_forall_ne_some]
      intro path hpath
      have hno := (identifies_of_path? hpath).isMeta given
      rw [hno] at hmeta
      cases hmeta
    · exact not_mem_missing hmeta
  · rintro before path after rfl hnone
    exact ofCandidates_skip (Catalog.identifyPath?_eq_none_iff.mpr hnone) before after
  · intro more name path h
    exact path?_append h more

/-- Two places of the demo, and a place that holds nothing of it. -/
def demoPlaces : Host :=
  ⟨[(["first"], .folder), (["first", "D1"], .file []), (["notes"], .folder),
    (["notes", "A.TXT"], .file []), (["second"], .folder), (["second", "D1"], .file [])], []⟩

def demoCatalog : Catalog := ⟨Catalog.demoPrints⟩

theorem first_identified_is_bound_demo : demoCatalog.Given ∧
    (ofCandidates demoPlaces demoCatalog ["lost", "first", "notes", "second"]).path? "demo" =
      some "first" ∧
    (ofCandidates demoPlaces demoCatalog ["lost", "first", "notes", "second"]).path? "group" =
      none ∧
    ofCandidates demoPlaces demoCatalog ["lost", "first", "notes", "second"] =
      ofCandidates demoPlaces demoCatalog ["first", "notes", "second"] := by
  have given : demoCatalog.Given := .read (Catalog.spells_demo.ofText "ids")
  have hlost : demoCatalog.identifyPath? demoPlaces "lost" = none := by decide +kernel
  have hfirst : demoCatalog.Identifies demoPlaces "first" "demo" :=
    Catalog.identifyPath?_eq_some_iff.mp (by decide +kernel)
  obtain ⟨hbound, -, -, hmeta, hskip, -⟩ := first_identified_is_bound given demoPlaces
    ["lost", "first", "notes", "second"]
  refine ⟨given, ?_, (hmeta "group" (by decide)).1, ?_⟩
  · refine (hbound _ _).mpr ⟨["lost"], _, rfl, hfirst, List.forall_mem_singleton.mpr ?_⟩
    rw [← Catalog.identifyPath?_eq_some_iff, hlost]
    simp
  · exact hskip [] _ _ rfl (Catalog.identifyPath?_eq_none_iff.mp hlost)

end PathTable
end LayeredAssets
