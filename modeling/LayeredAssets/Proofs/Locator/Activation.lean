import LayeredAssets.Proofs.Dependencies.Reachable
import LayeredAssets.Proofs.Except
import LayeredAssets.Proofs.Locator.Provenance

namespace LayeredAssets.PathTable

open Dependencies (Reachable owner? owner?_of_mem)

/-- An entry that becomes active: it does more than group others, and it is known where it lies. -/
def keeps (table : PathTable) (p : Priority) : Bool :=
  !table.catalog.isMeta p.name && (p.isMod || (table.path? p.name).isSome)

/-- An entry and the data set that it becomes. It is opened where it lies: a mod where its
definition was read from, and anything else at the path that is bound to its name. -/
structure Opens (table : PathTable) (host : Host) (p : Priority) (s : ActiveSet) : Prop where
  name : s.name = p.name
  isMod : s.isMod = p.source.isMod
  opened : ∃ path, table.bound? p = some path ∧ Backend.ofDataPath host path = .ok s.backend

section
variable {table : PathTable} {host : Host} {p : Priority} {priorities : List Priority}
  {active : List ActiveSet}

theorem wanted?_of_dropped (h : table.keeps p = false) (hp : p.path = none) :
    table.wanted? p = none := by
  unfold wanted?
  split
  · rfl
  · next hm =>
    have hn : p.isMod = false ∧ table.path? p.name = none := by simpa [keeps, hm] using h
    rw [hp, bound?, hn.1, hn.2]
    rfl

theorem wanted?_of_kept (h : table.keeps p = true) (hp : p.path = none) :
    ∃ path, table.bound? p = some path ∧ table.wanted? p = some (p, path) := by
  simp only [keeps, Bool.and_eq_true, Bool.not_eq_true', Bool.or_eq_true] at h
  obtain ⟨hm, hplace⟩ := h
  have hb : ∃ path, table.bound? p = some path := by
    unfold bound?
    split
    · exact ⟨_, rfl⟩
    · next hn => exact Option.isSome_iff_exists.mp (hplace.resolve_left hn)
  obtain ⟨path, hb⟩ := hb
  refine ⟨path, hb, ?_⟩
  rw [wanted?, hm, hp, hb]
  rfl

theorem openEntry_eq_ok_iff {path : String} {s : ActiveSet} (hb : table.bound? p = some path) :
    openEntry host (p, path) = .ok s ↔ table.Opens host p s := by
  rw [openEntry, Except.map_eq_ok_iff]
  constructor
  · intro h
    obtain ⟨backend, ho, rfl⟩ := h
    exact ⟨rfl, rfl, path, hb, ho⟩
  · intro h
    obtain ⟨path', hb', ho⟩ := h.opened
    obtain rfl := Option.some.inj (hb.symm.trans hb')
    obtain ⟨name, isMod, backend⟩ := s
    obtain rfl := h.name
    obtain rfl := h.isMod
    exact ⟨backend, ho, rfl⟩

/-- A list that can be activated becomes the data sets of the entries that are kept. -/
theorem activate_eq_ok_iff (hp : ∀ p ∈ priorities, p.path = none) :
    table.activate host priorities = .ok active ↔
      List.Forall₂ (table.Opens host) (priorities.filter table.keeps) active := by
  rw [activate, Except.mapM_eq_ok_iff]
  induction priorities generalizing active with
  | nil => rw [List.filterMap_nil, List.filter_nil, List.forall₂_nil_left_iff,
      List.forall₂_nil_left_iff]
  | cons p rest ih =>
    have hrest : ∀ p ∈ rest, p.path = none := fun p hm => hp p (List.mem_cons_of_mem _ hm)
    cases hk : table.keeps p with
    | false =>
      rw [List.filterMap_cons_none (wanted?_of_dropped hk (hp p List.mem_cons_self)),
        List.filter_cons_of_neg (by simp [hk])]
      exact ih hrest
    | true =>
      obtain ⟨path, hb, hw⟩ := wanted?_of_kept hk (hp p List.mem_cons_self)
      rw [List.filterMap_cons_some hw, List.filter_cons_of_pos hk, List.forall₂_cons_left_iff,
        List.forall₂_cons_left_iff]
      simp only [openEntry_eq_ok_iff hb, ih hrest]

/-- A list that cannot be activated has an entry to blame. -/
theorem activate_eq_error {fault : Fault} (hp : ∀ p ∈ priorities, p.path = none)
    (h : table.activate host priorities = .error fault) :
    ∃ p ∈ priorities.filter table.keeps, ∃ path, table.bound? p = some path ∧
      Backend.ofDataPath host path = .error fault := by
  obtain ⟨entry, he, hf⟩ := Except.mapM_eq_error h
  obtain ⟨p, hm, hw⟩ := List.mem_filterMap.mp he
  cases hk : table.keeps p with
  | false =>
    rw [wanted?_of_dropped hk (hp p hm)] at hw
    cases hw
  | true =>
    obtain ⟨path, hb, hw'⟩ := wanted?_of_kept hk (hp p hm)
    obtain rfl := Option.some.inj (hw'.symm.trans hw)
    exact ⟨p, List.mem_filter.mpr ⟨hm, hk⟩, path, hb, Except.map_eq_error_iff.mp hf⟩

/-- Telling an entry beforehand where it lies changes the entry, and not where it is opened. -/
theorem wanted?_resolved (table : PathTable) (hp : p.path = none) :
    table.wanted? p = none ∧ table.wanted? { p with path := table.bound? p } = none ∨
      ∃ path, table.wanted? p = some (p, path) ∧
        table.wanted? { p with path := table.bound? p } =
          some ({ p with path := table.bound? p }, path) := by
  have hb : table.bound? { p with path := table.bound? p } = table.bound? p := rfl
  unfold wanted?
  rw [hb, hp, Option.or_self]
  split
  · exact Or.inl ⟨rfl, rfl⟩
  · cases table.bound? p with
    | none => exact Or.inl ⟨rfl, rfl⟩
    | some path => exact Or.inr ⟨path, rfl, rfl⟩

/-- It does not matter whether the entries were told beforehand where they lie. -/
theorem activate_resolve (hp : ∀ p ∈ priorities, p.path = none) :
    table.activate host (table.resolve priorities) = table.activate host priorities := by
  unfold activate resolve
  induction priorities with
  | nil => rfl
  | cons p rest ih =>
    have hrest := ih fun p hm => hp p (List.mem_cons_of_mem _ hm)
    rw [List.map_cons]
    obtain ⟨hn, hn'⟩ | ⟨path, hs, hs'⟩ := wanted?_resolved table (hp p List.mem_cons_self)
    · rw [List.filterMap_cons_none hn, List.filterMap_cons_none hn']
      exact hrest
    · rw [List.filterMap_cons_some hs, List.filterMap_cons_some hs', List.mapM_cons,
        List.mapM_cons, hrest]
      rfl

theorem names_of_opens (h : List.Forall₂ (table.Opens host) priorities active) :
    active.map ActiveSet.name = priorities.map Priority.name := by
  induction h with
  | nil => rfl
  | cons ho _ ih => rw [List.map_cons, List.map_cons, ho.name, ih]

theorem entry_of_opens (h : List.Forall₂ (table.Opens host) priorities active) :
    ∀ s ∈ active, ∃ p ∈ priorities, table.Opens host p s := by
  induction h with
  | nil => simp
  | cons ho _ ih =>
    intro s hs
    rcases List.mem_cons.mp hs with rfl | hs
    · exact ⟨_, List.mem_cons_self, ho⟩
    · obtain ⟨p, hp, hps⟩ := ih s hs
      exact ⟨p, List.mem_cons_of_mem _ hp, hps⟩

/-- Of the games' own entries, those that have no path are dropped, and reported by name. -/
theorem missing_eq_dropped (table : PathTable) (priorities : List Priority) :
    table.missing ((Dependencies.split priorities).1.map Priority.name) =
      ((Dependencies.split priorities).1.filter
        (fun p => !table.keeps p && !table.catalog.isMeta p.name)).map Priority.name := by
  rw [missing, List.filter_map]
  congr 1
  apply List.filter_congr
  intro p hp
  have hgame : p.isMod = false := by simpa using (List.mem_filter.mp hp).2
  simp only [Function.comp_apply, keeps, hgame, Bool.false_or]
  cases table.catalog.isMeta p.name with
  | true => rfl
  | false => cases table.path? p.name <;> rfl

end

/-- What becomes of a list of priorities: one entry that is kept and does not open, and then all is
as it was; or the data sets of all the entries that are kept, in their order, and nothing else has
changed. -/
def Activates (l : Locator) (host : Host) (root : Definition) (all : List Definition)
    (kept priorities : List Priority) : Prop :=
  match l.table.activate host priorities with
  | .error fault =>
    (∃ p ∈ kept, ∃ path, l.table.bound? p = some path ∧
      Backend.ofDataPath host path = .error fault) ∧
      l.setPriorities host priorities = .error fault ∧
        (l.turn host (.prioritise priorities)).1 = l
  | .ok active =>
    List.Forall₂ (l.table.Opens host) kept active ∧ (active.map ActiveSet.name).Nodup ∧
      (∀ s ∈ active, ∃ owner, owner? root all s.name = some owner ∧ s.isMod = owner.isMod) ∧
        l.setPriorities host priorities = .ok (l.setActive active)

theorem activates_dependencies (l : Locator) (host : Host) (root : Definition)
    (all : List Definition) :
    Activates l host root all ((Dependencies.of root all).priorities.filter l.table.keeps)
      (Dependencies.of root all).priorities := by
  have hp := Dependencies.of_unplaced root all
  unfold Activates
  cases ha : l.table.activate host (Dependencies.of root all).priorities with
  | error fault =>
    refine ⟨activate_eq_error hp ha, ?_, ?_⟩
    · rw [Locator.setPriorities, ha]
      rfl
    · rw [Locator.turn, Locator.setPriorities, ha]
      rfl
  | ok active =>
    have hopens := (activate_eq_ok_iff hp).mp ha
    refine ⟨hopens, ?_, ?_, ?_⟩
    · rw [names_of_opens hopens]
      exact (Dependencies.nodup_names root all).sublist (List.filter_sublist.map _)
    · intro s hs
      obtain ⟨p, hm, ho⟩ := entry_of_opens hopens s hs
      exact ⟨p.source, ho.name ▸ owner?_of_mem (List.mem_filter.mp hm).1, ho.isMod⟩
    · rw [Locator.setPriorities, ha]
      rfl

/-- A locator makes of a list what its table makes of it. -/
theorem activates_congr {l : Locator} {host : Host} {root : Definition} {all : List Definition}
    {kept listed other : List Priority}
    (h : l.table.activate host other = l.table.activate host listed)
    (ha : Activates l host root all kept listed) : Activates l host root all kept other := by
  unfold Activates Locator.turn at ha ⊢
  simp only [Locator.setPriorities, h] at ha ⊢
  exact ha

/-- All the entries that are kept become active, in their order, or none does. -/
theorem activation_exact (l : Locator) (host : Host) (root : Definition) (all : List Definition) :
    let listed := (Dependencies.of root all).priorities
    l.table.activate host (l.table.resolve listed) = l.table.activate host listed ∧
      Activates l host root all (listed.filter l.table.keeps) listed ∧
      Activates l host root all (listed.filter l.table.keeps) (l.table.resolve listed) ∧
      l.table.missing ((Dependencies.split listed).1.map Priority.name) =
        ((Dependencies.split listed).1.filter
          (fun p => !l.table.keeps p && !l.table.catalog.isMeta p.name)).map Priority.name := by
  intro listed
  have hsame : l.table.activate host (l.table.resolve listed) = l.table.activate host listed :=
    activate_resolve (Dependencies.of_unplaced root all)
  have hlisted := activates_dependencies l host root all
  exact ⟨hsame, hlisted, activates_congr hsame hlisted, missing_eq_dropped l.table listed⟩

/-- A name that is not reported has a path, unless it only groups others. -/
theorem path?_isSome_of_not_missing {table : PathTable} {names : List String} {name : String}
    (h : table.missing names = []) (hn : name ∈ names)
    (hm : table.catalog.isMeta name = false) : (table.path? name).isSome = true := by
  have hall := List.filter_eq_nil_iff.mp h name hn
  rw [hm] at hall
  cases hp : table.path? name with
  | some path => rfl
  | none =>
    rw [hp] at hall
    exact absurd rfl hall

/-- If nothing is reported missing, then what the root needs is active as far as definitions own it.
What no definition owns is not, although a path is bound to it. -/
theorem nothing_missing_activates_owned (before host : Host) (catalog : Identity.Catalog)
    (candidates : List String) (root : Definition) (all : List Definition)
    (active : List ActiveSet)
    (complete : (ofCandidates before catalog candidates).missing
      ((Dependencies.split (Dependencies.of root all).priorities).1.map Priority.name ++
        (Dependencies.of root all).missing) = [])
    (activated : (ofCandidates before catalog candidates).activate host
      ((ofCandidates before catalog candidates).resolve (Dependencies.of root all).priorities) =
        .ok active)
    (name : String) (reached : Reachable root all name) (single : catalog.isMeta name = false) :
    (name ∈ active.map ActiveSet.name ↔ (owner? root all name).isSome = true) ∧
      (owner? root all name = none →
        ((ofCandidates before catalog candidates).path? name).isSome = true) := by
  have hp := Dependencies.of_unplaced root all
  rw [activate_resolve hp] at activated
  have hnames := names_of_opens ((activate_eq_ok_iff hp).mp activated)
  refine ⟨?_, ?_⟩
  · rw [hnames]
    constructor
    · intro hm
      obtain ⟨p, hf, rfl⟩ := List.mem_map.mp hm
      rw [owner?_of_mem (List.mem_filter.mp hf).1]
      rfl
    · intro ho
      obtain ⟨p, hm, rfl⟩ := Dependencies.exists_mem_of_owned reached ho
      refine List.mem_map_of_mem (List.mem_filter.mpr ⟨hm, ?_⟩)
      have hmeta : (ofCandidates before catalog candidates).catalog.isMeta p.name = false := single
      rw [keeps, hmeta, Bool.not_false, Bool.true_and]
      cases hmod : p.isMod with
      | true => rfl
      | false =>
        apply path?_isSome_of_not_missing complete _ hmeta
        apply List.mem_append_left
        exact List.mem_map_of_mem (List.mem_filter.mpr ⟨hm, by rw [hmod]; rfl⟩)
  · intro ho
    apply path?_isSome_of_not_missing complete _ single
    exact List.mem_append_right _ (Dependencies.mem_missing_of_unowned reached ho)

/-- Two discs, each in a folder of its own. -/
def discHost : Host :=
  ⟨[(["cd1"], .folder), (["cd1", "A.EXE"], .file []), (["cd2"], .folder),
    (["cd2", "B.EXE"], .file [])], []⟩

/-- The game only groups its discs. -/
def discCatalog : Identity.Catalog :=
  ⟨[("Game", ⟨[], [], []⟩), ("Cd1", ⟨[], ["A.EXE"], []⟩), ("Cd2", ⟨[], ["B.EXE"], []⟩)]⟩

def discTable : PathTable := ofCandidates discHost discCatalog ["cd1", "cd2"]

def discGame : Definition := .bare "Game" "Game" ["Cd1", "Cd2"] false

def discOne : Definition := .bare "Disc 1" "Cd1" [] false

/-- A definition owns the first disc, and none the second. -/
def discDefinitions : List Definition := [discGame, discOne]

/-- What is active of the game. -/
def discsActive : List ActiveSet := [⟨"Cd1", false, .folder "cd1"⟩]

theorem reachable_discs : Reachable discGame discDefinitions "Cd1" ∧
    Reachable discGame discDefinitions "Cd2" := by
  constructor
  · exact .required .root rfl (by decide)
  · exact .required .root rfl (by decide)

theorem walk_discs : Dependencies.walk discGame discDefinitions [] [] ["Game"] =
    ([⟨"Game", none, discGame⟩, ⟨"Cd1", none, discOne⟩], ["Cd2"]) := by
  have hgame : (discGame.required.filter
      fun n => !Dependencies.holds [⟨"Game", none, discGame⟩] n) ++ [] = ["Cd1", "Cd2"] := by
    decide
  rw [Dependencies.walk_owned (by decide) rfl, hgame,
    Dependencies.walk_owned (by decide) (show _ = some discOne by decide)]
  rw [show discOne.required = [] from rfl, List.filter_nil, List.nil_append,
    Dependencies.walk_unowned (by decide) (by decide), Dependencies.walk]
  rfl

theorem discDependencies : Dependencies.of discGame discDefinitions =
    ⟨[⟨"Game", none, discGame⟩, ⟨"Cd1", none, discOne⟩], ["Cd2"]⟩ := by
  rw [Dependencies.of, show discGame.dataSet = "Game" from rfl, walk_discs]
  simp [Text.sorted, List.eraseDups_cons]

theorem discs_not_missing : discTable.missing
    ((Dependencies.split (Dependencies.of discGame discDefinitions).priorities).1.map
      Priority.name ++ (Dependencies.of discGame discDefinitions).missing) = [] := by
  rw [discDependencies]
  decide +kernel

theorem discs_activated : discTable.activate discHost
    (discTable.resolve (Dependencies.of discGame discDefinitions).priorities) =
      .ok discsActive := by
  rw [discDependencies]
  rfl

theorem nothing_missing_activates_owned_discs : "Cd1" ∈ discsActive.map ActiveSet.name ∧
    "Cd2" ∉ discsActive.map ActiveSet.name ∧ (discTable.path? "Cd2").isSome = true := by
  obtain ⟨hreached, hreached'⟩ := reachable_discs
  have hfirst := nothing_missing_activates_owned discHost discHost discCatalog ["cd1", "cd2"]
    discGame discDefinitions discsActive discs_not_missing discs_activated "Cd1" hreached (by decide)
  have hsecond := nothing_missing_activates_owned discHost discHost discCatalog ["cd1", "cd2"]
    discGame discDefinitions discsActive discs_not_missing discs_activated "Cd2" hreached' (by decide)
  have hno : owner? discGame discDefinitions "Cd2" = none := by decide
  refine ⟨hfirst.1.mpr (by decide), ?_, hsecond.2 hno⟩
  intro hm
  have ho := hsecond.1.mp hm
  rw [hno] at ho
  cases ho

/-- That nothing is missing does not make everything active: the second disc has a path, and there
is no definition that it could be searched for. -/
theorem unowned_disc_stays_inactive :
    ¬ ∀ (before host : Host) (catalog : Identity.Catalog) (candidates : List String)
      (root : Definition) (all : List Definition) (active : List ActiveSet),
      (ofCandidates before catalog candidates).missing
        ((Dependencies.split (Dependencies.of root all).priorities).1.map Priority.name ++
          (Dependencies.of root all).missing) = [] →
      (ofCandidates before catalog candidates).activate host
        ((ofCandidates before catalog candidates).resolve
          (Dependencies.of root all).priorities) = .ok active →
      ∀ name, Reachable root all name → catalog.isMeta name = false →
        name ∈ active.map ActiveSet.name := by
  intro hall
  have hm := hall discHost discHost discCatalog ["cd1", "cd2"] discGame discDefinitions discsActive
    discs_not_missing discs_activated "Cd2" reachable_discs.2 (by decide)
  exact absurd hm (by decide)

end LayeredAssets.PathTable
