import LayeredAssets.Proofs.Archives
import LayeredAssets.Proofs.Locator.Opening
import LayeredAssets.Proofs.Locator.Transparency

namespace LayeredAssets.Locator

/-- The archives that may hold a resource, in the order in which they are tried: of each data set
but mods, those that are declared to keep the file which it has the resource in. -/
def contenders (map : ResourceMap) (active : List ActiveSet) (file? : ActiveSet → Option String) :
    List PathCandidate :=
  (active.filter (fun s => !s.isMod)).flatMap fun s =>
    (file? s).toList.flatMap fun file => (map.holdings s.name file).map (⟨s, file, ·⟩)

/-- The archive is not there or cannot be loaded, or it does not have the file. -/
inductive PassedOver (l : Locator) (host : Host) (c : PathCandidate) : Prop where
  | closed (shut : l.Closed host c.set c.holding.archive)
  | lacking {archive : Archive} (opened : l.Opened host c.set c.holding.archive archive)
      (lacks : archive.file? c.file = none)

/-- The archive is there and can be loaded, and it has the file. -/
structure Has (l : Locator) (host : Host) (c : PathCandidate) (archive : Archive) (sub : SubFile) :
    Prop where
  opened : l.Opened host c.set c.holding.archive archive
  contains : archive.file? c.file = some sub

/-- The first candidate that has the file decides, whether what is looked for is in the file or
not. -/
def Decides {α : Type} (l : Locator) (host : Host)
    (find? : PathCandidate → Archive → SubFile → Option α) :
    List PathCandidate → Option α → Prop :=
  Verdict.Decides (l.PassedOver host) fun c outcome =>
    ∃ archive sub, l.Has host c archive sub ∧ find? c archive sub = outcome

/-- What the file of a candidate gives for an animation. -/
def animationIn? (name : String) (mapping : AnimationMapping) (c : PathCandidate)
    (archive : Archive) (sub : SubFile) : Option AnimationContents :=
  (sub.withId? mapping.id).map fun chunk => {
    name := name
    dataSet := c.set.name
    archiveName := c.holding.archive
    file := c.file
    id := mapping.id
    blendMode := mapping.blendMode
    isPsx := c.holding.isPsx
    scaleFrameOffsets := c.holding.scaleFrameOffsets
    archive := archive
    archiveKey := some (.ofArchive c.set.name c.holding.archive)
    chunk := chunk
    chunkKey := some (.ofChunk c.set.name c.holding.archive c.file mapping.id) }

/-- What the file of a candidate gives for a level path. -/
def levelPathIn? (name : String) (mapping : PathMapping) (c : PathCandidate) (_ : Archive)
    (sub : SubFile) : Option LevelPath :=
  (sub.withId? mapping.id).map fun chunk => {
    name := name
    dataSet := c.set.name
    archiveName := c.holding.archive
    file := c.file
    chunk := chunk
    collisionOffset := mapping.collisionOffset
    objectIndexOffset := mapping.objectIndexOffset
    objectOffset := mapping.objectOffset
    screensAcross := mapping.screensAcross
    screensDown := mapping.screensDown
    musicTheme := mapping.musicTheme
    isAo := c.holding.isAo }

/-- What a candidate does to a search: only one that has the file ends it, for good or for ill. -/
def appraiseFile {α : Type} (l : Locator) (host : Host)
    (find? : PathCandidate → Archive → SubFile → Option α) (c : PathCandidate) : Verdict α :=
  match l.archive? host c.set c.holding.archive with
  | none => .passOver
  | some archive =>
    match archive.file? c.file with
    | none => .passOver
    | some sub => (find? c archive sub).elim .refuse .settle

section
variable {l : Locator} {host : Host} {c : PathCandidate} {archive : Archive} {sub : SubFile}

/-- What can be opened of a candidate that is passed over does not have the file. -/
theorem PassedOver.file? (h : l.PassedOver host c)
    (ha : l.archive? host c.set c.holding.archive = some archive) :
    archive.file? c.file = none := by
  cases h with
  | closed shut =>
    rw [shut.archive?] at ha
    cases ha
  | lacking opened lacks =>
    obtain rfl := Option.some.inj (opened.archive?.symm.trans ha)
    exact lacks

theorem passedOver_or_has (l : Locator) (host : Host) (c : PathCandidate) :
    l.PassedOver host c ∨ ∃ archive sub, l.Has host c archive sub := by
  obtain shut | ⟨archive, opened⟩ := closed_or_opened l host c.set c.holding.archive
  · exact Or.inl (.closed shut)
  · cases hf : archive.file? c.file with
    | none => exact Or.inl (.lacking opened hf)
    | some sub => exact Or.inr ⟨archive, sub, opened, hf⟩

end

theorem appraiseFile_passed {α : Type} {l : Locator} {host : Host} {c : PathCandidate}
    (find? : PathCandidate → Archive → SubFile → Option α) (h : l.PassedOver host c) :
    l.appraiseFile host find? c = .passOver := by
  unfold appraiseFile
  cases ha : l.archive? host c.set c.holding.archive with
  | none => rfl
  | some archive =>
    dsimp only
    rw [h.file? ha]

theorem appraiseFile_has {α : Type} {l : Locator} {host : Host} {c : PathCandidate}
    {archive : Archive} {sub : SubFile} (find? : PathCandidate → Archive → SubFile → Option α)
    (h : l.Has host c archive sub) :
    l.appraiseFile host find? c = (find? c archive sub).elim .refuse .settle := by
  unfold appraiseFile
  rw [h.opened.archive?]
  dsimp only
  rw [h.contains]

/-- A search that judges each candidate by its file finds what these rules say, and nothing else. -/
theorem pick_eq_iff {α : Type} (l : Locator) (host : Host)
    (find? : PathCandidate → Archive → SubFile → Option α) (candidates : List PathCandidate)
    (outcome : Option α) : Verdict.pick (l.appraiseFile host find?) candidates = outcome ↔
      l.Decides host find? candidates outcome := by
  refine Verdict.pick_eq_iff_decides (fun c _ => appraiseFile_passed find?) ?_ ?_ outcome
  · rintro c _ found ⟨archive, sub, has, rfl⟩
    exact appraiseFile_has find? has
  · intro c _
    obtain skipped | ⟨archive, sub, has⟩ := passedOver_or_has l host c
    · exact Or.inl skipped
    · exact Or.inr ⟨_, archive, sub, has, rfl⟩

theorem keepers_eq_map (l : Locator) (file : String) :
    l.keepers l.builtIn file =
      (contenders l.map l.active fun _ => some file).map (fun c => (c.set, c.holding)) := by
  simp only [keepers, contenders, builtIn, Option.toList_some, List.flatMap_singleton,
    List.map_flatMap, List.map_map]
  rfl

theorem pathCandidates_eq (l : Locator) (mapping : PathMapping) :
    l.pathCandidates mapping = contenders l.map l.active fun s =>
      (mapping.location? s.name).map PathLocation.file := by
  unfold pathCandidates contenders builtIn
  congr 1
  funext s
  cases h : mapping.location? s.name with
  | none => simp [h]
  | some location => simp [h]

theorem contenders_file {map : ResourceMap} {active : List ActiveSet} {file : String}
    {c : PathCandidate} (h : c ∈ contenders map active fun _ => some file) : c.file = file := by
  simp only [contenders, List.mem_flatMap, List.mem_map, Option.mem_toList] at h
  obtain ⟨s, _, f, hf, holding, _, rfl⟩ := h
  exact (Option.some.inj hf).symm

section
variable (l : Locator) (host : Host) (name : String)

theorem appraiseAnimation_eq (mapping : AnimationMapping) {c : PathCandidate}
    (hf : c.file = mapping.file) : l.appraiseAnimation host name mapping (c.set, c.holding) =
      l.appraiseFile host (animationIn? name mapping) c := by
  unfold appraiseAnimation appraiseFile animationIn?
  rw [hf]
  dsimp only
  cases l.archive? host c.set c.holding.archive with
  | none => rfl
  | some archive =>
    dsimp only
    cases archive.file? mapping.file with
    | none => rfl
    | some sub =>
      dsimp only
      cases sub.withId? mapping.id <;> rfl

theorem appraisePath_eq (mapping : PathMapping) : l.appraisePath host name mapping =
    l.appraiseFile host (levelPathIn? name mapping) := by
  funext c
  unfold appraisePath appraiseFile levelPathIn?
  cases l.archive? host c.set c.holding.archive with
  | none => rfl
  | some archive =>
    dsimp only
    cases archive.file? c.file with
    | none => rfl
    | some sub =>
      dsimp only
      cases sub.withId? mapping.id <;> rfl

end

theorem uncachedAnimation_eq_iff {l : Locator} {host : Host} {name : String}
    {mapping : AnimationMapping} (hm : l.map.animation? name = some mapping)
    (outcome : Option AnimationContents) :
    l.uncachedAnimation host name = outcome ↔
      l.Decides host (animationIn? name mapping)
        (contenders l.map l.active fun _ => some mapping.file) outcome := by
  unfold uncachedAnimation
  rw [hm]
  dsimp only
  rw [keepers_eq_map, Verdict.pick_map, Verdict.pick_congr fun c hc =>
    appraiseAnimation_eq l host name mapping (contenders_file hc)]
  exact pick_eq_iff l host _ _ outcome

theorem uncachedPath_eq_iff {l : Locator} {host : Host} {name : String} {mapping : PathMapping}
    (hm : l.map.path? name = some mapping) (outcome : Option LevelPath) :
    l.uncachedPath host name = outcome ↔
      l.Decides host (levelPathIn? name mapping)
        (contenders l.map l.active fun s => (mapping.location? s.name).map PathLocation.file)
        outcome := by
  unfold uncachedPath
  rw [hm]
  dsimp only
  rw [pathCandidates_eq, appraisePath_eq]
  exact pick_eq_iff l host _ _ outcome

/-- The first archive that has the file of an animation or of a level path decides whether it is
found: a data set that lacks the chunk hides those behind it. Only an archive that is not there or
cannot be loaded, or that does not have the file, lets the search go on. -/
theorem first_with_file_decides (loader : String → Stream → Except Fault Archive)
    (map : ResourceMap) (table : PathTable) (gameFiles : Option Backend) (host : Host)
    (active : List ActiveSet) (distinct : (active.map ActiveSet.name).Nodup) (name : String) :
    let l := (make loader map table gameFiles).setActive active
    let animation := (l.locateAnimation host name).2.map
      (Animation.contents (l.locateAnimation host name).1.cache)
    let path := (l.locatePath host name).2
    (map.animation? name = none → animation = none) ∧
      (∀ mapping, map.animation? name = some mapping → ∀ outcome, animation = outcome ↔
        l.Decides host (animationIn? name mapping)
          (contenders map active fun _ => some mapping.file) outcome) ∧
      (map.path? name = none → path = none) ∧
      (∀ mapping, map.path? name = some mapping → ∀ outcome, path = outcome ↔
        l.Decides host (levelPathIn? name mapping)
          (contenders map active fun s => (mapping.location? s.name).map PathLocation.file)
          outcome) := by
  intro l animation path
  have hl : Serves active l host l := .fresh distinct rfl rfl
  have hanimation : animation = l.uncachedAnimation host name := (hl.locateAnimation name).2
  have hpath : path = l.uncachedPath host name := (hl.locatePath name).2
  rw [hanimation, hpath]
  refine ⟨?_, fun mapping hm => uncachedAnimation_eq_iff hm, ?_,
    fun mapping hm => uncachedPath_eq_iff hm⟩
  · intro hm
    change l.map.animation? name = none at hm
    rw [uncachedAnimation, hm]
  · intro hm
    change l.map.path? name = none at hm
    rw [uncachedPath, hm]

/-- Folders without an archive, with one that cannot be loaded, with one that lacks the files, and
with two that have them, each with a chunk of its own. -/
def mixedHost : Host :=
  ⟨[(["none"], .folder), (["broken"], .folder), (["broken", "R1.LVL"], .file []),
    (["bare"], .folder), (["bare", "R1.LVL"], .file [0, 0]),
    (["early"], .folder), (["early", "R1.LVL"], .file [9]),
    (["late"], .folder), (["late", "R1.LVL"], .file [7])], []⟩

/-- An archive of one byte has a chunk with it in both files. -/
def mixedFiles (_ : String) : Bytes → Except Fault Archive
  | [] => .error (.archive "nothing in it")
  | [byte] =>
    .ok (.ofFiles (["ABE.BAN", "R1PATH.BND"].map (·, [⟨byte.toUInt32, .bits, [byte]⟩])))
  | _ => .ok (.ofFiles [])

def mixedLoader : String → Stream → Except Fault Archive := Archive.drained mixedFiles

def mixedChunks : List Chunk := [⟨9, .bits, [9]⟩]

def mixedArchive : Archive := .ofFiles [("ABE.BAN", mixedChunks), ("R1PATH.BND", mixedChunks)]

/-- The mod in front has the chunk of the last folder, but it is no place for an animation. -/
def mixedSets : List ActiveSet :=
  ⟨"skin", true, .folder "late"⟩ ::
    ["none", "broken", "bare", "early", "late"].map fun name => ⟨name, false, .folder name⟩

def mixedPath : PathMapping :=
  ⟨"R1P1", 9, 0, 0, 0, 1, 1, none, mixedSets.map fun s => ⟨s.name, "R1PATH.BND"⟩⟩

def mixedMap : ResourceMap :=
  mixedSets.foldl
    (fun map s => ["ABE.BAN", "R1PATH.BND"].foldl
      (fun map file => map.addHolding s.name file ⟨"R1.LVL", false, true, false⟩) map)
    ((ResourceMap.empty.addAnimation "walk" ⟨"ABE.BAN", 7, 0⟩).addPath mixedPath)

def mixedLocator : Locator := (make mixedLoader mixedMap ⟨.empty, .empty⟩ none).setActive mixedSets

def mixedCandidate (file name : String) : PathCandidate :=
  ⟨⟨name, false, .folder name⟩, file, ⟨"R1.LVL", false, true, false⟩⟩

/-- The first folder with the file decides, in whichever file the chunk is wanted. -/
theorem mixed_decides {α : Type} (find? : PathCandidate → Archive → SubFile → Option α)
    {file : String} (hf : file = "ABE.BAN" ∨ file = "R1PATH.BND") :
    mixedLocator.Decides mixedHost find?
      (["none", "broken", "bare", "early", "late"].map (mixedCandidate file))
      (find? (mixedCandidate file "early") mixedArchive (.ofChunks mixedChunks)) := by
  rcases hf with rfl | rfl
  all_goals
    apply Verdict.Decides.passed (.closed (.missing rfl))
    apply Verdict.Decides.passed
      (.closed (.unloadable (show _ = Except.ok (.file [] 0) from rfl) rfl))
    apply Verdict.Decides.passed (.lacking ⟨rfl, .file [0, 0] 0, rfl, rfl⟩ rfl)
    exact .ended ⟨mixedArchive, .ofChunks mixedChunks, ⟨⟨rfl, .file [9] 0, rfl, rfl⟩, rfl⟩, rfl⟩

/-- The animation is not found, for the folder that has its file lacks its chunk. The level path has
its chunk there. -/
theorem first_with_file_decides_mixed :
    (mixedSets.map ActiveSet.name).Nodup ∧
      (mixedLocator.locateAnimation mixedHost "walk").2 = none ∧
      (mixedLocator.locatePath mixedHost "R1P1").2.map (fun path => (path.dataSet, path.chunk)) =
        some ("early", ⟨9, .bits, [9]⟩) := by
  have hd : (mixedSets.map ActiveSet.name).Nodup := by decide
  obtain ⟨_, hanimation, _, _⟩ :=
    first_with_file_decides mixedLoader mixedMap ⟨.empty, .empty⟩ none mixedHost mixedSets hd "walk"
  obtain ⟨_, _, _, hpath⟩ :=
    first_with_file_decides mixedLoader mixedMap ⟨.empty, .empty⟩ none mixedHost mixedSets hd "R1P1"
  refine ⟨hd, ?_, ?_⟩
  · exact Option.map_eq_none_iff.mp
      ((hanimation ⟨"ABE.BAN", 7, 0⟩ rfl none).mpr (mixed_decides _ (.inl rfl)))
  · have hfound := (hpath mixedPath rfl _).mpr (mixed_decides _ (.inr rfl))
    exact congrArg (Option.map fun path => (path.dataSet, path.chunk)) hfound

end LayeredAssets.Locator
