import LayeredAssets.Proofs.Locator.Settling
import LayeredAssets.Proofs.Locator.Unmodded

namespace LayeredAssets.Locator

def replacementFile (name : String) : String := name ++ ".png"

def deltaFile (name : String) : String := name ++ ".cam.bmp.png"

/-- What the file of an archive gives for a camera: its first picture, and the first layer that is
in front of it, if there is one. -/
def gameCameraIn? (c : PathCandidate) (_ : Archive) (sub : SubFile) : Option GameCamera :=
  (sub.withKind? .bits).map fun bits =>
    ⟨c.set.name, c.holding.archive, bits, sub.withKind? .foreground⟩

/-- The data set has nothing for the camera, or only what is to be added to one, where the games
have none. -/
inductive CameraPassed (l : Locator) (host : Host) (name : String) (games : Option Camera)
    (s : ActiveSet) : Prop where
  | lacking (isGame : s.isMod = false)
      (skipped : ∀ holding ∈ l.map.holdings s.name name, l.PassedOver host ⟨s, name, holding⟩)
  | bare (isMod : s.isMod = true)
      (noImage : ∀ image, ¬ Streams host s.backend (replacementFile name) image)
      (noDelta : ∀ delta, Streams host s.backend (deltaFile name) delta → games = none)

/-- What the data set settles the search for a camera with: of the games' own, the first archive
that has the file; of the mods, a camera in its place, or else one to add to that of the games. -/
inductive CameraSettled (l : Locator) (host : Host) (name : String) (games : Option Camera)
    (s : ActiveSet) : Option Camera → Prop where
  | game {before after : List Holding} {holding : Holding} {archive : Archive} {sub : SubFile}
      (isGame : s.isMod = false)
      (declared : l.map.holdings s.name name = before ++ holding :: after)
      (skipped : ∀ other ∈ before, l.PassedOver host ⟨s, name, other⟩)
      (has : l.Has host ⟨s, name, holding⟩ archive sub) :
      CameraSettled l host name games s ((gameCameraIn? ⟨s, name, holding⟩ archive sub).map .game)
  | replacement {image : Stream} (isMod : s.isMod = true)
      (replaces : Streams host s.backend (replacementFile name) image) :
      CameraSettled l host name games s (some (.replacement s.name image))
  | delta {delta : Stream} {base : GameCamera} (isMod : s.isMod = true)
      (noImage : ∀ image, ¬ Streams host s.backend (replacementFile name) image)
      (adds : Streams host s.backend (deltaFile name) delta) (found : games = some (.game base)) :
      CameraSettled l host name games s (some (.delta s.name delta base))

/-- All that one data set has to offer for a camera. -/
def camerasOf (l : Locator) (name : String) (s : ActiveSet) : List CameraCandidate :=
  if s.isMod then [.mod s] else (l.map.holdings s.name name).map (.archived s)

section
variable {l : Locator} {host : Host} {s : ActiveSet} {name : String}

theorem appraiseGameCamera_eq (l : Locator) (host : Host) (s : ActiveSet) (name : String)
    (holding : Holding) : l.appraiseGameCamera host name (s, holding) =
      l.appraiseFile host gameCameraIn? ⟨s, name, holding⟩ := by
  unfold appraiseGameCamera appraiseFile gameCameraIn?
  dsimp only
  cases l.archive? host s holding.archive with
  | none => rfl
  | some archive =>
    dsimp only
    cases archive.file? name with
    | none => rfl
    | some sub =>
      dsimp only
      cases sub.withKind? .bits <;> rfl

/-- A mod is looked at for two files, and for the second one only where the games have a camera. -/
theorem appraiseMod_eq (l : Locator) (host : Host) (name : String) (s : ActiveSet) :
    l.appraiseMod host name s =
      match stream? host s.backend (replacementFile name),
        stream? host s.backend (deltaFile name), l.uncachedGameCamera host name with
      | some image, _, _ => .settle (.replacement s.name image)
      | none, some delta, some base => .settle (.delta s.name delta base)
      | none, _, _ => .passOver := by
  unfold appraiseMod replacementFile deltaFile
  cases stream? host s.backend (name ++ ".png") with
  | some image => rfl
  | none =>
    unfold stream?
    dsimp only
    cases s.backend.isFile host (name ++ ".cam.bmp.png") with
    | false => rfl
    | true =>
      cases l.uncachedGameCamera host name with
      | none =>
        cases s.backend.openFile host (name ++ ".cam.bmp.png") <;> rfl
      | some base =>
        cases s.backend.openFile host (name ++ ".cam.bmp.png") <;> rfl

theorem uncachedCamera_eq_pick (l : Locator) (host : Host) (name : String) :
    l.uncachedCamera host name =
      Verdict.pick (fun s => Verdict.foremost (l.appraiseCamera host name) (l.camerasOf name s))
        l.active :=
  Verdict.pick_flatMap (l.camerasOf name) l.active

theorem foremost_mod (isMod : s.isMod = true) :
    Verdict.foremost (l.appraiseCamera host name) (l.camerasOf name s) =
      l.appraiseMod host name s := by
  rw [camerasOf, if_pos isMod, Verdict.foremost_singleton]
  rfl

/-- Without mods a camera is sought in the archives of the games, and nowhere else. -/
theorem uncachedCamera_withoutMods (l : Locator) (host : Host) (name : String) :
    l.withoutMods.uncachedCamera host name =
      (l.uncachedGameCamera host name).map Camera.game := by
  have hc : l.withoutMods.cameraCandidates name =
      (l.keepers l.builtIn name).map fun c => .archived c.1 c.2 := by
    unfold cameraCandidates keepers
    rw [List.map_flatMap]
    refine List.flatMap_congr fun s hs => ?_
    have isGame : s.isMod = false := by simpa using (List.mem_filter.mp hs).2
    rw [if_neg (by simp [isGame]), List.map_map]
    rfl
  unfold uncachedCamera uncachedGameCamera
  rw [hc, Verdict.pick_map]
  exact Verdict.pick_map_found Camera.game (l.keepers l.builtIn name)

end

section
variable {l : Locator} {host : Host} {name : String} {games : Option Camera} {s : ActiveSet}
  (hg : games = (l.uncachedGameCamera host name).map Camera.game)
include hg

theorem CameraPassed.foremost (h : l.CameraPassed host name games s) :
    Verdict.foremost (l.appraiseCamera host name) (l.camerasOf name s) = .passOver := by
  cases h with
  | lacking isGame skipped =>
    rw [camerasOf, if_neg (by simp [isGame])]
    apply Verdict.foremost_of_passed
    rintro _ hc
    obtain ⟨holding, hm, rfl⟩ := List.mem_map.mp hc
    rw [appraiseCamera, appraiseGameCamera_eq, appraiseFile_passed _ (skipped holding hm)]
    rfl
  | bare isMod noImage noDelta =>
    rw [foremost_mod isMod, appraiseMod_eq, stream?_eq_none_iff.mpr noImage]
    cases hd : stream? host s.backend (deltaFile name) with
    | none => rfl
    | some delta =>
      have hnone := noDelta delta (stream?_eq_some_iff.mp hd)
      rw [Option.map_eq_none_iff.mp (hg.symm.trans hnone)]

theorem CameraSettled.foremost {outcome : Option Camera}
    (h : l.CameraSettled host name games s outcome) :
    Verdict.foremost (l.appraiseCamera host name) (l.camerasOf name s) =
      outcome.elim .refuse .settle := by
  cases h with
  | @game before after holding archive sub isGame declared skipped has =>
    rw [camerasOf, if_neg (by simp [isGame]), declared, List.map_append, List.map_cons,
      Verdict.foremost_append]
    · apply Verdict.foremost_cons
      rw [appraiseCamera, appraiseGameCamera_eq, appraiseFile_has _ has]
      cases gameCameraIn? ⟨s, name, holding⟩ archive sub <;> rfl
    · rintro _ hc
      obtain ⟨other, hm, rfl⟩ := List.mem_map.mp hc
      rw [appraiseCamera, appraiseGameCamera_eq, appraiseFile_passed _ (skipped other hm)]
      rfl
  | replacement isMod replaces =>
    rw [foremost_mod isMod, appraiseMod_eq, stream?_eq_some_iff.mpr replaces]
    rfl
  | delta isMod noImage adds found =>
    obtain ⟨base, hb, hbase⟩ := Option.map_eq_some_iff.mp (hg.symm.trans found)
    cases hbase
    rw [foremost_mod isMod, appraiseMod_eq, stream?_eq_none_iff.mpr noImage,
      stream?_eq_some_iff.mpr adds, hb]
    rfl

theorem cameraPassed_or_settled (s : ActiveSet) : l.CameraPassed host name games s ∨
    ∃ outcome, l.CameraSettled host name games s outcome := by
  cases hm : s.isMod with
  | false =>
    obtain hall | ⟨before, holding, after, hd, hb, hf⟩ := Verdict.passed_or_first
      (fun holding => l.PassedOver host ⟨s, name, holding⟩) (l.map.holdings s.name name)
    · exact Or.inl (.lacking hm hall)
    · obtain hskip | ⟨archive, sub, has⟩ := passedOver_or_has l host ⟨s, name, holding⟩
      · exact absurd hskip hf
      · exact Or.inr ⟨_, .game hm hd hb has⟩
  | true =>
    cases hi : stream? host s.backend (replacementFile name) with
    | some image => exact Or.inr ⟨_, .replacement hm (stream?_eq_some_iff.mp hi)⟩
    | none =>
      have noImage := stream?_eq_none_iff.mp hi
      cases hd : stream? host s.backend (deltaFile name) with
      | none =>
        refine Or.inl (.bare hm noImage fun delta h => ?_)
        exact absurd h (stream?_eq_none_iff.mp hd delta)
      | some delta =>
        have adds := stream?_eq_some_iff.mp hd
        cases hb : l.uncachedGameCamera host name with
        | none => exact Or.inl (.bare hm noImage fun _ _ => by rw [hg, hb]; rfl)
        | some base => exact Or.inr ⟨_, .delta hm noImage adds (by rw [hg, hb]; rfl)⟩

theorem uncachedCamera_eq_iff (outcome : Option Camera) : l.uncachedCamera host name = outcome ↔
    Verdict.Decides (l.CameraPassed host name games) (l.CameraSettled host name games) l.active
      outcome := by
  rw [uncachedCamera_eq_pick]
  exact Verdict.pick_eq_iff_decides (fun s _ h => h.foremost hg)
    (fun s _ outcome h => h.foremost hg) (fun s _ => cameraPassed_or_settled hg s) outcome

end

/-- The base of a delta is what the games have. -/
theorem CameraSettled.base {l : Locator} {host : Host} {name : String}
    {games outcome : Option Camera} {s : ActiveSet} (h : l.CameraSettled host name games s outcome)
    {dataSet : String} {delta : Stream} {base : GameCamera}
    (ho : outcome = some (.delta dataSet delta base)) :
    games = some (.game base) := by
  cases h with
  | game =>
    obtain ⟨_, _, hc⟩ := Option.map_eq_some_iff.mp ho
    cases hc
  | replacement => cases ho
  | delta _ _ _ found =>
    cases ho
    exact found

/-- The first data set that is not passed over decides which camera is found. A mod may only add to
a camera that the games have by themselves, and it is added to that camera. -/
theorem first_camera_decides (loader : String → Stream → Except Fault Archive) (map : ResourceMap)
    (table : PathTable) (gameFiles : Option Backend) (host : Host) (active : List ActiveSet)
    (distinct : (active.map ActiveSet.name).Nodup) (name : String) :
    let l (sets : List ActiveSet) := (make loader map table gameFiles).setActive sets
    let found (sets : List ActiveSet) := ((l sets).locateCamera host name).2
    let games := found (active.filter fun s => !s.isMod)
    (∀ outcome, found active = outcome ↔
      Verdict.Decides ((l active).CameraPassed host name games)
        ((l active).CameraSettled host name games) active outcome) ∧
      (∀ camera, games = some camera → ∃ base, camera = .game base) ∧
      ∀ dataSet delta base, found active = some (.delta dataSet delta base) →
        games = some (.game base) := by
  intro l found games
  have hl : Serves active (l active) host (l active) := .fresh distinct rfl rfl
  have hfew : ((active.filter fun s => !s.isMod).map ActiveSet.name).Nodup :=
    distinct.sublist (List.filter_sublist.map _)
  have hgamesOnly : Serves (active.filter fun s => !s.isMod) (l active).withoutMods host
      (l active).withoutMods := .fresh hfew rfl rfl
  have hgames : games = ((l active).uncachedGameCamera host name).map Camera.game :=
    (hgamesOnly.locateCamera name).2.trans (uncachedCamera_withoutMods (l active) host name)
  have hdecides : ∀ outcome, found active = outcome ↔
      Verdict.Decides ((l active).CameraPassed host name games)
        ((l active).CameraSettled host name games) active outcome := by
    intro outcome
    have hfound : found active = (l active).uncachedCamera host name := (hl.locateCamera name).2
    rw [hfound]
    exact uncachedCamera_eq_iff hgames outcome
  refine ⟨hdecides, ?_, ?_⟩
  · intro camera hc
    obtain ⟨base, _, rfl⟩ := Option.map_eq_some_iff.mp (hgames.symm.trans hc)
    exact ⟨base, rfl⟩
  · intro dataSet delta base hd
    obtain ⟨s, _, hs⟩ := ((hdecides _).mp hd).of_some rfl
    exact hs.base rfl

/-- Folders of a mod that has nothing for the camera, of one that adds to it, and of the game. -/
def cameraHost : Host :=
  ⟨[(["bare"], .folder), (["sharp"], .folder), (["sharp", "R1C1.cam.bmp.png"], .file [5]),
    (["game"], .folder), (["game", "R1.LVL"], .file [1])], []⟩

def cameraChunks : List Chunk := [⟨1, .bits, [1]⟩]

def cameraLoader : String → Stream → Except Fault Archive :=
  Archive.drained fun _ bytes => .ok (.ofFiles [("R1C1", [⟨1, .bits, bytes⟩])])

def cameraHolding : Holding := ⟨"R1.LVL", false, false, false⟩

def cameraMods : List ActiveSet :=
  [⟨"bare", true, .folder "bare"⟩, ⟨"sharp", true, .folder "sharp"⟩]

def cameraGame : ActiveSet := ⟨"game", false, .folder "game"⟩

def cameraMap : ResourceMap := ResourceMap.empty.addHolding "game" "R1C1" cameraHolding

def cameraLocator (active : List ActiveSet) : Locator :=
  (make cameraLoader cameraMap ⟨.empty, .empty⟩ none).setActive active

def cameraBase : GameCamera := ⟨"game", "R1.LVL", ⟨1, .bits, [1]⟩, none⟩

theorem cameraGame_settled (active : List ActiveSet) (games : Option Camera) :
    (cameraLocator active).CameraSettled cameraHost "R1C1" games cameraGame
      (some (.game cameraBase)) := by
  have has : (cameraLocator active).Has cameraHost ⟨cameraGame, "R1C1", cameraHolding⟩
      (.ofFiles [("R1C1", cameraChunks)]) (.ofChunks cameraChunks) :=
    ⟨⟨rfl, .file [1] 0, rfl, rfl⟩, rfl⟩
  have declared : (cameraLocator active).map.holdings "game" "R1C1" = [] ++ cameraHolding :: [] :=
    rfl
  have picture : (SubFile.ofChunks cameraChunks).withKind? .bits = some ⟨1, .bits, [1]⟩ := by
    decide +kernel
  have layer : (SubFile.ofChunks cameraChunks).withKind? .foreground = none := by
    decide +kernel
  have gives : gameCameraIn? ⟨cameraGame, "R1C1", cameraHolding⟩
      (.ofFiles [("R1C1", cameraChunks)]) (.ofChunks cameraChunks) = some cameraBase := by
    rw [gameCameraIn?, picture, layer]
    rfl
  have settled : (cameraLocator active).CameraSettled cameraHost "R1C1" games cameraGame _ :=
    .game rfl declared (fun _ hm => absurd hm List.not_mem_nil) has
  rw [gives] at settled
  exact settled

/-- The mod in front is passed over, and the next one adds to the camera that lies behind it. -/
theorem first_camera_decides_delta :
    ((cameraMods ++ [cameraGame]).map ActiveSet.name).Nodup ∧
      ((cameraLocator (cameraMods ++ [cameraGame])).locateCamera cameraHost "R1C1").2 =
        some (.delta "sharp" (.file [5] 0) cameraBase) := by
  have hd : ((cameraMods ++ [cameraGame]).map ActiveSet.name).Nodup := by decide
  obtain ⟨hgame, _⟩ := first_camera_decides cameraLoader cameraMap ⟨.empty, .empty⟩ none cameraHost
    [cameraGame] (by decide) "R1C1"
  obtain ⟨hdecides, _⟩ := first_camera_decides cameraLoader cameraMap ⟨.empty, .empty⟩ none
    cameraHost (cameraMods ++ [cameraGame]) hd "R1C1"
  have hbase := (hgame _).mpr (.ended (cameraGame_settled [cameraGame] _))
  refine ⟨hd, (hdecides _).mpr (.passed ?_ (.ended ?_))⟩
  · refine .bare rfl (stream?_eq_none_iff.mp rfl) fun delta h => ?_
    exact absurd h (stream?_eq_none_iff.mp rfl delta)
  · exact .delta rfl (stream?_eq_none_iff.mp rfl) ⟨rfl, rfl⟩ hbase

end LayeredAssets.Locator
