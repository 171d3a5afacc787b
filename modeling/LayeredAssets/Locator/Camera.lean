import LayeredAssets.Locator

namespace LayeredAssets.Locator

def judgeGameCamera (host : Host) (name : String) (l : Locator)
    (candidate : ActiveSet × Holding) : Locator × Verdict GameCamera :=
  let (s, holding) := candidate
  l.withArchive host s holding.archive fun l archive =>
    match archive.file? name with
    | none => (l, .passOver)
    | some file =>
      match file.withKind? .bits with
      | none => (l, .refuse)
      | some bits => (l, .settle ⟨s.name, holding.archive, bits, file.withKind? .foreground⟩)

/-- The camera as the game itself has it. -/
def locateGameCamera (l : Locator) (host : Host) (name : String) : Locator × Option GameCamera :=
  Verdict.first (judgeGameCamera host name) l (l.keepers l.builtIn name)

inductive CameraCandidate
  | archived (set : ActiveSet) (holding : Holding)
  | mod (set : ActiveSet)

def cameraCandidates (l : Locator) (name : String) : List CameraCandidate :=
  l.active.flatMap fun s =>
    if s.isMod then [.mod s] else (l.map.holdings s.name name).map (.archived s)

/-- A replacement comes before a delta, and a delta without a camera to add to is none. -/
def judgeMod (host : Host) (name : String) (l : Locator) (s : ActiveSet) :
    Locator × Verdict Camera :=
  match stream? host s.backend (name ++ ".png") with
  | some image => (l, .settle (.replacement s.name image))
  | none =>
    let file := name ++ ".cam.bmp.png"
    if s.backend.isFile host file then
      match l.locateGameCamera host name with
      | (l, none) => (l, .passOver)
      | (l, some base) =>
        match s.backend.openFile host file with
        | .ok delta => (l, .settle (.delta s.name delta base))
        | .error _ => (l, .passOver)
    else (l, .passOver)

def judgeCamera (host : Host) (name : String) (l : Locator) :
    CameraCandidate → Locator × Verdict Camera
  | .mod s => judgeMod host name l s
  | .archived s holding =>
    match judgeGameCamera host name l (s, holding) with
    | (l, .settle camera) => (l, .settle (.game camera))
    | (l, .passOver) => (l, .passOver)
    | (l, .refuse) => (l, .refuse)

def locateCamera (l : Locator) (host : Host) (name : String) : Locator × Option Camera :=
  Verdict.first (judgeCamera host name) l (l.cameraCandidates name)

end LayeredAssets.Locator
