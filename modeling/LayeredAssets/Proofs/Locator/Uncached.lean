import LayeredAssets.Locator.Animation
import LayeredAssets.Locator.Camera
import LayeredAssets.Locator.LevelPath
import LayeredAssets.Locator.Sound
import LayeredAssets.Locator.Video

namespace LayeredAssets

namespace Verdict

def map {α β : Type} (f : α → β) : Verdict α → Verdict β
  | passOver => passOver
  | settle found => settle (f found)
  | refuse => refuse

/-- The first candidate that is not passed over, where judging one leaves nothing behind. -/
def pick {β α : Type} (appraise : β → Verdict α) : List β → Option α
  | [] => none
  | candidate :: rest =>
    match appraise candidate with
    | passOver => pick appraise rest
    | settle found => some found
    | refuse => none

end Verdict

/-- What an animation holds, whatever the numbers of its handles are. -/
structure AnimationContents where
  name : String
  dataSet : String
  archiveName : String
  file : String
  id : UInt32
  blendMode : UInt32
  isPsx : Bool
  scaleFrameOffsets : Bool
  archive : Archive
  archiveKey : Option CacheKey
  chunk : Chunk
  chunkKey : Option CacheKey

def Animation.contents (c : Cache) (animation : Animation) : AnimationContents where
  name := animation.name
  dataSet := animation.dataSet
  archiveName := animation.archiveName
  file := animation.file
  id := animation.id
  blendMode := animation.blendMode
  isPsx := animation.isPsx
  scaleFrameOffsets := animation.scaleFrameOffsets
  archive := animation.archive.value
  archiveKey := c.key? animation.archive.handle
  chunk := animation.chunk.value
  chunkKey := c.key? animation.chunk.handle

namespace Locator

/-! The searches as they would be if every archive were loaded anew. -/

def archive? (l : Locator) (host : Host) (s : ActiveSet) (name : String) : Option Archive :=
  if s.backend.isFile host name then (l.load host s name).toOption else none

def appraiseAnimation (l : Locator) (host : Host) (name : String) (mapping : AnimationMapping)
    (candidate : ActiveSet × Holding) : Verdict AnimationContents :=
  let (s, holding) := candidate
  match l.archive? host s holding.archive with
  | none => .passOver
  | some archive =>
    match archive.file? mapping.file with
    | none => .passOver
    | some file =>
      match file.withId? mapping.id with
      | none => .refuse
      | some chunk => .settle {
          name := name
          dataSet := s.name
          archiveName := holding.archive
          file := mapping.file
          id := mapping.id
          blendMode := mapping.blendMode
          isPsx := holding.isPsx
          scaleFrameOffsets := holding.scaleFrameOffsets
          archive := archive
          archiveKey := some (.ofArchive s.name holding.archive)
          chunk := chunk
          chunkKey := some (.ofChunk s.name holding.archive mapping.file mapping.id) }

def uncachedAnimation (l : Locator) (host : Host) (name : String) : Option AnimationContents :=
  match l.map.animation? name with
  | none => none
  | some mapping =>
    Verdict.pick (l.appraiseAnimation host name mapping) (l.keepers l.builtIn mapping.file)

def uncachedAnimationIn (l : Locator) (host : Host) (name dataSet : String) :
    Option AnimationContents :=
  match l.active.find? (fun s => s.name == dataSet), l.map.animation? name with
  | some s, some mapping =>
    Verdict.pick (l.appraiseAnimation host name mapping) (l.keepers [s] mapping.file)
  | _, _ => none

def appraisePath (l : Locator) (host : Host) (name : String) (mapping : PathMapping)
    (candidate : PathCandidate) : Verdict LevelPath :=
  match l.archive? host candidate.set candidate.holding.archive with
  | none => .passOver
  | some archive =>
    match archive.file? candidate.file with
    | none => .passOver
    | some file =>
      match file.withId? mapping.id with
      | none => .refuse
      | some chunk => .settle {
          name := name
          dataSet := candidate.set.name
          archiveName := candidate.holding.archive
          file := candidate.file
          chunk := chunk
          collisionOffset := mapping.collisionOffset
          objectIndexOffset := mapping.objectIndexOffset
          objectOffset := mapping.objectOffset
          screensAcross := mapping.screensAcross
          screensDown := mapping.screensDown
          musicTheme := mapping.musicTheme
          isAo := candidate.holding.isAo }

def uncachedPath (l : Locator) (host : Host) (name : String) : Option LevelPath :=
  match l.map.path? name with
  | none => none
  | some mapping => Verdict.pick (l.appraisePath host name mapping) (l.pathCandidates mapping)

def appraiseGameCamera (l : Locator) (host : Host) (name : String)
    (candidate : ActiveSet × Holding) : Verdict GameCamera :=
  let (s, holding) := candidate
  match l.archive? host s holding.archive with
  | none => .passOver
  | some archive =>
    match archive.file? name with
    | none => .passOver
    | some file =>
      match file.withKind? .bits with
      | none => .refuse
      | some bits => .settle ⟨s.name, holding.archive, bits, file.withKind? .foreground⟩

def uncachedGameCamera (l : Locator) (host : Host) (name : String) : Option GameCamera :=
  Verdict.pick (l.appraiseGameCamera host name) (l.keepers l.builtIn name)

def appraiseMod (l : Locator) (host : Host) (name : String) (s : ActiveSet) : Verdict Camera :=
  match stream? host s.backend (name ++ ".png") with
  | some image => .settle (.replacement s.name image)
  | none =>
    let file := name ++ ".cam.bmp.png"
    if s.backend.isFile host file then
      match l.uncachedGameCamera host name with
      | none => .passOver
      | some base =>
        match s.backend.openFile host file with
        | .ok delta => .settle (.delta s.name delta base)
        | .error _ => .passOver
    else .passOver

def appraiseCamera (l : Locator) (host : Host) (name : String) : CameraCandidate → Verdict Camera
  | .mod s => l.appraiseMod host name s
  | .archived s holding => (l.appraiseGameCamera host name (s, holding)).map .game

def uncachedCamera (l : Locator) (host : Host) (name : String) : Option Camera :=
  Verdict.pick (l.appraiseCamera host name) (l.cameraCandidates name)

def appraiseBank (l : Locator) (host : Host) (name : String)
    (candidate : ActiveSet × BankMapping) : Verdict SoundBank :=
  let (s, mapping) := candidate
  match l.archive? host s mapping.archive with
  | none => .passOver
  | some archive =>
    match l.map.holding? s.name mapping.archive mapping.header,
      archive.file? mapping.header, archive.file? mapping.body with
    | some holding, some header, some body =>
      match header.at? 0, body.at? 0 with
      | some header, some body => .settle {
          name := name
          dataSet := s.name
          archiveName := mapping.archive
          isPsx := holding.isPsx
          header := header
          body := body
          samples := stream? host s.backend samplesFile }
      | _, _ => .refuse
    | _, _, _ => .passOver

def uncachedBank (l : Locator) (host : Host) (name : String) : Option SoundBank :=
  Verdict.pick (l.appraiseBank host name) (l.bankCandidates name)

def uncachedEffect (l : Locator) (host : Host) (name : String) : Option SoundEffect :=
  match l.map.effect? name with
  | none => none
  | some mapping =>
    if l.builtIn.any (fun s => s.name == mapping.dataSet) then
      (l.uncachedBank host mapping.bank).map fun bank => {
        name := name
        dataSet := mapping.dataSet
        bank := bank
        program := mapping.program
        note := mapping.note
        minPitch := mapping.minPitch
        maxPitch := mapping.maxPitch }
    else none

def appraiseMusic (l : Locator) (host : Host) (name : String) (mapping : MusicMapping)
    (s : ActiveSet) : Verdict Music :=
  match l.archive? host s mapping.archive with
  | none => .passOver
  | some archive =>
    match archive.file? mapping.file with
    | none => .passOver
    | some file =>
      match l.uncachedBank host mapping.bank with
      | none => .passOver
      | some bank =>
        match file.at? mapping.index with
        | none => .refuse
        | some sequence => .settle {
            name := name
            dataSet := s.name
            archiveName := mapping.archive
            file := mapping.file
            sequence := sequence
            bank := bank }

def uncachedMusic (l : Locator) (host : Host) (name : String) : Option Music :=
  match l.map.music? name with
  | none => none
  | some mapping =>
    Verdict.pick (l.appraiseMusic host name mapping)
      (l.builtIn.filter (fun s => s.name == mapping.dataSet))

def appraiseVideo (l : Locator) (host : Host) (name : String)
    (candidate : ActiveSet × VideoLocation) : Verdict Video :=
  let (s, location) := candidate
  match stream? host s.backend location.file with
  | none => .passOver
  | some stream => .settle {
      name := name
      dataSet := s.name
      file := location.file
      stream := stream
      startSector := location.startSector
      endSector := location.endSector
      subtitles := l.subtitles? host name }

def uncachedVideo (l : Locator) (host : Host) (name : String) : Option Video :=
  match l.map.video? name with
  | none => none
  | some mapping => Verdict.pick (l.appraiseVideo host name) (l.videoCandidates mapping)

end Locator
end LayeredAssets
