import LayeredAssets.Locator

namespace LayeredAssets.Locator

def chunkOf (name : String) (file : SubFile) (id : UInt32) : Except Fault Chunk :=
  match file.withId? id with
  | some chunk => .ok chunk
  | none => .error (.archive (name ++ " has no chunk " ++ toString id.toNat))

/-- The chunk is shared through the cache like its archive. -/
def obtainChunk (l : Locator) (dataSet archive name : String) (file : SubFile) (id : UInt32) :
    Locator × Option (Held .chunk) :=
  let (cache, held, _) := l.cache.obtain (.ofChunk dataSet archive name id) .chunk
    (fun c => (c, chunkOf name file id)) []
  ({ l with cache := cache }, held.toOption)

/-- A file without the chunk ends the search, whatever later archives hold. -/
def judgeAnimation (host : Host) (name : String) (mapping : AnimationMapping) (l : Locator)
    (candidate : ActiveSet × Holding) : Locator × Verdict Animation :=
  let (s, holding) := candidate
  match l.openArchive host s holding.archive with
  | (l, none) => (l, .passOver)
  | (l, some archive) =>
    match archive.value.file? mapping.file with
    | none => (l.release archive.handle, .passOver)
    | some file =>
      match l.obtainChunk s.name holding.archive mapping.file file mapping.id with
      | (l, none) => (l.release archive.handle, .refuse)
      | (l, some chunk) =>
        (l, .settle {
          name := name
          dataSet := s.name
          archiveName := holding.archive
          file := mapping.file
          id := mapping.id
          blendMode := mapping.blendMode
          isPsx := holding.isPsx
          scaleFrameOffsets := holding.scaleFrameOffsets
          archive := archive
          chunk := chunk })

def locateAnimation (l : Locator) (host : Host) (name : String) : Locator × Option Animation :=
  match l.map.animation? name with
  | none => (l, none)
  | some mapping =>
    Verdict.first (judgeAnimation host name mapping) l (l.keepers l.builtIn mapping.file)

/-- Only in the first active data set of a name, whatever it is and wherever it stands. -/
def locateAnimationIn (l : Locator) (host : Host) (name dataSet : String) :
    Locator × Option Animation :=
  match l.active.find? (fun s => s.name == dataSet), l.map.animation? name with
  | some s, some mapping =>
    Verdict.first (judgeAnimation host name mapping) l (l.keepers [s] mapping.file)
  | _, _ => (l, none)

/-- The animation is let go. -/
def releaseAnimation (l : Locator) (animation : Animation) : Locator :=
  (l.release animation.archive.handle).release animation.chunk.handle

end LayeredAssets.Locator
