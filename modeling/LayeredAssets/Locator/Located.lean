import LayeredAssets.Cache
import LayeredAssets.Stream

namespace LayeredAssets

/-- An animation keeps its archive and its chunk in the cache for as long as it is held. -/
structure Animation where
  name : String
  dataSet : String
  archiveName : String
  file : String
  id : UInt32
  blendMode : UInt32
  isPsx : Bool
  scaleFrameOffsets : Bool
  archive : Held .archive
  chunk : Held .chunk

structure LevelPath where
  name : String
  dataSet : String
  archiveName : String
  file : String
  chunk : Chunk
  collisionOffset : UInt32
  objectIndexOffset : UInt32
  objectOffset : UInt32
  screensAcross : UInt32
  screensDown : UInt32
  musicTheme : Option String
  isAo : Bool

/-- The camera of a game itself. -/
structure GameCamera where
  dataSet : String
  archiveName : String
  bits : Chunk
  foreground : Option Chunk

/-- A mod replaces a camera, or adds to that of a game. -/
inductive Camera
  | game (camera : GameCamera)
  | replacement (dataSet : String) (image : Stream)
  | delta (dataSet : String) (delta : Stream) (base : GameCamera)

structure SoundBank where
  name : String
  dataSet : String
  archiveName : String
  isPsx : Bool
  header : Chunk
  body : Chunk
  samples : Option Stream

structure SoundEffect where
  name : String
  dataSet : String
  bank : SoundBank
  program : UInt32
  note : UInt32
  minPitch : Int
  maxPitch : Int

structure Music where
  name : String
  dataSet : String
  archiveName : String
  file : String
  sequence : Chunk
  bank : SoundBank

structure Video where
  name : String
  dataSet : String
  file : String
  stream : Stream
  startSector : Option UInt32
  endSector : Option UInt32
  subtitles : Option Stream

end LayeredAssets
