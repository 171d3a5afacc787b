namespace LayeredAssets

/-- The chunk that holds an animation: its file, wherever that is kept, and its number in it. -/
structure AnimationMapping where
  file : String
  id : UInt32
  blendMode : UInt32
  deriving DecidableEq, Repr

/-- An archive that keeps some file, and how the files of its data set are made. -/
structure Holding where
  archive : String
  isPsx : Bool
  isAo : Bool
  scaleFrameOffsets : Bool
  deriving DecidableEq, Repr

structure PathLocation where
  dataSet : String
  file : String
  deriving DecidableEq, Repr

structure PathMapping where
  name : String
  id : UInt32
  collisionOffset : UInt32
  objectIndexOffset : UInt32
  objectOffset : UInt32
  screensAcross : UInt32
  screensDown : UInt32
  musicTheme : Option String
  locations : List PathLocation
  deriving DecidableEq, Repr

def PathMapping.location? (mapping : PathMapping) (dataSet : String) : Option PathLocation :=
  mapping.locations.find? (fun location => location.dataSet == dataSet)

structure VideoLocation where
  dataSet : String
  file : String
  startSector : Option UInt32
  endSector : Option UInt32
  deriving DecidableEq, Repr

structure VideoMapping where
  name : String
  locations : List VideoLocation
  deriving DecidableEq, Repr

/-- The two files of a sound bank in one data set. -/
structure BankMapping where
  name : String
  dataSet : String
  archive : String
  header : String
  body : String
  deriving DecidableEq, Repr

structure EffectMapping where
  name : String
  dataSet : String
  bank : String
  program : UInt32
  note : UInt32
  minPitch : Int
  maxPitch : Int
  deriving DecidableEq, Repr

structure MusicMapping where
  name : String
  dataSet : String
  archive : String
  file : String
  index : Nat
  bank : String
  deriving DecidableEq, Repr

end LayeredAssets
