import LayeredAssets.Backend
import LayeredAssets.Json.Reading
import LayeredAssets.ResourceMap.Record
import LayeredAssets.Table

namespace LayeredAssets

/-- Where the resources of each name are kept. -/
structure ResourceMap where
  animations : Table String AnimationMapping
  /-- By data set and file: the archives that keep it, each once. -/
  files : Table (String × String) (List Holding)
  paths : Table String PathMapping
  videos : Table String VideoMapping
  banks : Table String (List BankMapping)
  effects : Table String EffectMapping
  musics : Table String MusicMapping
  deriving DecidableEq, Repr

namespace ResourceMap

def empty : ResourceMap := ⟨.empty, .empty, .empty, .empty, .empty, .empty, .empty⟩

def animation? (m : ResourceMap) (name : String) : Option AnimationMapping := m.animations.get? name

def animationNames (m : ResourceMap) : List String := Text.sorted m.animations.keys

def path? (m : ResourceMap) (name : String) : Option PathMapping := m.paths.get? name

def video? (m : ResourceMap) (name : String) : Option VideoMapping := m.videos.get? name

def effect? (m : ResourceMap) (name : String) : Option EffectMapping := m.effects.get? name

def music? (m : ResourceMap) (name : String) : Option MusicMapping := m.musics.get? name

def banksNamed (m : ResourceMap) (name : String) : List BankMapping := (m.banks.get? name).getD []

def holdings (m : ResourceMap) (dataSet file : String) : List Holding :=
  (m.files.get? (dataSet, file)).getD []

def holding? (m : ResourceMap) (dataSet archive file : String) : Option Holding :=
  (m.holdings dataSet file).find? (fun holding => holding.archive == archive)

/-- The data sets that keep a file, with their archives; nothing, if none does. -/
def holdingsByDataSet (m : ResourceMap) (file : String) : List (String × List Holding) :=
  m.files.entries.filterMap fun entry =>
    if entry.1.2 = file then some (entry.1.1, entry.2) else none

/-- An animation, with the archives that keep its file. -/
def find? (m : ResourceMap) (name : String) :
    Option (AnimationMapping × List (String × List Holding)) :=
  (m.animation? name).map fun mapping => (mapping, m.holdingsByDataSet mapping.file)

def addAnimation (m : ResourceMap) (name : String) (mapping : AnimationMapping) : ResourceMap :=
  { m with animations := m.animations.set name mapping }

/-- An archive that is known to keep the file stays as it is. -/
def addHolding (m : ResourceMap) (dataSet file : String) (holding : Holding) : ResourceMap :=
  let known := m.holdings dataSet file
  if known.any (fun h => h.archive == holding.archive) then m
  else { m with files := m.files.set (dataSet, file) (known ++ [holding]) }

def addArchive (dataSet : String) (m : ResourceMap) (archive : Holding × List String) :
    ResourceMap :=
  archive.2.foldl (fun m file => m.addHolding dataSet file archive.1) m

def addPath (m : ResourceMap) (mapping : PathMapping) : ResourceMap :=
  { m with paths := m.paths.set mapping.name mapping }

def addVideo (m : ResourceMap) (mapping : VideoMapping) : ResourceMap :=
  { m with videos := m.videos.set mapping.name mapping }

/-- A bank is declared once for each data set, so its mappings add up. -/
def addBank (m : ResourceMap) (mapping : BankMapping) : ResourceMap :=
  { m with banks := m.banks.set mapping.name (m.banksNamed mapping.name ++ [mapping]) }

def addEffect (m : ResourceMap) (mapping : EffectMapping) : ResourceMap :=
  { m with effects := m.effects.set mapping.name mapping }

def addMusic (m : ResourceMap) (mapping : MusicMapping) : ResourceMap :=
  { m with musics := m.musics.set mapping.name mapping }

def add (m : ResourceMap) : MapRecord → ResourceMap
  | .animations named => named.foldl (fun m entry => m.addAnimation entry.1 entry.2) m
  | .files dataSet archives => archives.foldl (addArchive dataSet) m
  | .paths mappings => mappings.foldl addPath m
  | .videos mappings => mappings.foldl addVideo m
  | .banks mappings => mappings.foldl addBank m
  | .effects mappings => mappings.foldl addEffect m
  | .musics mappings => mappings.foldl addMusic m
  | .unknown => m

/-- The records in front of a malformed one stay added. -/
def addRecords (m : ResourceMap) (index : Nat) :
    List (List (String × Json)) → ResourceMap × Except ConfigFault Unit
  | [] => (m, .ok ())
  | members :: rest =>
    match MapRecord.ofMembers members with
    | .ok record => (m.add record).addRecords (index + 1) rest
    | .error complaint => (m, .error (.record index complaint))

def catalogReader : Json.Reader (List (List (String × Json))) :=
  Json.Reader.list (Json.Reader.members (Json.nesting - 1))

/-- What the map becomes, and whether all of the catalog went into it. -/
def extend (m : ResourceMap) (file text : String) : ResourceMap × Except Fault Unit :=
  match Json.Document.readAs catalogReader text with
  | .error complaint => (m, .error (.config file (.text complaint)))
  | .ok records =>
    let (m, outcome) := m.addRecords 0 records
    (m, outcome.mapError (.config file))

def extendFrom (m : ResourceMap) (host : Host) (b : Backend) (file : String) :
    ResourceMap × Except Fault Unit :=
  match b.readText host file with
  | .error fault => (m, .error fault)
  | .ok text => m.extend file text

def ofText (file text : String) : Except Fault ResourceMap :=
  let (m, outcome) := empty.extend file text
  outcome.map (fun _ => m)

def load (host : Host) (b : Backend) (file : String) : Except Fault ResourceMap :=
  let (m, outcome) := empty.extendFrom host b file
  outcome.map (fun _ => m)

end ResourceMap
end LayeredAssets
