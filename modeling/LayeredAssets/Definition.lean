import LayeredAssets.Backend
import LayeredAssets.Json.Layout
import LayeredAssets.Json.Reading

namespace LayeredAssets

/-- A game or a mod, and the data sets it is played with. -/
structure Definition where
  name : String
  description : String
  author : String
  initialLevel : String
  dataSet : String
  hidden : Bool
  required : List String
  isMod : Bool
  /-- The place of the backend that it was read from. -/
  container : String
  deriving DecidableEq, Repr

namespace Definition

/-- One that names its data sets and tells nothing else. -/
def bare (name dataSet : String) (required : List String) (isMod : Bool) : Definition :=
  ⟨name, "", "", "", dataSet, false, required, isMod, ""⟩

def names : Json.Reader (List String) := Json.Reader.list Json.Reader.string

def layout : Json.Layout := ⟨"GameDefinition", false, [
  .of "Name" true Json.Reader.string,
  .of "Description" true Json.Reader.string,
  .of "Author" true Json.Reader.string,
  .of "InitialLevel" true Json.Reader.string,
  .of "DatasetName" true Json.Reader.string,
  .of "Hidden" false Json.Reader.bool,
  .of "RequiredDatasets" false names]⟩

/-- Whether it is a mod depends on where it was found, and no text may say so. -/
def reader (isMod : Bool) (container : String) : Json.Reader Definition := fun j => do
  let cells ← layout.cells .text j
  return {
    name := ← cells.required "Name" Json.Reader.string
    description := ← cells.required "Description" Json.Reader.string
    author := ← cells.required "Author" Json.Reader.string
    initialLevel := ← cells.required "InitialLevel" Json.Reader.string
    dataSet := ← cells.required "DatasetName" Json.Reader.string
    hidden := ← cells.optional "Hidden" Json.Reader.bool false
    required := ← cells.optional "RequiredDatasets" names []
    isMod := isMod
    container := container }

def ofText (file text : String) (isMod : Bool) (container : String) : Except Fault Definition :=
  (Json.Document.readAs (reader isMod container) text).mapError
    (fun complaint => .config file (.text complaint))

def load (host : Host) (b : Backend) (file : String) (isMod : Bool) : Except Fault Definition := do
  ofText file (← b.readText host file) isMod b.place

/-- The definitions of the games themselves, each in a file of its own. -/
def loadAll (host : Host) (b : Backend) (folder : String) : Except Fault (List Definition) := do
  (← b.enumerate host folder "*.json").mapM fun name =>
    load host b (Path.trimEnd '/' folder ++ "/" ++ name) false

def modFile : String := "GameDefinition.json"

/-- A folder without a definition is no mod, and neither is one whose definition cannot be read. -/
def loadMod? (host : Host) (b : Backend) (name : String) : Option Definition :=
  let view := b.limit name
  if view.isFile host modFile then (load host view modFile true).toOption else none

def loadMods (host : Host) (b : Backend) : Except Fault (List Definition) := do
  return (← b.enumerate host "" "*").filterMap (loadMod? host b)

def visible (all : List Definition) : List Definition := all.filter (fun d => !d.hidden)

/-- Of definitions that own the same data set the first one counts. -/
def find? (all : List Definition) (dataSet : String) : Option Definition :=
  all.find? (fun d => d.dataSet == dataSet)

end Definition
end LayeredAssets
