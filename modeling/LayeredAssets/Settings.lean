import LayeredAssets.NamedPaths
import LayeredAssets.ResourceMap
import LayeredAssets.SearchList

namespace LayeredAssets

/-- Where everything is found. All paths may hold the names of the two folders. -/
structure Settings where
  gameFolder : String
  userFolder : String
  catalog : String
  candidates : String
  /-- Resource catalogs, of which a later one adds to those before it. -/
  maps : List String
  definitions : String
  mods : String
  deriving DecidableEq, Repr

namespace Settings

def standard : Settings where
  gameFolder := "."
  userFolder := "."
  catalog := "\x7bGameDir\x7d/data/DataSetIds.json"
  candidates := "\x7bUserDir\x7d/DataPaths.json"
  maps := ["\x7bGameDir\x7d/data/resources.json", "\x7bGameDir\x7d/data/paths.json"]
  definitions := "\x7bGameDir\x7d/data/GameDefinitions"
  mods := "\x7bGameDir\x7d/Mods"

open Json.Reader (string list)

def layout : Json.Layout := ⟨"Settings", false, [
  .of "game_dir" false string,
  .of "user_dir" false string,
  .of "data_set_ids" false string,
  .of "data_paths" false string,
  .of "resource_maps" false (list string),
  .of "game_definitions" false string,
  .of "mods" false string]⟩

def reader : Json.Reader Settings := fun j => do
  let cells ← layout.cells .text j
  return {
    gameFolder := ← cells.optional "game_dir" string standard.gameFolder
    userFolder := ← cells.optional "user_dir" string standard.userFolder
    catalog := ← cells.optional "data_set_ids" string standard.catalog
    candidates := ← cells.optional "data_paths" string standard.candidates
    maps := ← cells.optional "resource_maps" (list string) standard.maps
    definitions := ← cells.optional "game_definitions" string standard.definitions
    mods := ← cells.optional "mods" string standard.mods }

def ofText (text : String) : Except Fault Settings :=
  (Json.Document.readAs reader text).mapError
    (fun complaint => .config "settings" (.text complaint))

def gameFolderName : String := "\x7bGameDir\x7d"

def userFolderName : String := "\x7bUserDir\x7d"

def named (s : Settings) : Except Fault NamedPaths := do
  let named ← (NamedPaths.empty.add gameFolderName s.gameFolder).mapError .namedPath
  (named.add userFolderName s.userFolder).mapError .namedPath

def resolve (s : Settings) (path : String) : Except Fault String := do
  (← s.named).resolve path

/-- The folder that a file lies in, and the name of the file there. -/
def openParent (host : Host) (path : String) : Except Fault (Backend × String) :=
  match Path.parentAndName? path with
  | none => .error (.fileNotFound path)
  | some (parent, name) =>
    (Backend.ofFolder host (if parent.isEmpty then "." else parent)).map (·, name)

/-- The folder and the name that a configured path leads to. -/
def openConfigured (host : Host) (named : NamedPaths) (path : String) :
    Except Fault (Backend × String) := do
  openParent host (← named.resolve path)

def loadTable (s : Settings) (host : Host) : Except Fault PathTable := do
  let named ← s.named
  let (b, file) ← openConfigured host named s.catalog
  let catalog ← Identity.Catalog.load host b file
  let (b, file) ← openConfigured host named s.candidates
  let candidates ← (← Candidates.load host b file).mapM named.resolve
  return PathTable.ofCandidates host catalog candidates

def extendMap (host : Host) (named : NamedPaths) (m : ResourceMap) (path : String) :
    Except Fault ResourceMap := do
  let (b, file) ← openConfigured host named path
  let (m, outcome) := m.extendFrom host b file
  outcome.map (fun _ => m)

def loadMap (s : Settings) (host : Host) : Except Fault ResourceMap := do
  let named ← s.named
  s.maps.foldlM (extendMap host named) .empty

/-- The games themselves come before the mods, and there may be no mods. -/
def loadDefinitions (s : Settings) (host : Host) : Except Fault (List Definition) := do
  let named ← s.named
  let games ← Backend.ofFolder host (← named.resolve s.definitions)
  let definitions ← Definition.loadAll host games ""
  let mods ← named.resolve s.mods
  if host.isFolder mods then
    return definitions ++ (← Definition.loadMods host (← Backend.ofFolder host mods))
  else return definitions

end Settings
end LayeredAssets
