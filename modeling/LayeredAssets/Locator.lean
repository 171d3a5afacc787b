import LayeredAssets.Cache.Session
import LayeredAssets.Locator.Located
import LayeredAssets.Locator.Verdict
import LayeredAssets.Settings

namespace LayeredAssets

/-- What is needed to find resources, and what is open at the moment. -/
structure Locator where
  map : ResourceMap
  table : PathTable
  /-- The folder of the game, which keeps files of its own. -/
  gameFiles : Option Backend
  loader : (name : String) → Stream → Except Fault Archive
  active : List ActiveSet
  cache : Cache
  /-- How many archives have been loaded. -/
  loads : Nat

namespace Locator

def make (loader : String → Stream → Except Fault Archive) (map : ResourceMap) (table : PathTable)
    (gameFiles : Option Backend) : Locator :=
  ⟨map, table, gameFiles, loader, [], .empty, 0⟩

def ofSettings (loader : String → Stream → Except Fault Archive) (host : Host) (s : Settings) :
    Except Fault Locator := do
  let table ← s.loadTable host
  let map ← s.loadMap host
  let gameFiles ← Backend.ofFolder host (← s.resolve Settings.gameFolderName)
  return make loader map table (some gameFiles)

def setActive (l : Locator) (active : List ActiveSet) : Locator := { l with active := active }

/-- A list that cannot be activated leaves the old one in place. -/
def setPriorities (l : Locator) (host : Host) (priorities : List Priority) :
    Except Fault Locator := do
  return l.setActive (← l.table.activate host priorities)

def builtIn (l : Locator) : List ActiveSet := l.active.filter (fun s => !s.isMod)

/-- Each data set with each of its archives that keep a file. -/
def keepers (l : Locator) (sets : List ActiveSet) (file : String) : List (ActiveSet × Holding) :=
  sets.flatMap (fun s => (l.map.holdings s.name file).map (s, ·))

def load (l : Locator) (host : Host) (s : ActiveSet) (name : String) : Except Fault Archive := do
  l.loader name (← s.backend.openFile host name)

/-- An archive that is missing, or that cannot be read, opens as nothing. -/
def openArchive (l : Locator) (host : Host) (s : ActiveSet) (name : String) :
    Locator × Option (Held .archive) :=
  if s.backend.isFile host name then
    let (cache, held, constructed) :=
      l.cache.obtain (.ofArchive s.name name) .archive (fun c => (c, l.load host s name)) []
    ({ l with cache := cache, loads := l.loads + if constructed && held.isOk then 1 else 0 },
      held.toOption)
  else (l, none)

def release (l : Locator) (handle : Nat) : Locator := { l with cache := l.cache.drop handle }

/-- The archive is held while its files are looked at, and a candidate without one is passed
over. -/
def withArchive {α : Type} (l : Locator) (host : Host) (s : ActiveSet) (name : String)
    (judge : Locator → Archive → Locator × Verdict α) : Locator × Verdict α :=
  match l.openArchive host s name with
  | (l, none) => (l, .passOver)
  | (l, some held) =>
    let (l, verdict) := judge l held.value
    (l.release held.handle, verdict)

/-- A stream for a file that is there and opens. -/
def stream? (host : Host) (b : Backend) (file : String) : Option Stream :=
  if b.isFile host file then (b.openFile host file).toOption else none

end Locator
end LayeredAssets
