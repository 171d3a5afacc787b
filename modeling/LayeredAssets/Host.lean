import LayeredAssets.Fault
import LayeredAssets.Path
import LayeredAssets.Text.Bytes

namespace LayeredAssets

inductive Node
  | file (bytes : Bytes)
  | folder

/-- Exactly `count` bytes, as a read that must fill its buffer. -/
def Node.read (start count : Nat) : Node → Except HostFault Bytes
  | .file bytes =>
    match bytes.slice? start count with
    | some part => .ok part
    | none => .error .endOfData
  | .folder => .error .isFolder

def Node.isFile : Node → Bool
  | .file _ => true
  | .folder => false

/-- The files a program may meet, by the names that lead to each from the root of all folders, and
the names that lead to the working folder. -/
structure Host where
  entries : List (List String × Node)
  working : List String

namespace Host

/-- A place in the tree, by the names that lead there from its root. -/
structure Place where
  names : List String
  deriving DecidableEq, Repr

def node? (host : Host) (place : Place) : Option Node :=
  if place.names = [] then some .folder else host.entries.lookup place.names

/-- The root is its own parent. -/
def Place.parent (place : Place) : Place := ⟨place.names.dropLast⟩

def Place.child (name : String) (place : Place) : Place := ⟨place.names ++ [name]⟩

/-- Every part but the last must name a folder, and so must one that an empty part or a dot
follows. -/
def resolve (host : Host) (place : Place) : List String → Except HostFault Place
  | [] => .ok place
  | part :: rest =>
    match host.node? place with
    | none => .error .notFound
    | some (.file _) => .error .notFolder
    | some .folder =>
      if part = "" ∨ part = "." then host.resolve place rest
      else if part = ".." then host.resolve place.parent rest
      else host.resolve (place.child part) rest

/-- Where the parts of a path are followed from: an absolute path starts at the root. -/
def start (host : Host) (path : String) : Place :=
  if path.toList.head? = some '/' then ⟨[]⟩ else ⟨host.working⟩

/-- An empty path names nothing. -/
def locate (host : Host) (path : String) : Except HostFault Place :=
  if path.isEmpty then .error .notFound
  else host.resolve (host.start path) (Path.parts path)

def find (host : Host) (path : String) : Except HostFault Node :=
  match host.locate path with
  | .error cause => .error cause
  | .ok place =>
    match host.node? place with
    | some node => .ok node
    | none => .error .notFound

def isFolder (host : Host) (path : String) : Bool :=
  match host.find path with
  | .ok .folder => true
  | _ => false

def isFile (host : Host) (path : String) : Bool :=
  match host.find path with
  | .ok (.file _) => true
  | _ => false

/-- The names in a folder, in no particular order. -/
def names (host : Host) (path : String) : Except HostFault (List String) :=
  match host.locate path with
  | .error cause => .error cause
  | .ok place =>
    match host.node? place with
    | none => .error .notFound
    | some (.file _) => .error .notFolder
    | some .folder =>
      .ok (host.entries.filterMap fun entry =>
        if entry.1 ≠ [] ∧ place.names = entry.1.dropLast then entry.1.getLast? else none)

def put (host : Host) (names : List String) (node : Node) : Host :=
  { host with entries := (names, node) :: host.entries.filter (fun entry => entry.1 ≠ names) }

def addFolders (host : Host) : List (List String) → Host
  | [] => host
  | names :: rest =>
    if (host.node? ⟨names⟩).isSome then host.addFolders rest
    else (host.put names .folder).addFolders rest

/-- All the folders on the way, the outermost first. -/
def above (names : List String) : List (List String) :=
  (List.range names.length).map (fun n => names.take n)

/-- A host with nothing on it but the folders that lead to the working one. -/
def workingIn (names : List String) : Host :=
  (Host.mk [] names).addFolders (above names ++ [names])

/-- Names as a caller writes them behind the working folder, with no dots to follow. -/
def plainNames (host : Host) (path : String) : List String :=
  host.working ++ (Path.parts path).filter (fun part => part ≠ "" ∧ part ≠ ".")

def addFolder (host : Host) (path : String) : Host :=
  host.addFolders (above (host.plainNames path) ++ [host.plainNames path])

def write (host : Host) (path : String) (bytes : Bytes) : Host :=
  (host.addFolders (above (host.plainNames path))).put (host.plainNames path) (.file bytes)

def remove (host : Host) (path : String) : Host :=
  { host with entries := host.entries.filter (fun entry => entry.1 ≠ host.plainNames path) }

end Host
end LayeredAssets
