import LayeredAssets.Identity.Catalog

namespace LayeredAssets

open Identity (Catalog)

namespace Candidates

def strings? (items : List Json) : Option (List String) :=
  items.mapM fun
    | .string s => some s
    | _ => none

/-- A list of paths, or an object that holds it under a key of its own. -/
def paths? : Json → Option (List String)
  | .array items => strings? items
  | .object members =>
    match members.filter (fun m => m.1 == some "paths") with
    | [(_, .array items)] => strings? items
    | _ => none
  | _ => none

/-- The value is read whole before its shape is looked at. -/
def reader : Json.Reader (List String) := fun j =>
  if j.isReadable Json.nesting then
    match paths? j with
    | some paths => .ok paths
    | none => .error .noShape
  else .error .malformed

def ofText (file text : String) : Except Fault (List String) :=
  (Json.Document.readAs reader text).mapError (fun complaint => .config file (.text complaint))

/-- Without a list nothing is installed, which is no fault. -/
def load (host : Host) (b : Backend) (file : String) : Except Fault (List String) :=
  if b.isFile host file then do ofText file (← b.readText host file)
  else .ok []

end Candidates

/-- Where the data sets lie that have been identified. -/
structure PathTable where
  catalog : Catalog
  bindings : Table String String

namespace PathTable

/-- The first path of an identity keeps it. -/
def bind (bindings : Table String String) (name path : String) : Table String String :=
  if bindings.contains name then bindings else bindings.set name path

def ofCandidates (host : Host) (catalog : Catalog) (candidates : List String) : PathTable :=
  ⟨catalog, candidates.foldl (fun bindings path =>
    match catalog.identifyPath? host path with
    | some name => bind bindings name path
    | none => bindings) .empty⟩

def path? (table : PathTable) (name : String) : Option String := table.bindings.get? name

/-- The names that need a path and have none. -/
def missing (table : PathTable) (names : List String) : List String :=
  names.filter (fun name => !table.catalog.isMeta name && (table.path? name).isNone)

end PathTable
end LayeredAssets
