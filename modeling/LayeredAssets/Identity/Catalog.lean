import LayeredAssets.Backend
import LayeredAssets.Identity.Fingerprint

namespace LayeredAssets.Identity

/-- The identities that a data set may have, in the order in which they are tried. -/
structure Catalog where
  entries : List (String × Fingerprint)

namespace Catalog

def empty : Catalog := ⟨[]⟩

/-- The members of the catalog itself, which may stand on its own or be wrapped. -/
def unwrap (members : List (String × Json)) : Except ConfigFault (List (String × Json)) :=
  match members.lookup "data_set_ids" with
  | none => .ok members
  | some (.object inner) => .ok (Json.entries inner)
  | some _ => .error .wrappedNotObject

def readEntry (member : String × Json) : Except ConfigFault (String × Fingerprint) :=
  match Fingerprint.reader .value member.2 with
  | .ok print => .ok (member.1, print)
  | .error complaint => .error (.entry member.1 complaint)

def parse (text : String) : Except ConfigFault Catalog := do
  let members ← (Json.Document.readAs (Json.Reader.members Json.nesting) text).mapError .text
  return ⟨← (← unwrap members).mapM readEntry⟩

def ofText (file text : String) : Except Fault Catalog := (parse text).mapError (.config file)

/-- Without a catalog nothing can be told apart, which is no fault. -/
def load (host : Host) (b : Backend) (file : String) : Except Fault Catalog :=
  if b.isFile host file then do ofText file (← b.readText host file)
  else .ok empty

def isMeta (catalog : Catalog) (name : String) : Bool :=
  catalog.entries.any (fun entry => entry.1 == name && entry.2.isMeta)

def size (catalog : Catalog) : Nat := catalog.entries.length

/-- An identity that only groups others fits nothing. -/
def identify? (catalog : Catalog) (holds : String → Bool) : Option String :=
  (catalog.entries.find? (fun entry => entry.2.fits holds)).map Prod.fst

/-- A path that cannot be opened has no identity. -/
def identifyPath? (catalog : Catalog) (host : Host) (path : String) : Option String :=
  match Backend.ofDataPath host path with
  | .ok b => catalog.identify? (b.isFile host)
  | .error _ => none

end Catalog
end LayeredAssets.Identity
