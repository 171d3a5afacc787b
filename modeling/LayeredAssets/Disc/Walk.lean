import LayeredAssets.Disc.Record
import LayeredAssets.Text.Uppercase

namespace LayeredAssets.Disc

def firstDescriptor : Nat := 16

def mostDescriptors : Nat := 32

/-- Folders may lie this deep below the root. -/
def mostLevels : Nat := 32

/-- Descriptors are looked through until the primary one, which holds the root's record, or the
terminator. -/
def rootFrom (image : Node) (path : String) (framing : Framing) :
    (left sector : Nat) → Except Fault Record
  | 0, _ => .error (.disc (.noPrimary path))
  | left + 1, sector =>
    match readExtent image framing ⟨sector, sectorSize⟩ with
    | .error cause => .error (.host cause)
    | .ok bytes =>
      if (bytes.drop 1).take 5 ≠ Bytes.ofText "CD001" then
        .error (.disc (.noDescriptor path sector))
      else if bytes.head? = some 1 then
        match parseRecord (bytes.drop 156) with
        | some record => .ok record
        | none => .error (.disc .badRoot)
      else if bytes.head? = some 255 then .error (.disc (.noPrimary path))
      else rootFrom image path framing left (sector + 1)

def rootRecord (image : Node) (path : String) (framing : Framing) : Except Fault Record :=
  rootFrom image path framing mostDescriptors firstDescriptor

/-- A record met in the folder whose path is `folder`. -/
structure Sighting where
  folder : String
  record : Record
  deriving DecidableEq, Repr

/-- Paths are kept in capitals, since the names on a disc are found in any case. -/
def Sighting.path (s : Sighting) : String :=
  if s.folder = "" then Text.uppercase s.record.name
  else s.folder ++ "/" ++ Text.uppercase s.record.name

/-- All records under a folder, each followed by those below it. The bound on levels also ends the
walk of an image whose folders contain one another. -/
def walk (image : Node) (framing : Framing) :
    (levels : Nat) → (folder : String) → Extent → Except Fault (List Sighting)
  | 0, folder, _ => .error (.disc (.tooDeep folder))
  | levels + 1, folder, extent => do
    let bytes ← (readExtent image framing extent).mapError .host
    let (records, sound) := parseRecords 0 bytes
    let named := records.filter (fun r => r.name != "." && r.name != "..")
    let found ← named.mapM fun record => do
      let sighting : Sighting := ⟨folder, record⟩
      if record.isFolder then
        return sighting :: (← walk image framing levels sighting.path record.extent)
      else return [sighting]
    if sound then return found.flatten
    else throw (.disc (.badRecord folder))

end LayeredAssets.Disc
