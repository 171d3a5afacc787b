import LayeredAssets.Disc.Sector
import LayeredAssets.Text.Utf8

namespace LayeredAssets.Disc

structure Record where
  name : String
  extent : Extent
  isFolder : Bool
  deriving DecidableEq, Repr

def leastRecord : Nat := 34

def beforeVersion (name : List Char) : List Char := name.takeWhile (· != ';')

/-- A dot with nothing after it is part of the recorded form only. -/
def recordName (identifier : Bytes) : String :=
  if identifier = [0] then "."
  else if identifier = [1] then ".."
  else
    String.ofList (Path.trimEndChars '.' (beforeVersion (Text.readLossy identifier).toList))

def parseRecord (bytes : Bytes) : Option Record := do
  let length ← bytes.head?
  if length.toNat < leastRecord ∨ bytes.length < length.toNat then none
  let identifier ← bytes.slice? 33 (bytes.getD 32 0).toNat
  return {
    name := recordName identifier
    extent := ⟨Bytes.toNat ((bytes.drop 2).take 4), Bytes.toNat ((bytes.drop 10).take 4)⟩
    isFolder := (bytes.getD 25 0).toNat / 2 % 2 = 1 }

/-- The records of a folder, and whether they are well formed to the end. A zero length marks the
rest of its sector as padding. -/
def parseRecords (done : Nat) (bytes : Bytes) : List Record × Bool :=
  match bytes with
  | [] => ([], true)
  | length :: rest =>
    if length.toNat = 0 then
      let skipped := sectorSize - done % sectorSize
      parseRecords (done + skipped) ((length :: rest).drop skipped)
    else
      match Bytes.slice? (length :: rest) 0 length.toNat with
      | none => ([], false)
      | some part =>
        match parseRecord part with
        | none => ([], false)
        | some record =>
          let (records, sound) :=
            parseRecords (done + length.toNat) ((length :: rest).drop length.toNat)
          (record :: records, sound)
termination_by bytes.length
decreasing_by
  · have : done % sectorSize < sectorSize := Nat.mod_lt _ (by decide)
    simp only [List.length_drop, List.length_cons]; omega
  · simp only [List.length_drop, List.length_cons]; omega

end LayeredAssets.Disc
