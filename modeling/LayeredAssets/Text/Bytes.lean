namespace LayeredAssets

abbrev Bytes := List UInt8

namespace Bytes

/-- All `count` bytes from `start`, or nothing: a short answer would hide where the data ends. -/
def slice? (bytes : Bytes) (start count : Nat) : Option Bytes :=
  let part := (bytes.drop start).take count
  if part.length = count then some part else none

def ofText (s : String) : Bytes := s.toUTF8.toList

/-- Little-endian, as numbers stand in directory records. -/
def toNat (bytes : Bytes) : Nat :=
  bytes.foldr (fun b n => b.toNat + 256 * n) 0

end Bytes
end LayeredAssets
