import LayeredAssets.Host

namespace LayeredAssets.Disc

def sectorSize : Nat := 2048

def rawSectorSize : Nat := 2352

/-- Raw images keep each sector with its sync mark, header and check bytes. -/
inductive Framing
  | cooked
  | raw (dataOffset : Nat)
  deriving DecidableEq, Repr

def Framing.offset (sector : Nat) : Framing → Nat
  | .cooked => sector * sectorSize
  | .raw dataOffset => sector * rawSectorSize + dataOffset

structure Extent where
  sector : Nat
  length : Nat
  deriving DecidableEq, Repr

def syncMark : Bytes := [0, 255, 255, 255, 255, 255, 255, 255, 255, 255, 255, 0]

/-- The header of the first sector decides for the whole image. -/
def Framing.ofNode (image : Node) : Except Fault Framing :=
  match image with
  | .folder => .ok .cooked
  | .file bytes =>
    if 16 ≤ bytes.length ∧ bytes.take 12 = syncMark ∧ bytes.length % rawSectorSize = 0 then
      match (bytes.getD 15 0).toNat with
      | 1 => .ok (.raw 16)
      | 2 => .ok (.raw 24)
      | mode => .error (.disc (.sectorMode mode))
    else .ok .cooked

/-- The parts of an extent that lie in one sector each: a sector and how much of it counts. -/
def Extent.parts (extent : Extent) : List (Nat × Nat) :=
  (List.range ((extent.length + sectorSize - 1) / sectorSize)).map fun i =>
    (extent.sector + i, min sectorSize (extent.length - i * sectorSize))

def readExtent (image : Node) (framing : Framing) (extent : Extent) : Except HostFault Bytes :=
  (extent.parts.mapM fun part => image.read (framing.offset part.1) part.2).map List.flatten

end LayeredAssets.Disc
