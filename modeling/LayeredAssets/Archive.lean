import LayeredAssets.Text.Utf8

namespace LayeredAssets

/-- The four characters that tell what a chunk holds. -/
structure ChunkKind where
  tag : Bytes
  four : tag.length = 4
  deriving DecidableEq

namespace ChunkKind

/-- A short tag is filled up with spaces. -/
def ofBytes (bytes : Bytes) : ChunkKind :=
  ⟨(bytes ++ List.replicate 4 0x20).take 4, by
    simp only [List.length_take, List.length_append, List.length_replicate]; omega⟩

def ofText (s : String) : ChunkKind := ofBytes (Bytes.ofText s)

def display (kind : ChunkKind) : String := Text.readLossy kind.tag

/-- The picture of a camera. -/
def bits : ChunkKind := ofText "Bits"

/-- The layer of a camera that stands before the figures. -/
def foreground : ChunkKind := ofText "FG1"

end ChunkKind

structure Chunk where
  id : UInt32
  kind : ChunkKind
  bytes : Bytes
  deriving DecidableEq

/-- A file of an archive, as the decoder of archives gives it: its chunks by their numbers, by what
they hold and by where they stand. -/
structure SubFile where
  withId? : UInt32 → Option Chunk
  withKind? : ChunkKind → Option Chunk
  at? : Nat → Option Chunk

/-- An archive, as its decoder gives it: its files by their names. -/
structure Archive where
  file? : String → Option SubFile

end LayeredAssets
