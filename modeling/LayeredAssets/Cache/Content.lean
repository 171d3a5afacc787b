import LayeredAssets.Archive
import LayeredAssets.Text.Quoted

namespace LayeredAssets

/-- The types of value that a cache may hold. A witness holds nothing. -/
inductive Kind
  | archive
  | chunk
  | number
  | text
  | witness
  deriving DecidableEq, Repr

abbrev Kind.Value : Kind → Type
  | .archive => Archive
  | .chunk => Chunk
  | .number => UInt32
  | .text => String
  | .witness => Unit

structure Content where
  kind : Kind
  value : kind.Value

namespace Content

/-- A value is given out as what it is and as nothing else. -/
def as? (content : Content) (kind : Kind) : Option kind.Value :=
  if h : content.kind = kind then some (h ▸ content.value) else none

def describe : Content → String
  | ⟨.number, n⟩ => toString n.toNat
  | ⟨.text, s⟩ => Text.quote s
  | ⟨.chunk, chunk⟩ => "Chunk " ++ toString chunk.id.toNat
  | ⟨.archive, _⟩ => "Archive"
  | ⟨.witness, _⟩ => "Probe"

end Content
end LayeredAssets
