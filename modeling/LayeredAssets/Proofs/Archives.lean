import LayeredAssets.Archive
import LayeredAssets.Stream

namespace LayeredAssets

/-- Letters beyond ASCII keep their case. -/
def sameName (a b : String) : Bool := a.toList.map Char.toLower == b.toList.map Char.toLower

/-- A file with its chunks in a list. -/
def SubFile.ofChunks (chunks : List Chunk) : SubFile where
  withId? id := chunks.find? (fun chunk => chunk.id == id)
  withKind? kind := chunks.find? (fun chunk => chunk.kind == kind)
  at? index := chunks[index]?

/-- A look-up of some kind finds the chunk. -/
inductive SubFile.Contains (file : SubFile) (chunk : Chunk) : Prop where
  | byId {id : UInt32} (found : file.withId? id = some chunk)
  | byKind {kind : ChunkKind} (found : file.withKind? kind = some chunk)
  | byPlace {index : Nat} (found : file.at? index = some chunk)

theorem SubFile.mem_of_contains {chunks : List Chunk} {chunk : Chunk}
    (h : (ofChunks chunks).Contains chunk) : chunk ∈ chunks := by
  cases h with
  | byId found => exact List.mem_of_find?_eq_some found
  | byKind found => exact List.mem_of_find?_eq_some found
  | byPlace found => exact List.mem_of_getElem? found

/-- An archive with its files in a list. -/
def Archive.ofFiles (files : List (String × List Chunk)) : Archive where
  file? name :=
    (files.find? (fun file => sameName file.1 name)).map fun file => .ofChunks file.2

theorem Archive.exists_of_file? {files : List (String × List Chunk)} {name : String} {sub : SubFile}
    (h : (ofFiles files).file? name = some sub) :
    ∃ file ∈ files, sub = SubFile.ofChunks file.2 := by
  obtain ⟨file, hfile, rfl⟩ := Option.map_eq_some_iff.mp h
  exact ⟨file, List.mem_of_find?_eq_some hfile, rfl⟩

/-- A decoder that reads an archive to its end before it looks at it. -/
def Archive.drained (decode : String → Bytes → Except Fault Archive) (name : String)
    (stream : Stream) : Except Fault Archive := do
  decode name (← stream.drain.1.mapError .host)

end LayeredAssets
