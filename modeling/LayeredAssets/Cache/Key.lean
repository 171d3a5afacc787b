import LayeredAssets.Text.Quoted

namespace LayeredAssets

/-- What a cached value was made from: an archive of a data set, or a chunk of a file in it. -/
structure CacheKey where
  dataSet : String
  archive : String
  file : Option String
  chunk : Option UInt32
  deriving DecidableEq, Repr

namespace CacheKey

def ofArchive (dataSet archive : String) : CacheKey := ⟨dataSet, archive, none, none⟩

def ofChunk (dataSet archive file : String) (id : UInt32) : CacheKey :=
  ⟨dataSet, archive, some file, some id⟩

def display (key : CacheKey) : String :=
  key.dataSet ++ ":" ++ key.archive
    ++ (match key.file with
      | some file => "/" ++ file
      | none => "")
    ++ (match key.chunk with
      | some id => "#" ++ toString id.toNat
      | none => "")

def describeOption {α : Type} (describe : α → String) : Option α → String
  | some a => "Some(" ++ describe a ++ ")"
  | none => "None"

def describe (key : CacheKey) : String :=
  "CacheKey \x7b data_set: " ++ Text.quote key.dataSet ++ ", archive: " ++ Text.quote key.archive
    ++ ", file: " ++ describeOption Text.quote key.file
    ++ ", chunk: " ++ describeOption (fun id => toString id.toNat) key.chunk ++ " \x7d"

end CacheKey
end LayeredAssets
