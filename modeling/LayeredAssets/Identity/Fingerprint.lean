import LayeredAssets.Json.Layout
import LayeredAssets.Json.Reading

namespace LayeredAssets

/-- What tells a data set: files that it holds and files that it does not hold. -/
structure Fingerprint where
  anyOf : List String
  allOf : List String
  noneOf : List String
  deriving DecidableEq, Repr

namespace Fingerprint

/-- One that asks for nothing only groups other identities. -/
def isMeta (print : Fingerprint) : Bool :=
  print.anyOf.isEmpty && print.allOf.isEmpty && print.noneOf.isEmpty

/-- Absent files alone tell nothing: one of the others must be there. -/
def fits (print : Fingerprint) (holds : String → Bool) : Bool :=
  let found := print.anyOf.any holds
  print.allOf.all holds && !print.noneOf.any holds &&
    (print.anyOf.isEmpty || found) && (!print.allOf.isEmpty || found)

def files : Json.Reader (List String) := Json.Reader.list Json.Reader.string

def layout : Json.Layout := ⟨"Fingerprint", true, [
  .of "contains_any" false files,
  .of "contains_all" false files,
  .of "not_contains" false files]⟩

def reader (origin : Json.Origin) : Json.Reader Fingerprint := fun j => do
  let cells ← layout.cells origin j
  return {
    anyOf := ← cells.optional "contains_any" files []
    allOf := ← cells.optional "contains_all" files []
    noneOf := ← cells.optional "not_contains" files [] }

def ofText (text : String) : Except Json.Complaint Fingerprint :=
  Json.Document.readAs (reader .text) text

end Fingerprint
end LayeredAssets
