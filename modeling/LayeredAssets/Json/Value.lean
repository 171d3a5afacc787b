import LayeredAssets.Json.Complaint
import LayeredAssets.Table

namespace LayeredAssets

/-- JSON as far as a text holds it. `broken` stands where the text stops being JSON, so that a
reader going from left to right meets either it or the first value it cannot take. `unreadable` is
a token with no value, a lone surrogate or a number beyond all doubles: it may be skipped but not
read. A member without a name has such a text, or nothing, for its key. -/
inductive Json
  | null
  | bool (b : Bool)
  | integer (n : Int)
  | floating
  | string (s : String)
  | unreadable
  | broken
  | array (items : List Json)
  | object (members : List (Option String × Json))

namespace Json

/-- Containers may stand this deep in one another where a value is read. -/
def nesting : Nat := 127

def found? : Json → Option Found
  | null => some .null
  | bool b => some (.bool b)
  | integer n => some (.integer n)
  | floating => some .floating
  | string s => some (.string s)
  | unreadable => none
  | broken => none
  | array _ => some .sequence
  | object _ => some .map

def mismatch (wanted : String) (j : Json) : Complaint :=
  match j.found? with
  | some found => .wrongType found wanted
  | none => .malformed

def isArray : Json → Bool
  | array _ => true
  | _ => false

mutual

/-- Whether the text goes on after the value: it may be skipped. -/
def isWhole : Json → Bool
  | broken => false
  | array items => wholeItems items
  | object members => wholeMembers members
  | _ => true

def wholeItems : List Json → Bool
  | [] => true
  | j :: rest => j.isWhole && wholeItems rest

def wholeMembers : List (Option String × Json) → Bool
  | [] => true
  | (_, j) :: rest => j.isWhole && wholeMembers rest

end

mutual

/-- Whether the value can be read whole, with `room` more levels of containers. -/
def isReadable (room : Nat) : Json → Bool
  | broken => false
  | unreadable => false
  | array items => 0 < room && readableItems (room - 1) items
  | object members => 0 < room && readableMembers (room - 1) members
  | _ => true

def readableItems (room : Nat) : List Json → Bool
  | [] => true
  | j :: rest => j.isReadable room && readableItems room rest

def readableMembers (room : Nat) : List (Option String × Json) → Bool
  | [] => true
  | (key, j) :: rest => key.isSome && j.isReadable room && readableMembers room rest

end

/-- A repeated key keeps the place of its first value and takes the last. -/
def mergeMembers (members : List (Option String × Json)) : List (Option String × Json) :=
  (Table.ofList members).entries

mutual

/-- A value as a map of maps, in which no key stands twice. -/
def merged : Json → Json
  | array items => .array (mergedItems items)
  | object members => .object (mergeMembers (mergedMembers members))
  | j => j

def mergedItems : List Json → List Json
  | [] => []
  | j :: rest => j.merged :: mergedItems rest

def mergedMembers : List (Option String × Json) → List (Option String × Json)
  | [] => []
  | (key, j) :: rest => (key, j.merged) :: mergedMembers rest

end

/-- The named members, for a value that can be read. -/
def entries (members : List (Option String × Json)) : List (String × Json) :=
  members.filterMap (fun m => m.1.map (·, m.2))

end Json
end LayeredAssets
