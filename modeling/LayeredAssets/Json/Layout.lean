import LayeredAssets.Json.Value

namespace LayeredAssets.Json

abbrev Reader (α : Type) := Json → Except Complaint α

namespace Reader

def string : Reader String
  | .string s => .ok s
  | j => .error (j.mismatch "a string")

def bool : Reader Bool
  | .bool b => .ok b
  | j => .error (j.mismatch "a boolean")

def whole : Reader Json := fun j =>
  if j.isReadable nesting then .ok j.merged else .error .malformed

/-- The members of an object read whole. -/
def members (room : Nat) : Reader (List (String × Json))
  | .object ms =>
    if (Json.object ms).isReadable room then .ok (entries (mergeMembers (mergedMembers ms)))
    else .error .malformed
  | j => .error (j.mismatch "a map")

/-- An integer of the wrong size is told apart from what is no integer. -/
def integer (wanted : String) (low high : Int) : Reader Int
  | .integer n => if low ≤ n ∧ n < high then .ok n else .error (.outOfRange n wanted)
  | j => .error (j.mismatch wanted)

def word : Reader UInt32 := fun j =>
  (integer "u32" 0 UInt32.size j).map (fun n => UInt32.ofNat n.toNat)

def signed : Reader Int := integer "i32" (-0x80000000) 0x80000000

def size : Reader Nat := fun j => (integer "usize" 0 UInt64.size j).map Int.toNat

def list {α : Type} (reader : Reader α) : Reader (List α)
  | .array items => items.mapM reader
  | j => .error (j.mismatch "a sequence")

def optional {α : Type} (reader : Reader α) : Reader (Option α)
  | .null => .ok none
  | j => (reader j).map some

end Reader

/-- Where a value to be read comes from. A text tells of a key that stands twice and ends before an
element too many; in a value read earlier no key stands twice, and its length is known. -/
inductive Origin
  | text
  | value

def Origin.surplus (length : Nat) : Origin → Complaint
  | .text => .malformed
  | .value => .tooLong length

structure Field where
  name : String
  required : Bool
  check : Json → Except Complaint Unit

def Field.of {α : Type} (name : String) (required : Bool) (reader : Reader α) : Field :=
  ⟨name, required, fun j => (reader j).map (fun _ => ())⟩

/-- The fields of a record in the order in which an array gives them. A closed layout takes no
others. -/
structure Layout where
  title : String
  closed : Bool
  fields : List Field

/-- The value found for each field that was given. -/
abbrev Cells := List (String × Json)

namespace Layout

def field? (layout : Layout) (name : String) : Option Field :=
  layout.fields.find? (fun f => f.name == name)

/-- A key is judged before its value is looked at. -/
def ofMembers (layout : Layout) (cells : Cells) :
    List (Option String × Json) → Except Complaint Cells
  | [] => .ok cells
  | (none, _) :: _ => .error .malformed
  | (some key, j) :: rest =>
    match layout.field? key with
    | some field =>
      if (cells.lookup key).isSome then .error (.duplicate key)
      else match field.check j with
        | .ok () => layout.ofMembers ((key, j) :: cells) rest
        | .error complaint => .error complaint
    | none =>
      if layout.closed then .error (.unknown key (layout.fields.map Field.name))
      else if j.isWhole then layout.ofMembers cells rest
      else .error .malformed

def ofItems (layout : Layout) (surplus : Complaint) :
    List Field → List Json → Except Complaint Cells
  | [], [] => .ok []
  | [], _ :: _ => .error surplus
  | field :: fields, [] =>
    if field.required then
      .error (.tooShort (layout.fields.length - (fields.length + 1)) layout.title
        layout.fields.length)
    else layout.ofItems surplus fields []
  | field :: fields, j :: items =>
    match field.check j with
    | .ok () => (layout.ofItems surplus fields items).map ((field.name, j) :: ·)
    | .error complaint => .error complaint

def cells (layout : Layout) (origin : Origin) : Json → Except Complaint Cells
  | .object members => layout.ofMembers [] members
  | .array items => layout.ofItems (origin.surplus items.length) layout.fields items
  | j => .error (j.mismatch ("struct " ++ layout.title))

end Layout

namespace Cells

def required {α : Type} (cells : Cells) (name : String) (reader : Reader α) :
    Except Complaint α :=
  match cells.lookup name with
  | some j => reader j
  | none => .error (.missing name)

def optional {α : Type} (cells : Cells) (name : String) (reader : Reader α) (absent : α) :
    Except Complaint α :=
  match cells.lookup name with
  | some j => reader j
  | none => .ok absent

end Cells
end LayeredAssets.Json
