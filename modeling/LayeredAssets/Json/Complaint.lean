import LayeredAssets.Text.Quoted

namespace LayeredAssets.Json

/-- The kind of value that stood where another was wanted. -/
inductive Found
  | null
  | bool (b : Bool)
  | integer (n : Int)
  | floating
  | string (s : String)
  | sequence
  | map
  deriving DecidableEq, Repr

def Found.describe : Found → String
  | .null => "null"
  | .bool b => "boolean `" ++ (if b then "true" else "false") ++ "`"
  | .integer n => "integer `" ++ toString n ++ "`"
  | .floating => "floating point"
  | .string s => "string " ++ Text.quote s
  | .sequence => "sequence"
  | .map => "map"

inductive Complaint
  | malformed
  | missing (field : String)
  | duplicate (field : String)
  | unknown (field : String) (known : List String)
  | wrongType (found : Found) (wanted : String)
  | outOfRange (n : Int) (wanted : String)
  | tooShort (length : Nat) (title : String) (size : Nat)
  | tooLong (length : Nat)
  | noShape
  deriving DecidableEq, Repr

def ticked (s : String) : String := "`" ++ s ++ "`"

def Complaint.message : Complaint → String
  | .malformed => "JSON syntax error"
  | .missing field => "missing field " ++ ticked field
  | .duplicate field => "duplicate field " ++ ticked field
  | .unknown field known =>
    "unknown field " ++ ticked field ++ ", expected one of " ++ ", ".intercalate (known.map ticked)
  | .wrongType found wanted => "invalid type: " ++ found.describe ++ ", expected " ++ wanted
  | .outOfRange n wanted =>
    "invalid value: " ++ (Found.integer n).describe ++ ", expected " ++ wanted
  | .tooShort length title size =>
    "invalid length " ++ toString length ++ ", expected struct " ++ title ++ " with "
      ++ toString size ++ " elements"
  | .tooLong length => "invalid length " ++ toString length ++ ", expected fewer elements in array"
  | .noShape => "data did not match any variant of untagged enum Candidates"

end LayeredAssets.Json
