import LayeredAssets.Text.Split

namespace LayeredAssets.Path

def isSeparator (c : Char) : Bool := c == '/' || c == '\\'

/-- `closed` tells that the text written so far ends with a separator. -/
def normalizeAfter (closed : Bool) : List Char → List Char
  | [] => []
  | c :: rest =>
    if isSeparator c then
      if closed then normalizeAfter true rest else '/' :: normalizeAfter true rest
    else c :: normalizeAfter false rest

/-- Removing one lead may bring up one of the other kind, so both go together. -/
def stripLeads : List Char → List Char
  | '.' :: '/' :: rest => stripLeads rest
  | '/' :: rest => stripLeads rest
  | path => path

/-- Either separator counts, and a run of them counts once. -/
def normalize (path : String) : String := String.ofList (normalizeAfter false path.toList)

/-- A path that cannot leave the root it is joined to by being absolute. -/
def relative (path : String) : String :=
  String.ofList (stripLeads (normalizeAfter false path.toList))

def trimEndChars (c : Char) (path : List Char) : List Char :=
  (path.reverse.dropWhile (· == c)).reverse

def trimEnd (c : Char) (path : String) : String := String.ofList (trimEndChars c path.toList)

/-- No second separator is written, and an empty root leaves the path as it is. -/
def join (root path : String) : String :=
  match root.toList.getLast? with
  | none | some '/' => root ++ path
  | some _ => root ++ "/" ++ path

/-- Never empty: a path with no separator is one part. -/
def parts (path : String) : List String := (Text.splitAt '/' path.toList).map String.ofList

/-- Parts at the end that lead nowhere else. -/
def trimParts (parts : List String) : List String :=
  (parts.reverse.dropWhile (fun part => part == "" || part == ".")).reverse

def isName (part : String) : Bool := part != "" && part != "." && part != ".."

/-- What comes before the last part, and the last part, if that is a name. The parent of a lone
name is empty. -/
def parentAndName? (path : String) : Option (String × String) :=
  match parts path with
  | [] => none
  | first :: rest =>
    let rest := trimParts rest
    match rest.getLast? with
    | none => if isName first then some ("", first) else none
    | some name =>
      if isName name then
        let parent := "/".intercalate (first :: trimParts rest.dropLast)
        some (if parent.isEmpty then "/" else parent, name)
      else none

end LayeredAssets.Path
