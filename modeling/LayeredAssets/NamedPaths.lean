import LayeredAssets.Fault
import LayeredAssets.Path
import LayeredAssets.Table

namespace LayeredAssets

/-- Paths that stand for a name in braces. -/
structure NamedPaths where
  registry : Table String String

namespace NamedPaths

def empty : NamedPaths := ⟨.empty⟩

def isBrace (c : Char) : Bool := c == '\x7b' || c == '\x7d'

/-- A path that others are appended to; only the root keeps its separator. -/
def folder (path : String) : String :=
  let path := Path.normalize path
  if path.length ≤ 1 then path else Path.trimEnd '/' path

/-- What stands between the braces of a name. -/
def inside? : List Char → Option (List Char)
  | '\x7b' :: rest => if rest.getLast? = some '\x7d' then some rest.dropLast else none
  | _ => none

def add (named : NamedPaths) (name path : String) : Except NamedPathFault NamedPaths :=
  match inside? name.toList with
  | none => .error (.notEnclosed name)
  | some inside =>
    if inside.isEmpty || inside.any isBrace then .error (.noName name)
    else .ok ⟨named.registry.set name (folder path)⟩

def has (named : NamedPaths) (name : String) : Bool := named.registry.contains name

/-- A text around its first name. -/
structure Cut where
  before : List Char
  name : List Char
  after : List Char

inductive Reading
  /-- No brace opens. -/
  | plain
  /-- A brace opens and none closes. -/
  | unterminated
  | name (cut : Cut)

def read (text : List Char) : Reading :=
  let before := text.takeWhile (· != '\x7b')
  let rest := text.dropWhile (· != '\x7b')
  if rest.isEmpty then .plain
  else
    match rest.dropWhile (· != '\x7d') with
    | [] => .unterminated
    | close :: after => .name ⟨before, rest.takeWhile (· != '\x7d') ++ [close], after⟩

/-- The text is looked at so often. A name that leads to itself would be replaced for ever. -/
def mostLooks : Nat := 32

def expand (named : NamedPaths) (source : String) :
    (looks : Nat) → List Char → Except NamedPathFault String
  | 0, _ => .error (.tooDeep source)
  | looks + 1, text =>
    match read text with
    | .plain => .ok (Path.normalize (String.ofList text))
    | .unterminated => .error (.unterminated source)
    | .name cut =>
      match named.registry.get? (String.ofList cut.name) with
      | none => .error (.undefined (String.ofList cut.name) source)
      | some path => named.expand source looks (cut.before ++ path.toList ++ cut.after)

/-- The first name is replaced until there is none left. -/
def resolve (named : NamedPaths) (source : String) : Except Fault String :=
  (named.expand source mostLooks source.toList).mapError .namedPath

end NamedPaths
end LayeredAssets
