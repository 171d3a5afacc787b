import LayeredAssets.Json.Value

namespace LayeredAssets.Json

inductive Escape
  | none
  | started
  /-- So many digits of a code unit are still to come. -/
  | unit (left : Nat) (value : Nat)

/-- A string being read, newest character first. `text` is lost once a surrogate stands alone; a
high one waits in `high` for its partner. -/
structure Literal where
  text : Option (List Char)
  high : Option Nat
  escape : Escape

namespace Literal

def start : Literal := ⟨some [], none, .none⟩

inductive Next
  | more (l : Literal)
  | ends (text : Option String)
  | breaks

def push (l : Literal) (c : Char) : Literal :=
  match l.high with
  | some _ => { text := none, high := none, escape := .none }
  | none => { l with text := l.text.map (c :: ·), escape := .none }

def isHigh (n : Nat) : Bool := 0xd800 ≤ n && n ≤ 0xdbff

def isLow (n : Nat) : Bool := 0xdc00 ≤ n && n ≤ 0xdfff

def pushUnit (l : Literal) (n : Nat) : Literal :=
  match l.high with
  | some h =>
    if isLow n then
      let c := Char.ofNat (0x10000 + (h - 0xd800) * 0x400 + (n - 0xdc00))
      { text := l.text.map (c :: ·), high := none, escape := .none }
    else { text := none, high := none, escape := .none }
  | none =>
    if isHigh n then { l with high := some n, escape := .none }
    else if isLow n then { text := none, high := none, escape := .none }
    else { l with text := l.text.map (Char.ofNat n :: ·), escape := .none }

def unescape? (c : Char) : Option Char :=
  if c = '"' ∨ c = '\\' ∨ c = '/' then some c
  else if c = 'b' then some '\x08'
  else if c = 'f' then some '\x0c'
  else if c = 'n' then some '\n'
  else if c = 'r' then some '\r'
  else if c = 't' then some '\t'
  else none

def finish (l : Literal) : Option String :=
  match l.high with
  | some _ => none
  | none => l.text.map (fun cs => String.ofList cs.reverse)

def hexDigit? (c : Char) : Option Nat :=
  if c.isDigit then some (c.toNat - '0'.toNat)
  else if 'a' ≤ c ∧ c ≤ 'f' then some (c.toNat - 'a'.toNat + 10)
  else if 'A' ≤ c ∧ c ≤ 'F' then some (c.toNat - 'A'.toNat + 10)
  else none

def next (l : Literal) (c : Char) : Next :=
  match l.escape with
  | .none =>
    if c = '"' then .ends l.finish
    else if c = '\\' then .more { l with escape := .started }
    else if c.toNat < 0x20 then .breaks
    else .more (l.push c)
  | .started =>
    if c = 'u' then .more { l with escape := .unit 4 0 }
    else match unescape? c with
      | some c => .more (l.push c)
      | none => .breaks
  | .unit left value =>
    match hexDigit? c with
    | some d =>
      if left ≤ 1 then .more (l.pushUnit (value * 16 + d))
      else .more { l with escape := .unit (left - 1) (value * 16 + d) }
    | none => .breaks

end Literal
end LayeredAssets.Json
