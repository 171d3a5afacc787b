import LayeredAssets.Json.Value

namespace LayeredAssets.Json

/-- Which part of a number its last character belongs to. -/
inductive Part
  | sign
  | zero
  | whole
  | point
  | fraction
  | mark
  | markSign
  | exponent
  deriving DecidableEq

/-- A number being read: all its digits as one, how many of them stand after the point, and the
exponent. -/
structure Numeral where
  negative : Bool
  part : Part
  digits : Nat
  places : Nat
  power : Nat
  shrinking : Bool

namespace Numeral

def ofSign : Numeral := ⟨true, .sign, 0, 0, 0, false⟩

def ofDigit (negative : Bool) (d : Nat) : Numeral :=
  ⟨negative, if d = 0 then .zero else .whole, d, 0, 0, false⟩

def digit? (c : Char) : Option Nat :=
  if c.isDigit then some (c.toNat - '0'.toNat) else none

/-- What the next character does: continue the number, end it, or break it. -/
inductive Next
  | more (n : Numeral)
  | ends
  | breaks

def next (n : Numeral) (c : Char) : Next :=
  match n.part, digit? c with
  | .sign, some d => .more (ofDigit true d)
  | .sign, none => .breaks
  | .zero, some _ => .breaks
  | .whole, some d => .more { n with digits := n.digits * 10 + d }
  | .point, some d | .fraction, some d =>
    .more { n with part := .fraction, digits := n.digits * 10 + d, places := n.places + 1 }
  | .point, none => .breaks
  | .mark, some d | .markSign, some d | .exponent, some d =>
    .more { n with part := .exponent, power := n.power * 10 + d }
  | .mark, none =>
    if c = '+' then .more { n with part := .markSign }
    else if c = '-' then .more { n with part := .markSign, shrinking := true }
    else .breaks
  | .markSign, none => .breaks
  | .exponent, none => .ends
  | .zero, none | .whole, none =>
    if c = '.' then .more { n with part := .point }
    else if c = 'e' ∨ c = 'E' then .more { n with part := .mark }
    else .ends
  | .fraction, none => if c = 'e' ∨ c = 'E' then .more { n with part := .mark } else .ends

def isComplete (n : Numeral) : Bool :=
  match n.part with
  | .zero | .whole | .fraction | .exponent => true
  | _ => false

/-- The least magnitude that rounds beyond the largest double. -/
def beyondDoubles : Nat := Nat.pow 2 1024 - Nat.pow 2 970

/-- A double keeps 53 bits, and a tie goes to the even neighbour. -/
def rounded (n : Nat) : Nat :=
  let unit := Nat.pow 2 (n.log2 + 1 - 53)
  let up := unit < 2 * (n % unit) || (unit = 2 * (n % unit) && n / unit % 2 = 1)
  (n / unit + if up then 1 else 0) * unit

/-- The first digits, as many as 64 bits hold, and how many follow them. -/
def leading (digits : Nat) : Nat × Nat :=
  if digits < UInt64.size then (digits, 0)
  else
    let follow := (Nat.toDigits 10 digits).length - 20
    let first := digits / Nat.pow 10 follow
    if first < UInt64.size then (first, follow) else (first / 10, follow + 1)

/-- The first digits and the power of ten are rounded each before they are multiplied, so that a
number right below the bound may be lost. -/
def isTooLarge (n : Numeral) : Bool :=
  let (first, follow) := leading n.digits
  let scale : Int := (if n.shrinking then -(n.power : Int) else n.power) - n.places + follow
  if first = 0 || scale < 0 then false
  else if 308 < scale then true
  else beyondDoubles ≤ rounded first * rounded (Nat.pow 10 scale.toNat)

def value (n : Numeral) : Json :=
  let whole : Int := if n.negative then -(n.digits : Int) else n.digits
  let isWhole := n.part = .zero || n.part = .whole
  if isWhole && !(n.negative && n.digits = 0) && -0x8000000000000000 ≤ whole &&
      whole < UInt64.size then
    .integer whole
  else if n.isTooLarge then .unreadable
  else .floating

end Numeral
end LayeredAssets.Json
