import LayeredAssets.Json.Layout
import LayeredAssets.Json.Literal
import LayeredAssets.Json.Numeral

namespace LayeredAssets.Json

/-- A container that is open, newest part first. -/
inductive Frame
  | array (done : List Json)
  | object (done : List (Option String × Json)) (key : Option String)

/-- A value with the frames around it closed where the text broke off. -/
def close : List Frame → Json → Json
  | [], j => j
  | .array done :: outer, j => close outer (.array (j :: done).reverse)
  | .object done key :: outer, j => close outer (.object ((key, j) :: done).reverse)

/-- What has been read, one character after another. -/
inductive Reading
  | value (frames : List Frame)
  /-- In an array just opened, which may also end. -/
  | firstItem (frames : List Frame)
  /-- `opened` tells that the object may also end here. -/
  | key (opened : Bool) (done : List (Option String × Json)) (frames : List Frame)
  | keyText (literal : Literal) (done : List (Option String × Json)) (frames : List Frame)
  | colon (key : Option String) (done : List (Option String × Json)) (frames : List Frame)
  | text (literal : Literal) (frames : List Frame)
  | number (numeral : Numeral) (frames : List Frame)
  | word (left : List Char) (j : Json) (frames : List Frame)
  | after (j : Json) (frames : List Frame)
  /-- The value is complete, and more text follows it. -/
  | surplus (j : Json)
  | broken (j : Json)

namespace Reading

def isBlank (c : Char) : Bool := c = ' ' || c = '\n' || c = '\t' || c = '\r'

def breakOff (frames : List Frame) : Reading := .broken (close frames .broken)

def startValue (frames : List Frame) (c : Char) : Reading :=
  if c = '"' then .text .start frames
  else if c = '[' then .firstItem (.array [] :: frames)
  else if c = '\x7b' then .key true [] frames
  else if c = '-' then .number .ofSign frames
  else if c = 't' then .word ['r', 'u', 'e'] (.bool true) frames
  else if c = 'f' then .word ['a', 'l', 's', 'e'] (.bool false) frames
  else if c = 'n' then .word ['u', 'l', 'l'] .null frames
  else match Numeral.digit? c with
    | some d => .number (.ofDigit false d) frames
    | none => breakOff frames

def stepAfter (j : Json) : List Frame → Char → Reading
  | frames, c =>
    if isBlank c then .after j frames
    else match frames with
      | [] => .surplus j
      | .array done :: outer =>
        if c = ',' then .value (.array (j :: done) :: outer)
        else if c = ']' then .after (.array (j :: done).reverse) outer
        else breakOff (.array (j :: done) :: outer)
      | .object done name :: outer =>
        if c = ',' then .key false ((name, j) :: done) outer
        else if c = '\x7d' then .after (.object ((name, j) :: done).reverse) outer
        else breakOff (.object ((name, j) :: done) none :: outer)

def step : Reading → Char → Reading
  | .value frames, c => if isBlank c then .value frames else startValue frames c
  | .firstItem frames, c =>
    if isBlank c then .firstItem frames
    else if c = ']' then .after (.array []) (frames.drop 1)
    else startValue frames c
  | .key opened done frames, c =>
    if isBlank c then .key opened done frames
    else if c = '"' then .keyText .start done frames
    else if opened && c = '\x7d' then .after (.object []) frames
    else breakOff (.object done none :: frames)
  | .keyText literal done frames, c =>
    match literal.next c with
    | .more literal => .keyText literal done frames
    | .ends name => .colon name done frames
    | .breaks => breakOff (.object done none :: frames)
  | .colon name done frames, c =>
    if isBlank c then .colon name done frames
    else if c = ':' then .value (.object done name :: frames)
    else breakOff (.object done name :: frames)
  | .text literal frames, c =>
    match literal.next c with
    | .more literal => .text literal frames
    | .ends (some s) => .after (.string s) frames
    | .ends none => .after .unreadable frames
    | .breaks => breakOff frames
  | .number numeral frames, c =>
    match numeral.next c with
    | .more numeral => .number numeral frames
    | .ends => stepAfter numeral.value frames c
    | .breaks => breakOff frames
  | .word [] j frames, c => stepAfter j frames c
  | .word [last] j frames, c => if c = last then .after j frames else breakOff frames
  | .word (next :: left) j frames, c => if c = next then .word left j frames else breakOff frames
  | .after j frames, c => stepAfter j frames c
  | .surplus j, _ => .surplus j
  | .broken j, _ => .broken j

/-- What the text held when it ended: a container still open breaks off. -/
def finish : Reading → Json
  | .value frames | .firstItem frames | .text _ frames | .word _ _ frames => close frames .broken
  | .key _ done frames | .keyText _ done frames => close (.object done none :: frames) .broken
  | .colon name done frames => close (.object done name :: frames) .broken
  | .number numeral frames =>
    if numeral.isComplete then ended numeral.value frames else close frames .broken
  | .after j frames => ended j frames
  | .surplus j | .broken j => j
where
  ended (j : Json) : List Frame → Json
    | [] => j
    | .array done :: outer => close (.array (j :: done) :: outer) .broken
    | .object done name :: outer => close (.object ((name, j) :: done) none :: outer) .broken

def hasSurplus : Reading → Bool
  | .surplus _ => true
  | _ => false

end Reading

/-- A text read to its end: the value, and whether more than blanks follow it. -/
structure Document where
  root : Json
  surplus : Bool

def Document.ofText (s : String) : Document :=
  let reading := s.toList.foldl Reading.step (.value [])
  ⟨reading.finish, reading.hasSurplus⟩

/-- A complaint about the value comes before one about the text behind it. -/
def Document.readAs {α : Type} (reader : Reader α) (s : String) : Except Complaint α :=
  let document := ofText s
  match reader document.root with
  | .error complaint => .error complaint
  | .ok a => if document.surplus then .error .malformed else .ok a

end LayeredAssets.Json
