namespace LayeredAssets.Wildcard

inductive Member
  | only (c : Char)
  | span (first last : Char)

inductive Token
  | exactly (c : Char)
  | anyChar
  | oneOf (members : List Member)
  | noneOf (members : List Member)
  /-- Any characters, separators among them. -/
  | run
  /-- Whole folders, then the rest of the pattern, or everything that is left. -/
  | folders

def members : List Char → List Member
  | a :: '-' :: b :: rest => .span a b :: members rest
  | a :: rest => .only a :: members rest
  | [] => []

/-- A bracket's first member may be the closing bracket itself. -/
def untilBracket : List Char → Option (List Char × List Char)
  | [] => none
  | first :: rest =>
    if rest.contains ']' then
      some (first :: rest.takeWhile (· != ']'), (rest.dropWhile (· != ']')).drop 1)
    else none

theorem untilBracket_length {text : List Char} {inside rest : List Char}
    (h : untilBracket text = some (inside, rest)) : rest.length < text.length := by
  cases text with
  | nil => simp [untilBracket] at h
  | cons first tail =>
    simp only [untilBracket] at h
    split at h
    · simp only [Option.some.injEq, Prod.mk.injEq] at h
      obtain ⟨_, rfl⟩ := h
      have := (List.dropWhile_sublist (l := tail) (· != ']')).length_le
      simp only [List.length_drop, List.length_cons]
      omega
    · simp at h

/-- Two stars stand for whole folders, so they need a separator or an end on both sides; three
mean nothing. `opening` tells that the pattern so far is empty or ends with a separator, and `twice`
that folders already stand there, where a second `folders` would add nothing. -/
def tokens (opening : Bool) (done : List Token) : List Char → Option (List Token)
  | [] => some done.reverse
  | '?' :: rest => tokens false (.anyChar :: done) rest
  | '*' :: '*' :: '*' :: _ => none
  | '*' :: '*' :: '/' :: rest =>
    if opening then tokens true (addFolders done) rest else none
  | '*' :: '*' :: rest =>
    if opening && rest.isEmpty then some (addFolders done).reverse else none
  | '*' :: rest => tokens false (.run :: done) rest
  | '[' :: '!' :: rest =>
    match h : untilBracket rest with
    | some (inside, rest') =>
      have := untilBracket_length h
      tokens false (.noneOf (members inside) :: done) rest'
    | none => none
  | '[' :: rest =>
    match h : untilBracket rest with
    | some (inside, rest') =>
      have := untilBracket_length h
      tokens false (.oneOf (members inside) :: done) rest'
    | none => none
  | c :: rest => tokens (c == '/') (.exactly c :: done) rest
termination_by text => text.length
where
  addFolders : List Token → List Token
    | .folders :: t :: rest => .folders :: t :: rest
    | done => .folders :: done

def sameLetter (a b : Char) : Bool :=
  if a.toNat < 128 && b.toNat < 128 then a.toLower == b.toLower else a == b

def isLetter (c : Char) : Bool := c.toLower != c.toLower.toUpper

/-- A span of letters takes either case; any other span is taken as written. -/
def Member.admits (c : Char) : Member → Bool
  | .only a => sameLetter c a
  | .span first last =>
    (c.toNat < 128 && first.toNat < 128 && last.toNat < 128 &&
      isLetter first && isLetter last && first.toLower ≤ c.toLower && c.toLower ≤ last.toLower) ||
    (first ≤ c && c ≤ last)

def Token.admits (c : Char) : Token → Bool
  | .exactly a => sameLetter c a
  | .anyChar => true
  | .oneOf ms => ms.any (Member.admits c)
  | .noneOf ms => !ms.any (Member.admits c)
  | .run | .folders => false

/-- `exhausted` is a failure for want of characters: a later start has fewer still, so it ends
the search where `differs` lets it go on. -/
inductive Outcome
  | fits
  | differs
  | exhausted
  deriving DecidableEq

/-- Later texts are not tried once one has decided. -/
def firstDecided (judge : List Char → Outcome) : List (List Char) → Outcome
  | [] => .differs
  | text :: rest =>
    match judge text with
    | .differs => firstDecided judge rest
    | decided => decided

def suffixes : List Char → List (List Char)
  | [] => [[]]
  | c :: rest => (c :: rest) :: suffixes rest

/-- Where a folder begins in the text: after each separator. -/
def folderStarts : List Char → List (List Char)
  | [] => []
  | c :: rest => if c == '/' then rest :: folderStarts rest else folderStarts rest

def fit : List Token → List Char → Outcome
  | [], text => if text.isEmpty then .fits else .differs
  | .run :: rest, text => firstDecided (fit rest) (suffixes text)
  | .folders :: rest, text => firstDecided (fit rest) (text :: folderStarts text ++ [[]])
  | _ :: _, [] => .exhausted
  | token :: rest, c :: text => if token.admits c then fit rest text else .differs

/-- A filter that is no pattern matches nothing. -/
def isMatch (name filter : String) : Bool :=
  match tokens true [] filter.toList with
  | some pattern => fit pattern name.toList == .fits
  | none => false

end LayeredAssets.Wildcard
