import LayeredAssets.Text.Bytes

namespace LayeredAssets.Text

/-- What a first byte promises: its own bits, the continuation bytes owed, and the span of the
first of them. The span keeps out overlong forms, surrogates and numbers beyond the last plane. -/
structure Lead where
  bits : Nat
  owed : Nat
  low : Nat
  high : Nat

def lead? (b : UInt8) : Option Lead :=
  let n := b.toNat
  if n < 0x80 then some ⟨n, 0, 0x80, 0xbf⟩
  else if n < 0xc2 then none
  else if n < 0xe0 then some ⟨n - 0xc0, 1, 0x80, 0xbf⟩
  else if n = 0xe0 then some ⟨0, 2, 0xa0, 0xbf⟩
  else if n = 0xed then some ⟨13, 2, 0x80, 0x9f⟩
  else if n < 0xf0 then some ⟨n - 0xe0, 2, 0x80, 0xbf⟩
  else if n = 0xf0 then some ⟨0, 3, 0x90, 0xbf⟩
  else if n < 0xf4 then some ⟨n - 0xf0, 3, 0x80, 0xbf⟩
  else if n = 0xf4 then some ⟨4, 3, 0x80, 0x8f⟩
  else none

/-- `none` stands for a maximal run of bytes that begins a character and does not finish it. -/
def continueChar (bits : Nat) : (owed low high : Nat) → Bytes → Option Char × Bytes
  | 0, _, _, rest => (some (Char.ofNat bits), rest)
  | _ + 1, _, _, [] => (none, [])
  | owed + 1, low, high, b :: rest =>
    if low ≤ b.toNat && b.toNat ≤ high then
      continueChar (bits * 64 + (b.toNat - 0x80)) owed 0x80 0xbf rest
    else (none, b :: rest)

theorem continueChar_length_le (bits owed low high : Nat) (bytes : Bytes) :
    (continueChar bits owed low high bytes).2.length ≤ bytes.length := by
  induction owed generalizing bits low high bytes with
  | zero => simp [continueChar]
  | succ owed ih =>
    cases bytes with
    | nil => simp [continueChar]
    | cons b rest =>
      simp only [continueChar]
      split
      · exact Nat.le_succ_of_le (ih ..)
      · exact Nat.le_refl _

def firstChar (b : UInt8) (rest : Bytes) : Option Char × Bytes :=
  match lead? b with
  | some lead => continueChar lead.bits lead.owed lead.low lead.high rest
  | none => (none, rest)

theorem firstChar_length_le (b : UInt8) (rest : Bytes) :
    (firstChar b rest).2.length ≤ rest.length := by
  unfold firstChar
  split
  · exact continueChar_length_le ..
  · exact Nat.le_refl _

/-- Newest first, since a text may be long and the walk must not nest with it. -/
def decodeOnto (done : List (Option Char)) : Bytes → List (Option Char)
  | [] => done
  | b :: rest =>
    let next := firstChar b rest
    decodeOnto (next.1 :: done) next.2
termination_by bytes => bytes.length
decreasing_by exact Nat.lt_succ_of_le (firstChar_length_le b rest)

def decode (bytes : Bytes) : List (Option Char) := (decodeOnto [] bytes).reverse

/-- Each part that is no text shows as one replacement character. -/
def readLossy (bytes : Bytes) : String :=
  String.ofList ((decode bytes).map (fun c => c.getD '\ufffd'))

def read? (bytes : Bytes) : Option String :=
  ((decode bytes).mapM id).map String.ofList

end LayeredAssets.Text
