import LayeredAssets.Disc.Cursor

namespace LayeredAssets

/-- An opened file. A folder can be opened too, but not read. -/
inductive Stream
  | file (bytes : Bytes) (position : Nat)
  | folder (position : Nat)
  | disc (cursor : Disc.Cursor)

namespace Stream

inductive Seek
  | start (n : Nat)
  | fromEnd (n : Int)
  | fromHere (n : Int)

def position : Stream → Nat
  | file _ position => position
  | folder position => position
  | disc cursor => cursor.position

def length : Stream → Nat
  | file bytes _ => bytes.length
  | folder _ => 0
  | disc cursor => cursor.extent.length

def moveTo (n : Nat) : Stream → Stream
  | file bytes _ => file bytes n
  | folder _ => folder n
  | disc cursor => disc { cursor with position := n }

/-- The position as a signed number of 64 bits, so the upper half lies before the start. -/
def signedPosition (s : Stream) : Int :=
  if s.position < Nat.pow 2 63 then s.position else s.position - UInt64.size

/-- The host counts positions in 63 bits and has its own word for a position before the start. -/
def target (s : Stream) : Seek → Except HostFault Nat
  | .start n =>
    match s with
    | disc _ => .ok n
    | _ => if n < Nat.pow 2 63 then .ok n else .error .badSeek
  | .fromEnd n => before s (s.length + n)
  | .fromHere n => before s (s.signedPosition + n)
where
  before (s : Stream) (n : Int) : Except HostFault Nat :=
    if 0 ≤ n then .ok n.toNat
    else match s with
      | disc _ => .error .negativeSeek
      | _ => .error .badSeek

def seek (s : Stream) (move : Seek) : Except HostFault Nat × Stream :=
  match s.target move with
  | .ok n => (.ok n, s.moveTo n)
  | .error cause => (.error cause, s)

/-- What one read gives for a buffer of `room` bytes. -/
def read (s : Stream) (room : Nat) : Except HostFault Bytes × Stream :=
  match s with
  | file bytes position =>
    let part := (bytes.drop position).take room
    (.ok part, file bytes (position + part.length))
  | folder _ => (.error .isFolder, s)
  | disc cursor =>
    let (answer, cursor) := cursor.read room
    (answer, disc cursor)

def drain (s : Stream) : Except HostFault Bytes × Stream :=
  match s with
  | file bytes position => (.ok (bytes.drop position), file bytes (max position bytes.length))
  | folder _ => (.error .isFolder, s)
  | disc cursor =>
    let (answer, cursor) := cursor.drain
    (answer, disc cursor)

end Stream
end LayeredAssets
