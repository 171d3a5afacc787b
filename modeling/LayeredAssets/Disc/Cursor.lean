import LayeredAssets.Disc.Sector

namespace LayeredAssets.Disc

/-- A position in one extent. Sectors are read as the position meets them. -/
structure Cursor where
  image : Node
  framing : Framing
  extent : Extent
  position : Nat

namespace Cursor

/-- One read stops at the end of its sector; a read that fails leaves the position as it was. -/
def read (c : Cursor) (room : Nat) : Except HostFault Bytes × Cursor :=
  if c.extent.length ≤ c.position ∨ room = 0 then (.ok [], c)
  else
    let within := c.position % sectorSize
    let count := min room (min (sectorSize - within) (c.extent.length - c.position))
    let sector := c.extent.sector + c.position / sectorSize
    match c.image.read (c.framing.offset sector + within) count with
    | .ok part => (.ok part, { c with position := c.position + count })
    | .error cause => (.error cause, c)

theorem read_progress {c next : Cursor} {room : Nat} {part : Bytes} (hr : 0 < room)
    (hp : c.position < c.extent.length) (h : c.read room = (.ok part, next)) :
    next.extent.length - next.position < c.extent.length - c.position := by
  have hs : c.position % sectorSize < sectorSize := Nat.mod_lt _ (by decide)
  unfold read at h
  rw [if_neg (by omega)] at h
  dsimp only at h
  split at h
  · simp only [Prod.mk.injEq] at h
    obtain ⟨_, rfl⟩ := h
    dsimp only
    omega
  · simp at h

/-- A buffer of bytes to come: how many it holds, how many it has been made for, and how many of the
places that follow are cleared for them. -/
structure Buffer where
  held : Nat
  made : Nat
  cleared : Nat

namespace Buffer

/-- A stretch of places is cleared once the last one is used up, and never more than 8192 at once. -/
def clear (b : Buffer) : Buffer :=
  if 0 < b.cleared then b else { b with cleared := min 8192 (b.made - b.held) }

/-- A buffer with room for less than a probe of 32 bytes doubles, and always by enough for one. None
of its places is cleared then. -/
def grow (b : Buffer) : Buffer :=
  if b.held + 32 ≤ b.made then b
  else { b with made := max (2 * b.made) (b.held + 32), cleared := 0 }

def ready (b : Buffer) : Buffer := b.grow.clear

def fill (b : Buffer) (count : Nat) : Buffer :=
  { b with held := b.held + count, cleared := b.cleared - count }

theorem grow_room (b : Buffer) : b.grow.held + 32 ≤ b.grow.made := by
  unfold grow
  split
  · assumption
  · exact Nat.le_max_right _ _

theorem ready_cleared (b : Buffer) : 0 < b.ready.cleared := by
  have := b.grow_room
  unfold ready clear
  split
  · assumption
  · dsimp only
    omega

end Buffer

/-- What a failed read leaves behind depends on how much the reads before it took. -/
def drainInto (buffer : Buffer) (done : List Bytes) (c : Cursor) :
    Except HostFault Bytes × Cursor :=
  if hp : c.position < c.extent.length then
    match h : c.read buffer.ready.cleared with
    | (.ok part, next) =>
      have := read_progress buffer.ready_cleared hp h
      drainInto (buffer.ready.fill part.length) (part :: done) next
    | (.error cause, next) => (.error cause, next)
  else (.ok done.reverse.flatten, c)
termination_by c.extent.length - c.position

/-- The first read only probes for data. -/
def drain (c : Cursor) : Except HostFault Bytes × Cursor :=
  match c.read 32 with
  | (.ok part, next) => drainInto ⟨part.length, max 8 part.length, 0⟩ [part] next
  | (.error cause, next) => (.error cause, next)

end Cursor
end LayeredAssets.Disc
