import LayeredAssets.Proofs.Disc.Reading
import LayeredAssets.Proofs.Streams
import Mathlib.Algebra.Group.Int.Defs
import Mathlib.Algebra.Group.Nat.Defs

namespace LayeredAssets

/-- Bytes in memory, with a position among them or behind them. -/
structure Memory where
  bytes : Bytes
  position : Nat

namespace Memory

def target (m : Memory) : Stream.Seek → Int
  | .start n => n
  | .fromEnd n => m.bytes.length + n
  | .fromHere n => m.position + n

def seek (m : Memory) (move : Stream.Seek) : Except HostFault Nat × Memory :=
  if 0 ≤ m.target move then
    (.ok (m.target move).toNat, { m with position := (m.target move).toNat })
  else (.error .negativeSeek, m)

/-- A read may give less than there is, so that it stops where a sector of the disc does. -/
def read (m : Memory) (room : Nat) : Except HostFault Bytes × Memory :=
  let part := (m.bytes.drop m.position).take
    (min room (Disc.sectorSize - m.position % Disc.sectorSize))
  (.ok part, { m with position := m.position + part.length })

def perform (m : Memory) : Stream.Op → Stream.Outcome × Memory
  | .seek move => (m.seek move).map .moved id
  | .read room => (m.read room).map .got id

def run (m : Memory) (ops : List Stream.Op) : List Stream.Outcome × Memory :=
  Stream.runWith perform m ops

/-- A relative seek takes both the position that it starts from and the one that it leads to for
signed numbers of 64 bits. -/
def FitsSeek (m : Memory) : Stream.Seek → Prop
  | .start n => n < 2 ^ 64
  | .fromEnd n => m.bytes.length + n < 2 ^ 63
  | .fromHere n => m.position < 2 ^ 63 ∧ m.position + n < 2 ^ 63

/-- No seek of a run overflows 64 bits. -/
def Fits (m : Memory) : List Stream.Op → Prop
  | [] => True
  | .seek move :: ops => m.FitsSeek move ∧ (m.seek move).2.Fits ops
  | .read room :: ops => (m.read room).2.Fits ops

theorem seek_bytes (m : Memory) (move : Stream.Seek) : (m.seek move).2.bytes = m.bytes := by
  unfold seek
  split
  · rfl
  · rfl

end Memory

namespace Disc

section
variable {image : Node} {framing : Framing} {extent : Extent} {bytes : Bytes}

/-- The stream on the disc that stands where the memory does. -/
def streamAt (image : Node) (framing : Framing) (extent : Extent) (m : Memory) : Stream :=
  .disc ⟨image, framing, extent, m.position⟩

theorem target_of_holds {m : Memory} (h : Holds image framing extent m.bytes)
    {move : Stream.Seek} (hf : m.FitsSeek move) :
    (streamAt image framing extent m).target move =
      if 0 ≤ m.target move then .ok (m.target move).toNat else .error .negativeSeek := by
  cases move with
  | start n => simp [streamAt, Stream.target, Memory.target]
  | fromEnd n =>
    rw [Memory.target, h.length]
    rfl
  | fromHere n =>
    have hp : (streamAt image framing extent m).signedPosition = m.position := if_pos hf.1
    rw [Stream.target, hp]
    rfl

theorem seek_of_holds {m : Memory} (h : Holds image framing extent m.bytes) {move : Stream.Seek}
    (hf : m.FitsSeek move) :
    (streamAt image framing extent m).seek move =
      (m.seek move).map id (streamAt image framing extent) := by
  unfold Stream.seek Memory.seek
  rw [target_of_holds h hf]
  by_cases hn : 0 ≤ m.target move
  · rw [if_pos hn, if_pos hn]
    rfl
  · rw [if_neg hn, if_neg hn]
    rfl

theorem read_of_holds {m : Memory} (h : Holds image framing extent m.bytes) (room : Nat) :
    (streamAt image framing extent m).read room =
      (m.read room).map id (streamAt image framing extent) := by
  let c : Cursor := ⟨image, framing, extent, m.position⟩
  let part := (m.bytes.drop m.position).take (min room (sectorSize - m.position % sectorSize))
  have hl := h.length
  have hm : c.Meets (m.bytes.drop m.position) := Cursor.meets_drop (c := c) h
  have hr : c.read room = (.ok part, c.advance part.length) := by
    refine Cursor.read_eq_ok_iff.mpr ⟨?_, ?_, rfl⟩
    · simp only [part, c, Cursor.reach, List.length_take, List.length_drop]
      omega
    · rw [← List.take_append_drop (min room (sectorSize - m.position % sectorSize))
        (m.bytes.drop m.position)] at hm
      exact (stands_append_iff.mp hm).1
  rw [streamAt, Stream.read, hr]
  rfl

/-- A run on a disc answers what it answers in memory, and leaves the same position. -/
theorem run_of_holds {m : Memory} (h : Holds image framing extent m.bytes) {ops : List Stream.Op}
    (hf : m.Fits ops) :
    ((streamAt image framing extent m).run ops).1 = (m.run ops).1 ∧
      ((streamAt image framing extent m).run ops).2.position = (m.run ops).2.position := by
  have hrun := Stream.runWith_eq (p := Stream.perform) (q := Memory.perform)
    (fun ops s t => s = streamAt image framing extent t ∧
      Holds image framing extent t.bytes ∧ t.Fits ops) ?_ ⟨rfl, h, hf⟩
  · exact ⟨hrun.1, congrArg Stream.position hrun.2.1⟩
  · rintro (move | room) ops s t ⟨rfl, hh, hfits⟩
    · obtain ⟨hmove, hrest⟩ := hfits
      simp only [Stream.perform, Memory.perform, seek_of_holds hh hmove]
      exact ⟨rfl, rfl, (t.seek_bytes move).symm ▸ hh, hrest⟩
    · simp only [Stream.perform, Memory.perform, read_of_holds hh room]
      exact ⟨rfl, rfl, hh, hfits⟩

/-- A read gives something as long as there is something, from one sector. -/
theorem read_inside {c : Cursor} (h : Holds c.image c.framing c.extent bytes) {room : Nat}
    (hr : 0 < room) (hp : c.position < bytes.length) :
    ∃ part, (c.read room).1 = .ok part ∧ part ≠ [] ∧ part <+: bytes.drop c.position ∧
      part.length ≤ room ∧ c.position % sectorSize + part.length ≤ sectorSize := by
  have hs : c.position % sectorSize < sectorSize := Nat.mod_lt _ (by decide)
  have hread := congrArg Prod.fst (read_of_holds (m := ⟨bytes, c.position⟩) h room)
  refine ⟨_, hread, ?_, List.take_prefix _ _, ?_, ?_⟩
  · refine List.ne_nil_of_length_pos ?_
    simp only [List.length_take, List.length_drop]
    omega
  · simp only [List.length_take]
    omega
  · simp only [List.length_take]
    omega

theorem perform_of_fails {c : Cursor} {op : Stream.Op}
    (h : ((Stream.disc c).perform op).1.Fails) : ((Stream.disc c).perform op).2 = .disc c := by
  cases op with
  | seek move =>
    obtain ⟨cause, h⟩ := h
    exact Stream.seek_error h
  | read room =>
    obtain ⟨cause, h⟩ := h
    exact congrArg Stream.disc (Cursor.read_error (Prod.ext h rfl)).2

/-- An extent that is read sector by sector, as a position meets them, is one that lies in memory:
seeks and reads answer alike, and reading on to the end gives what is left, whatever the buffers.
From the start it gives what reading the extent at once does, a failure too; and what fails leaves
the position. -/
theorem disc_stream_refines_memory (image : Node) (framing : Framing) (extent : Extent)
    (position : Nat) :
    let c : Cursor := ⟨image, framing, extent, position⟩
    let start : Cursor := ⟨image, framing, extent, 0⟩
    (∀ bytes, readExtent image framing extent = .ok bytes →
      (∀ ops, Memory.Fits ⟨bytes, position⟩ ops →
        ((Stream.disc c).run ops).1 = (Memory.run ⟨bytes, position⟩ ops).1 ∧
          ((Stream.disc c).run ops).2.position = (Memory.run ⟨bytes, position⟩ ops).2.position) ∧
      (∀ room, 0 < room → position < bytes.length →
        ∃ part, (c.read room).1 = .ok part ∧ part ≠ [] ∧ part <+: bytes.drop position ∧
          part.length ≤ room ∧ position % sectorSize + part.length ≤ sectorSize) ∧
      (∀ room, bytes.length ≤ position → (c.read room).1 = .ok []) ∧
      (∀ rooms, (∀ room ∈ rooms, 0 < room) → bytes.length - position ≤ rooms.length →
        (c.gather rooms).1 = .ok (bytes.drop position)) ∧
      (∀ rooms room got next, c.gather rooms = (.ok got, next) → 0 < room →
        (next.read room).1 = .ok [] → got = bytes.drop position) ∧
      c.drain.1 = .ok (bytes.drop position)) ∧
    (∀ rooms, (∀ room ∈ rooms, 0 < room) → extent.length ≤ rooms.length →
      (start.gather rooms).1 = readExtent image framing extent) ∧
    start.drain.1 = readExtent image framing extent ∧
    ∀ op, ((Stream.disc c).perform op).1.Fails →
      ((Stream.disc c).perform op).2 = .disc c := by
  intro c start
  refine ⟨fun bytes hb => ?_, fun rooms hrooms hn => ?_,
    Cursor.drain_eq_readExtent image framing extent, fun op h => perform_of_fails h⟩
  · have hh : Holds c.image c.framing c.extent bytes := readExtent_eq_ok_iff.mp hb
    have hl := hh.length
    refine ⟨fun ops hf => run_of_holds (m := ⟨bytes, position⟩) hh hf,
      fun room hr hp => read_inside (c := c) hh hr hp, fun room hp => ?_,
      fun rooms hrooms hn => ?_, fun rooms room got next hg hr he => ?_, ?_⟩
    · rw [Cursor.read_of_reach_zero (Cursor.reach_eq_zero_iff.mpr (Or.inl (hl ▸ hp)))]
    · rw [Cursor.gather_of_holds hh (Cursor.exhausts_of_length hrooms (hl ▸ hn))]
    · have hz := Cursor.reach_eq_zero_of_read he
      have hend : next.extent.length ≤ next.position := by
        rcases Cursor.reach_eq_zero_iff.mp hz with hle | rfl
        · exact hle
        · cases hr
      have hex : c.Exhausts rooms := by
        intro got' next' hg'
        cases hg.symm.trans hg'
        exact (Cursor.gather_ok hg).2 ▸ hend
      cases hg.symm.trans (Cursor.gather_of_holds hh hex)
      rfl
    · obtain ⟨rooms, he, hd⟩ := c.drain_eq_gather
      rw [hd, Cursor.gather_of_holds hh he]
  · exact Cursor.gather_eq_readExtent rfl (Cursor.exhausts_of_length (c := start) hrooms hn)

end

/-- Two reads for the last two bytes, since they lie in two sectors. -/
def acrossSectors : List Stream.Op :=
  [.seek (.fromEnd (-2)), .read 9, .read 9, .read 9, .seek (.fromHere (-3000)), .seek (.start 1)]

theorem disc_stream_refines_memory_across :
    readExtent (.file (List.replicate 2049 5)) .cooked ⟨0, 2049⟩ =
        .ok (List.replicate 2049 5) ∧
      Memory.Fits ⟨List.replicate 2049 5, 0⟩ acrossSectors ∧
      ((Stream.disc ⟨.file (List.replicate 2049 5), .cooked, ⟨0, 2049⟩, 0⟩).run
        acrossSectors).1 =
          [.moved (.ok 2047), .got (.ok [5]), .got (.ok [5]), .got (.ok []),
            .moved (.error .negativeSeek), .moved (.ok 1)] := by
  have hb : readExtent (.file (List.replicate 2049 5)) .cooked ⟨0, 2049⟩ =
      .ok (List.replicate 2049 5) := by
    refine readExtent_eq_ok_iff.mpr ⟨List.length_replicate, fun i _ => ?_⟩
    rw [Framing.place_cooked, Nat.zero_mul, Nat.zero_add, Nat.zero_add]
    rfl
  have hf : Memory.Fits ⟨List.replicate 2049 5, 0⟩ acrossSectors := by
    simp [-List.reduceReplicate, acrossSectors, Memory.Fits, Memory.FitsSeek, Memory.seek,
      Memory.target, Memory.read, sectorSize]
  refine ⟨hb, hf, ?_⟩
  have h := (disc_stream_refines_memory _ _ _ 0).1 _ hb
  rw [(h.1 _ hf).1]
  simp [-List.reduceReplicate, acrossSectors, Memory.run, Stream.runWith, Memory.perform,
    Memory.seek, Memory.target, Memory.read, sectorSize]

end Disc
end LayeredAssets
