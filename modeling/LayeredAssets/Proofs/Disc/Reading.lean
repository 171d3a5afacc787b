import LayeredAssets.Backend
import LayeredAssets.Proofs.Disc.Extents

namespace LayeredAssets.Disc

namespace Cursor

/-- How much one read gives for a buffer of `room` bytes. -/
def reach (c : Cursor) (room : Nat) : Nat :=
  min room (min (sectorSize - c.position % sectorSize) (c.extent.length - c.position))

def advance (c : Cursor) (count : Nat) : Cursor := { c with position := c.position + count }

/-- What stands in the extent from the position on. -/
def Meets (c : Cursor) (bytes : Bytes) : Prop :=
  Stands c.image c.framing c.extent.sector c.position bytes

/-- One buffer after another is filled, up to the first read that fails. -/
def gather (c : Cursor) : List Nat → Except HostFault Bytes × Cursor
  | [] => (.ok [], c)
  | room :: rooms =>
    match c.read room with
    | (.error cause, next) => (.error cause, next)
    | (.ok part, next) => ((next.gather rooms).1.map (part ++ ·), (next.gather rooms).2)

section
variable {c next : Cursor} {room : Nat} {rooms : List Nat} {part got bytes : Bytes}
  {cause : HostFault}

theorem reach_pos (hr : 0 < room) (hp : c.position < c.extent.length) : 0 < c.reach room := by
  have : c.position % sectorSize < sectorSize := Nat.mod_lt _ (by decide)
  unfold reach
  omega

theorem reach_eq_zero_iff : c.reach room = 0 ↔ c.extent.length ≤ c.position ∨ room = 0 := by
  have : c.position % sectorSize < sectorSize := Nat.mod_lt _ (by decide)
  unfold reach
  omega

theorem read_of_reach_zero (h : c.reach room = 0) : c.read room = (.ok [], c) := by
  rw [read, if_pos (reach_eq_zero_iff.mp h)]

theorem read_of_reach_pos (h : 0 < c.reach room) : c.read room =
    match c.image.read (c.framing.offset (c.extent.sector + c.position / sectorSize) +
      c.position % sectorSize) (c.reach room) with
    | .ok part => (.ok part, c.advance (c.reach room))
    | .error cause => (.error cause, c) := by
  have hn : ¬(c.extent.length ≤ c.position ∨ room = 0) := fun he => by
    have := reach_eq_zero_iff.mpr he
    omega
  rw [read, if_neg hn]
  rfl

theorem read_eq_ok_iff : c.read room = (.ok part, next) ↔
    part.length = c.reach room ∧ c.Meets part ∧ next = c.advance part.length := by
  rcases Nat.eq_zero_or_pos (c.reach room) with h | h
  · rw [read_of_reach_zero h, h]
    constructor
    · rintro ⟨⟩
      exact ⟨rfl, .nil, rfl⟩
    · rintro ⟨hl, _, rfl⟩
      rw [List.eq_nil_of_length_eq_zero hl]
      rfl
  · have hw : c.position % sectorSize + c.reach room ≤ sectorSize := by
      have : c.position % sectorSize < sectorSize := Nat.mod_lt _ (by decide)
      unfold reach
      omega
    rw [read_of_reach_pos h]
    split
    · next part' he =>
      obtain ⟨hl', hm'⟩ := (read_within_iff h hw).mp he
      simp only [Prod.mk.injEq, Except.ok.injEq]
      constructor
      · rintro ⟨rfl, rfl⟩
        exact ⟨hl', hm', by rw [hl']⟩
      · rintro ⟨hl, hm, rfl⟩
        exact ⟨hm'.eq hm (hl'.trans hl.symm), by rw [hl]⟩
    · next cause he =>
      simp only [Prod.mk.injEq, reduceCtorEq, false_and, false_iff]
      rintro ⟨hl, hm, _⟩
      rw [(read_within_iff h hw).mpr ⟨hl, hm⟩] at he
      cases he

theorem read_error (h : c.read room = (.error cause, next)) :
    cause = c.image.refusal ∧ next = c := by
  rcases Nat.eq_zero_or_pos (c.reach room) with hz | hp
  · rw [read_of_reach_zero hz] at h
    cases h
  · rw [read_of_reach_pos hp] at h
    split at h
    · cases h
    · next he =>
      cases h
      exact ⟨Node.read_error he, rfl⟩

theorem gather_cons_of_read (h : c.read room = (.ok part, next)) :
    c.gather (room :: rooms) = ((next.gather rooms).1.map (part ++ ·), (next.gather rooms).2) := by
  rw [gather, h]

theorem gather_cons_ok (h : c.gather (room :: rooms) = (.ok got, next)) :
    ∃ part rest, part.length = c.reach room ∧ c.Meets part ∧
      (c.advance part.length).gather rooms = (.ok rest, next) ∧ got = part ++ rest := by
  rw [gather] at h
  split at h
  · cases h
  · next part mid hr =>
    obtain ⟨hl, hm, rfl⟩ := read_eq_ok_iff.mp hr
    obtain ⟨rest, he, rfl⟩ := Except.map_eq_ok_iff.mp (Prod.mk.inj h).1
    exact ⟨part, rest, hl, hm, Prod.ext he (Prod.mk.inj h).2, rfl⟩

theorem reach_eq_zero_of_read (h : (c.read room).1 = .ok []) : c.reach room = 0 :=
  (read_eq_ok_iff.mp (Prod.ext h rfl)).1.symm

/-- Whatever the buffers, what is gathered stands in the extent without a gap. -/
theorem gather_ok (h : c.gather rooms = (.ok got, next)) :
    c.Meets got ∧ next = c.advance got.length := by
  induction rooms generalizing c got with
  | nil =>
    cases h
    exact ⟨.nil, rfl⟩
  | cons room rooms ih =>
    obtain ⟨part, rest, _, hm, hg, rfl⟩ := gather_cons_ok h
    obtain ⟨hrest, rfl⟩ := ih hg
    refine ⟨stands_append_iff.mpr ⟨hm, hrest⟩, ?_⟩
    rw [List.length_append, advance, advance, advance, Nat.add_assoc]

theorem gather_error (h : c.gather rooms = (.error cause, next)) : cause = c.image.refusal := by
  induction rooms generalizing c with
  | nil => cases h
  | cons room rooms ih =>
    rw [gather] at h
    split at h
    · next hr =>
      cases h
      exact (read_error hr).1
    · next part mid hr =>
      obtain ⟨_, _, rfl⟩ := read_eq_ok_iff.mp hr
      obtain ⟨he, hn⟩ := Prod.mk.inj h
      exact ih (c := c.advance part.length) (Prod.ext (Except.map_eq_error_iff.mp he) hn)

theorem gather_length_le (h : c.gather rooms = (.ok got, next)) :
    got.length ≤ c.extent.length - c.position := by
  induction rooms generalizing c got with
  | nil =>
    cases h
    exact Nat.zero_le _
  | cons room rooms ih =>
    obtain ⟨part, rest, hl, _, hg, rfl⟩ := gather_cons_ok h
    have hrest := ih hg
    have hreach : c.reach room ≤ c.extent.length - c.position := by
      unfold reach
      omega
    simp only [advance, List.length_append] at hrest ⊢
    omega

/-- The buffers are enough: unless a read fails, they lead to the end of the extent. -/
def Exhausts (c : Cursor) (rooms : List Nat) : Prop :=
  ∀ {got next}, c.gather rooms = (.ok got, next) → c.extent.length ≤ next.position

/-- Every buffer takes the position on by a byte at least. -/
theorem exhausts_of_length (hrooms : ∀ room ∈ rooms, 0 < room)
    (hn : c.extent.length - c.position ≤ rooms.length) : c.Exhausts rooms := by
  induction rooms generalizing c with
  | nil =>
    intro got next h
    cases h
    rw [List.length_nil] at hn
    omega
  | cons room rooms ih =>
    intro got next h
    obtain ⟨part, rest, hl, _, hg, rfl⟩ := gather_cons_ok h
    have hpos : c.position < c.extent.length → 0 < c.reach room :=
      reach_pos (hrooms room List.mem_cons_self)
    refine ih (c := c.advance part.length)
      (fun room hm => hrooms room (List.mem_cons_of_mem _ hm)) ?_ hg
    simp only [advance, List.length_cons] at hn ⊢
    omega

/-- Nothing that stands in the extent is refused. -/
theorem gather_of_meets (hm : c.Meets bytes) (hl : bytes.length = c.extent.length - c.position)
    (rooms : List Nat) : ∃ got next, c.gather rooms = (.ok got, next) := by
  induction rooms generalizing c bytes with
  | nil => exact ⟨[], c, rfl⟩
  | cons room rooms ih =>
    have hreach : c.reach room ≤ bytes.length := by
      unfold reach
      omega
    have htake : (bytes.take (c.reach room)).length = c.reach room :=
      List.length_take_of_le hreach
    rw [← List.take_append_drop (c.reach room) bytes] at hm
    obtain ⟨hfirst, hrest⟩ := stands_append_iff.mp hm
    have hr : c.read room = (.ok (bytes.take (c.reach room)), c.advance (c.reach room)) :=
      read_eq_ok_iff.mpr ⟨htake, hfirst, by rw [htake]⟩
    rw [htake] at hrest
    obtain ⟨got, next, hg⟩ := ih (c := c.advance (c.reach room)) hrest (by
      rw [List.length_drop, hl, advance]
      dsimp only
      omega)
    exact ⟨bytes.take (c.reach room) ++ got, next, by rw [gather_cons_of_read hr, hg]; rfl⟩

theorem meets_drop (h : Holds c.image c.framing c.extent bytes) :
    c.Meets (bytes.drop c.position) := by
  by_cases hp : c.position ≤ bytes.length
  · have hs := h.stands
    rw [← List.take_append_drop c.position bytes] at hs
    have := (stands_append_iff.mp hs).2
    rwa [Nat.zero_add, List.length_take_of_le hp] at this
  · rw [List.drop_of_length_le (by omega)]
    exact .nil

/-- Enough buffers gather the rest of an extent, if it is there. -/
theorem gather_of_holds (h : Holds c.image c.framing c.extent bytes) (he : c.Exhausts rooms) :
    c.gather rooms =
      (.ok (bytes.drop c.position), c.advance (bytes.length - c.position)) := by
  have hm := meets_drop h
  have hl : (bytes.drop c.position).length = c.extent.length - c.position := by
    rw [List.length_drop, h.length]
  obtain ⟨got, next, hg⟩ := gather_of_meets hm hl rooms
  have hend := he hg
  obtain ⟨hgot, rfl⟩ := gather_ok hg
  have hle := gather_length_le hg
  have := h.length
  have hlen : got.length = bytes.length - c.position := by
    simp only [advance] at hend
    omega
  rw [hg, hlen, hgot.eq hm (by rw [hlen, List.length_drop])]

/-- From the start, enough buffers gather what reading the extent at once gives, or fail like it. -/
theorem gather_eq_readExtent (hc : c.position = 0) (he : c.Exhausts rooms) :
    (c.gather rooms).1 = readExtent c.image c.framing c.extent := by
  cases hr : readExtent c.image c.framing c.extent with
  | ok bytes => rw [gather_of_holds (readExtent_eq_ok_iff.mp hr) he, hc, List.drop_zero]
  | error cause =>
    obtain rfl := readExtent_error hr
    cases hg : c.gather rooms with
    | mk answer next =>
      cases answer with
      | error cause => rw [gather_error hg]
      | ok got =>
        have hend := he hg
        obtain ⟨hm, rfl⟩ := gather_ok hg
        have hle := gather_length_le hg
        have hh : Holds c.image c.framing c.extent got := by
          simp only [advance] at hend
          exact ⟨by omega, by rwa [Meets, hc] at hm⟩
        rw [readExtent_eq_ok_iff.mpr hh] at hr
        cases hr

theorem exhausts_cons (hr : c.read room = (.ok part, next)) (he : next.Exhausts rooms) :
    c.Exhausts (room :: rooms) := by
  intro got last h
  obtain ⟨_, _, rfl⟩ := read_eq_ok_iff.mp hr
  rw [gather_cons_of_read hr] at h
  obtain ⟨rest, hg, _⟩ := Except.map_eq_ok_iff.mp (Prod.mk.inj h).1
  exact he (Prod.ext hg (Prod.mk.inj h).2)

theorem gather_of_read_error (h : c.read room = (.error cause, next)) :
    c.gather [room] = (.error cause, next) := by
  rw [gather, h]

theorem exhausts_of_read_error (h : c.read room = (.error cause, next)) : c.Exhausts [room] := by
  intro got last hg
  rw [gather_of_read_error h] at hg
  cases hg

/-- The buffers that a drain goes on with are one choice among all. -/
theorem drainInto_eq_gather (buffer : Buffer) (done : List Bytes) (c : Cursor) :
    ∃ rooms, c.Exhausts rooms ∧ drainInto buffer done c =
      ((c.gather rooms).1.map (done.reverse.flatten ++ ·), (c.gather rooms).2) := by
  induction buffer, done, c using drainInto.induct with
  | case1 buffer done c hp part next hr _ ih =>
    obtain ⟨rooms, he, hd⟩ := ih
    refine ⟨buffer.ready.cleared :: rooms, exhausts_cons hr he, ?_⟩
    rw [drainInto, dif_pos hp, gather_cons_of_read hr]
    split
    · next part' next' hr' =>
      cases hr.symm.trans hr'
      rw [hd]
      cases (next.gather rooms).1 with
      | error cause => rfl
      | ok rest => simp [Except.map]
    · next hr' => cases hr.symm.trans hr'
  | case2 buffer done c hp cause next hr =>
    refine ⟨[buffer.ready.cleared], exhausts_of_read_error hr, ?_⟩
    rw [drainInto, dif_pos hp, gather_of_read_error hr]
    split
    · next hr' => cases hr.symm.trans hr'
    · next hr' =>
      cases hr.symm.trans hr'
      rfl
  | case3 buffer done c hp =>
    refine ⟨[], ?_, ?_⟩
    · intro got next h
      cases h
      omega
    · rw [drainInto, dif_neg hp]
      simp [gather, Except.map]

theorem drain_eq_gather (c : Cursor) : ∃ rooms, c.Exhausts rooms ∧ c.drain = c.gather rooms := by
  rw [drain]
  split
  · next part next hr =>
    obtain ⟨rooms, he, hd⟩ :=
      drainInto_eq_gather ⟨part.length, max 8 part.length, 0⟩ [part] next
    refine ⟨32 :: rooms, exhausts_cons hr he, ?_⟩
    rw [hd, gather_cons_of_read hr]
    simp
  · next hr => exact ⟨[32], exhausts_of_read_error hr, (gather_of_read_error hr).symm⟩

/-- From the start it makes no difference whether an extent is read at once or bit by bit. -/
theorem drain_eq_readExtent (image : Node) (framing : Framing) (extent : Extent) :
    (drain ⟨image, framing, extent, 0⟩).1 = readExtent image framing extent := by
  obtain ⟨rooms, he, hd⟩ := drain_eq_gather ⟨image, framing, extent, 0⟩
  rw [hd, gather_eq_readExtent rfl he]

end

end Cursor

section
variable {host : Host} {path : String} {image : Node} {framing : Framing}
  {sightings : List Sighting}

theorem openFile_disc (hi : host.find path = .ok image) (file : String) :
    Backend.openFile host (.disc ⟨path, framing, sightings⟩) file =
      match Image.fileAt? ⟨path, framing, sightings⟩ (Image.key file) with
      | none => .error (.fileNotFound (path ++ ":" ++ file))
      | some extent => .ok (.disc ⟨image, framing, extent, 0⟩) := by
  rw [Backend.openFile]
  dsimp only
  rw [hi]
  rfl

theorem readBytes_disc (hi : host.find path = .ok image) (file : String) :
    Backend.readBytes host (.disc ⟨path, framing, sightings⟩) file =
      match Image.fileAt? ⟨path, framing, sightings⟩ (Image.key file) with
      | none => .error (.fileNotFound (path ++ ":" ++ file))
      | some extent => (readExtent image framing extent).mapError .host := by
  rw [Backend.readBytes, openFile_disc hi]
  cases Image.fileAt? ⟨path, framing, sightings⟩ (Image.key file) with
  | none => rfl
  | some extent =>
    exact congrArg (Except.mapError Fault.host) (Cursor.drain_eq_readExtent image framing extent)

end
end LayeredAssets.Disc
