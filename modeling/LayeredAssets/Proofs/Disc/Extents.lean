import LayeredAssets.Disc.Sector
import LayeredAssets.Proofs.Except

namespace LayeredAssets

theorem Bytes.slice?_eq_some_iff {bytes part : Bytes} {start count : Nat} :
    bytes.slice? start count = some part ↔
      part.length = count ∧ ∀ i < count, bytes[start + i]? = part[i]? := by
  have htake : ∀ i < count, ((bytes.drop start).take count)[i]? = bytes[start + i]? := by
    intro i hi
    rw [List.getElem?_take_of_lt hi, List.getElem?_drop]
  unfold Bytes.slice?
  dsimp only
  constructor
  · intro h
    split at h
    · next hl =>
      obtain rfl := Option.some.inj h
      exact ⟨hl, fun i hi => (htake i hi).symm⟩
    · cases h
  · rintro ⟨hl, hb⟩
    have he : (bytes.drop start).take count = part := by
      refine List.ext_getElem? fun i => ?_
      by_cases hi : i < count
      · rw [htake i hi, hb i hi]
      · rw [List.getElem?_take_eq_none (by omega), List.getElem?_eq_none (by omega)]
    rw [he, if_pos hl]

namespace Node

def byte? : Node → Nat → Option UInt8
  | .file bytes, n => bytes[n]?
  | .folder, _ => none

/-- What a node says to a read that it cannot fill. -/
def refusal : Node → HostFault
  | .file _ => .endOfData
  | .folder => .isFolder

/-- A folder refuses even to read nothing. -/
theorem read_eq_ok_iff {image : Node} {start count : Nat} {part : Bytes} (hc : 0 < count) :
    image.read start count = .ok part ↔
      part.length = count ∧ ∀ i < count, image.byte? (start + i) = part[i]? := by
  cases image with
  | folder =>
    simp only [read, byte?, reduceCtorEq, false_iff, not_and]
    intro hl hb
    have h0 := hb 0 hc
    rw [List.getElem?_eq_getElem (by omega)] at h0
    cases h0
  | file bytes =>
    simp only [byte?, ← Bytes.slice?_eq_some_iff, read]
    split
    · next part' h => rw [h, Except.ok.injEq, Option.some.injEq]
    · next h => simp [h]

theorem read_error {image : Node} {start count : Nat} {cause : HostFault}
    (h : image.read start count = .error cause) : cause = image.refusal := by
  cases image with
  | folder => exact (Except.error.inj h).symm
  | file bytes =>
    simp only [read] at h
    split at h
    · cases h
    · exact (Except.error.inj h).symm

end Node

namespace Disc

/-- Where byte `i` lies on the host, counted from the start of a sector. -/
def Framing.place (framing : Framing) (sector i : Nat) : Nat :=
  framing.offset (sector + i / sectorSize) + i % sectorSize

theorem Framing.place_of_within {framing : Framing} {sector i k : Nat}
    (h : i % sectorSize + k < sectorSize) :
    framing.place sector (i + k) =
      framing.offset (sector + i / sectorSize) + i % sectorSize + k := by
  have hd : (i + k) / sectorSize = i / sectorSize := by
    unfold sectorSize at h ⊢
    omega
  have hm : (i + k) % sectorSize = i % sectorSize + k := by
    unfold sectorSize at h ⊢
    omega
  rw [place, hd, hm, Nat.add_assoc]

theorem Framing.place_next (framing : Framing) (sector i : Nat) :
    framing.place sector (sectorSize + i) = framing.place (sector + 1) i := by
  have hd : sector + (sectorSize + i) / sectorSize = sector + 1 + i / sectorSize := by
    unfold sectorSize
    omega
  have hm : (sectorSize + i) % sectorSize = i % sectorSize := by
    unfold sectorSize
    omega
  rw [place, place, hd, hm]

theorem Framing.place_cooked (sector i : Nat) :
    Framing.cooked.place sector i = sector * sectorSize + i := by
  unfold Framing.place Framing.offset sectorSize
  dsimp only
  omega

/-- These bytes are met from a position on, counted from the start of a sector. -/
def Stands (image : Node) (framing : Framing) (sector position : Nat) (bytes : Bytes) : Prop :=
  ∀ i < bytes.length, image.byte? (framing.place sector (position + i)) = bytes[i]?

/-- What an extent holds, byte for byte. -/
structure Holds (image : Node) (framing : Framing) (extent : Extent) (bytes : Bytes) : Prop where
  length : bytes.length = extent.length
  stands : Stands image framing extent.sector 0 bytes

section
variable {image : Node} {framing : Framing} {sector position : Nat} {bytes part rest : Bytes}

theorem Stands.nil : Stands image framing sector position [] := by
  intro i hi
  cases hi

theorem stands_append_iff : Stands image framing sector position (part ++ rest) ↔
    Stands image framing sector position part ∧
      Stands image framing sector (position + part.length) rest := by
  constructor
  · intro h
    refine ⟨fun i hi => ?_, fun i hi => ?_⟩
    · rw [h i (by rw [List.length_append]; omega), List.getElem?_append_left hi]
    · have := h (part.length + i) (by rw [List.length_append]; omega)
      rwa [List.getElem?_append_right (by omega), Nat.add_sub_cancel_left, ← Nat.add_assoc] at this
  · rintro ⟨hp, hr⟩ i hi
    by_cases h : i < part.length
    · rw [List.getElem?_append_left h]
      exact hp i h
    · have := hr (i - part.length) (by rw [List.length_append] at hi; omega)
      rw [List.getElem?_append_right (by omega), ← this]
      congr 2
      omega

theorem Stands.eq (hp : Stands image framing sector position part)
    (hr : Stands image framing sector position rest) (hl : part.length = rest.length) :
    part = rest := by
  refine List.ext_getElem? fun i => ?_
  by_cases hi : i < part.length
  · rw [← hp i hi, hr i (hl ▸ hi)]
  · rw [List.getElem?_eq_none (by omega), List.getElem?_eq_none (by omega)]

theorem stands_next_iff : Stands image framing sector sectorSize bytes ↔
    Stands image framing (sector + 1) 0 bytes := by
  simp only [Stands, Framing.place_next, Nat.zero_add]

/-- A read that stays inside one sector. -/
theorem read_within_iff {count : Nat} (hc : 0 < count)
    (hw : position % sectorSize + count ≤ sectorSize) :
    image.read (framing.offset (sector + position / sectorSize) + position % sectorSize) count =
        .ok part ↔
      part.length = count ∧ Stands image framing sector position part := by
  rw [Node.read_eq_ok_iff hc]
  refine and_congr_right fun hl => ?_
  subst hl
  refine forall₂_congr fun i hi => ?_
  rw [Framing.place_of_within (by omega)]

end

section
variable {image : Node} {framing : Framing} {extent : Extent} {bytes : Bytes}

theorem Extent.parts_of_length_zero {sector : Nat} : Extent.parts ⟨sector, 0⟩ = [] := by
  simp [Extent.parts, sectorSize]

theorem Extent.parts_of_pos {sector length : Nat} (h : 0 < length) :
    Extent.parts ⟨sector, length⟩ =
      (sector, min sectorSize length) :: Extent.parts ⟨sector + 1, length - sectorSize⟩ := by
  have hn : (length + sectorSize - 1) / sectorSize =
      (length - sectorSize + sectorSize - 1) / sectorSize + 1 := by
    unfold sectorSize
    omega
  simp only [Extent.parts, hn, List.range_succ_eq_map, List.map_cons, List.map_map, Nat.add_zero,
    Nat.zero_mul, Nat.sub_zero, List.cons.injEq, true_and]
  refine List.map_congr_left fun i _ => ?_
  simp only [Function.comp_apply, Prod.mk.injEq, sectorSize]
  omega

theorem readExtent_of_length_zero {sector : Nat} :
    readExtent image framing ⟨sector, 0⟩ = .ok [] := by
  rw [readExtent, Extent.parts_of_length_zero]
  rfl

theorem readExtent_of_pos {sector length : Nat} (h : 0 < length) :
    readExtent image framing ⟨sector, length⟩ =
      (image.read (framing.offset sector) (min sectorSize length)).bind fun part =>
        (readExtent image framing ⟨sector + 1, length - sectorSize⟩).map (part ++ ·) := by
  rw [readExtent, Extent.parts_of_pos h, List.mapM_cons, readExtent]
  cases image.read (framing.offset sector) (min sectorSize length) with
  | error cause => rfl
  | ok part =>
    generalize (Extent.parts ⟨sector + 1, length - sectorSize⟩).mapM
      (fun part => image.read (framing.offset part.1) part.2) = parts
    cases parts with
    | error cause => rfl
    | ok parts => rfl

/-- The first sector of an extent, and what is left without it. -/
theorem holds_append_iff {sector length : Nat} {part rest : Bytes}
    (hp : part.length = min sectorSize length) :
    Holds image framing ⟨sector, length⟩ (part ++ rest) ↔
      Stands image framing sector 0 part ∧
        Holds image framing ⟨sector + 1, length - sectorSize⟩ rest := by
  have hnext : rest.length = length - sectorSize →
      (Stands image framing sector part.length rest ↔
        Stands image framing (sector + 1) 0 rest) := by
    intro hr
    by_cases hl : sectorSize ≤ length
    · rw [hp, Nat.min_eq_left hl, stands_next_iff]
    · obtain rfl := List.eq_nil_of_length_eq_zero (hr.trans (by omega))
      exact ⟨fun _ => .nil, fun _ => .nil⟩
  constructor
  · rintro ⟨hl, hs⟩
    rw [List.length_append] at hl
    dsimp only at hl
    have hr : rest.length = length - sectorSize := by omega
    obtain ⟨hs, ht⟩ := stands_append_iff.mp hs
    rw [Nat.zero_add] at ht
    exact ⟨hs, hr, (hnext hr).mp ht⟩
  · rintro ⟨hs, hr, ht⟩
    refine ⟨?_, stands_append_iff.mpr ⟨hs, ?_⟩⟩
    · rw [List.length_append, hr]
      dsimp only
      omega
    · rw [Nat.zero_add]
      exact (hnext hr).mpr ht

/-- An extent is read whole, and reads as what stands there. -/
theorem readExtent_eq_ok_iff :
    readExtent image framing extent = .ok bytes ↔ Holds image framing extent bytes := by
  obtain ⟨sector, length⟩ := extent
  -- Reading takes one sector after the other, and the rest is an extent of its own.
  induction length using Nat.strongRecOn generalizing sector bytes with
  | ind length ih =>
    rcases Nat.eq_zero_or_pos length with rfl | hpos
    · rw [readExtent_of_length_zero]
      constructor
      · rintro ⟨⟩
        exact ⟨rfl, .nil⟩
      · rintro ⟨hl, _⟩
        rw [List.eq_nil_of_length_eq_zero hl]
    · have hsize : 0 < sectorSize := by decide
      have hfirst : ∀ part, image.read (framing.offset sector) (min sectorSize length) = .ok part ↔
          part.length = min sectorSize length ∧ Stands image framing sector 0 part := by
        intro part
        have hw : 0 % sectorSize + min sectorSize length ≤ sectorSize := by
          rw [Nat.zero_mod]
          omega
        have hread : image.read (framing.offset (sector + 0 / sectorSize) + 0 % sectorSize)
              (min sectorSize length) = .ok part ↔
            part.length = min sectorSize length ∧ Stands image framing sector 0 part :=
          read_within_iff (by omega) hw
        simpa using hread
      have hrest : ∀ rest, readExtent image framing ⟨sector + 1, length - sectorSize⟩ = .ok rest ↔
          Holds image framing ⟨sector + 1, length - sectorSize⟩ rest :=
        fun rest => ih (length - sectorSize) (by omega) (sector + 1)
      rw [readExtent_of_pos hpos]
      constructor
      · intro h
        obtain ⟨part, hp, h⟩ := Except.bind_eq_ok_iff.mp h
        obtain ⟨rest, hr, rfl⟩ := Except.map_eq_ok_iff.mp h
        obtain ⟨hl, hs⟩ := (hfirst part).mp hp
        exact (holds_append_iff hl).mpr ⟨hs, (hrest rest).mp hr⟩
      · intro h
        have hl : (bytes.take (min sectorSize length)).length = min sectorSize length := by
          rw [List.length_take, h.length]
          dsimp only
          omega
        rw [← List.take_append_drop (min sectorSize length) bytes] at h ⊢
        obtain ⟨hs, hh⟩ := (holds_append_iff hl).mp h
        rw [(hfirst _).mpr ⟨hl, hs⟩]
        exact congrArg (Except.map _) ((hrest _).mpr hh)

theorem readExtent_error {cause : HostFault} (h : readExtent image framing extent = .error cause) :
    cause = image.refusal := by
  obtain ⟨part, _, hp⟩ := Except.mapM_eq_error (Except.map_eq_error_iff.mp h)
  exact Node.read_error hp

end
end Disc
end LayeredAssets
