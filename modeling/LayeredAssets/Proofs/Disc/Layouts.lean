import LayeredAssets.Disc.Sector

namespace LayeredAssets.Disc

/-- What makes a file count as a raw image, as far as its first bytes and its length tell. -/
def LooksRaw (file : Bytes) : Prop := file.take 12 = syncMark ∧ file.length % rawSectorSize = 0

theorem not_looksRaw {file : Bytes} (h : file[1]? ≠ some 255) : ¬LooksRaw file := by
  intro hr
  have hsecond := congrArg (fun bytes : Bytes => bytes[1]?) hr.1
  rw [List.getElem?_take_of_lt (by decide)] at hsecond
  exact h hsecond

/-- How the sectors of a raw image are framed. The second way has a sub-header after the header. -/
inductive Mode
  | one
  | two
  deriving DecidableEq, Repr

namespace Mode

def mark : Mode → UInt8
  | one => 1
  | two => 2

def dataOffset : Mode → Nat
  | one => 16
  | two => 24

theorem dataOffset_add_le (mode : Mode) {i : Nat} (h : i < sectorSize) :
    mode.dataOffset + i < rawSectorSize := by
  unfold sectorSize at h
  cases mode with
  | one => simp only [dataOffset, rawSectorSize]; omega
  | two => simp only [dataOffset, rawSectorSize]; omega

end Mode

/-- How a file lays out its sectors. -/
inductive FramedAs (file : Bytes) : Framing → Prop
  | cooked (h : ¬LooksRaw file) : FramedAs file .cooked
  | raw (mode : Mode) (h : LooksRaw file) (hm : file[15]? = some mode.mark) :
    FramedAs file (.raw mode.dataOffset)

theorem FramedAs.ofNode {file : Bytes} {framing : Framing} (h : FramedAs file framing) :
    Framing.ofNode (.file file) = .ok framing := by
  unfold Framing.ofNode
  cases h with
  | cooked h => exact if_neg fun hr => h hr.2
  | raw mode h hm =>
    have hl : 16 ≤ file.length := by
      have := (List.getElem?_eq_some_iff.mp hm).1
      omega
    dsimp only
    rw [if_pos ⟨hl, h⟩, List.getD_eq_getElem?_getD, hm]
    cases mode with
    | one => rfl
    | two => rfl

structure Sector where
  bytes : Bytes
  whole : bytes.length = sectorSize

/-- A sector with what a raw image keeps around it. -/
structure Frame (mode : Mode) where
  header : Bytes
  data : Sector
  trailer : Bytes
  headerLength : header.length = mode.dataOffset
  trailerLength : mode.dataOffset + sectorSize + trailer.length = rawSectorSize

namespace Frame
variable {mode : Mode}

def bytes (frame : Frame mode) : Bytes := frame.header ++ frame.data.bytes ++ frame.trailer

def Marked (frame : Frame mode) : Prop :=
  frame.header.take 12 = syncMark ∧ frame.header[15]? = some mode.mark

theorem length_bytes (frame : Frame mode) : frame.bytes.length = rawSectorSize := by
  rw [bytes, List.length_append, List.length_append, frame.headerLength, frame.data.whole]
  exact frame.trailerLength

theorem bytes_data (frame : Frame mode) {i : Nat} (h : i < sectorSize) :
    frame.bytes[mode.dataOffset + i]? = frame.data.bytes[i]? := by
  have hw := frame.data.whole
  rw [bytes, List.getElem?_append_left (by rw [List.length_append, frame.headerLength]; omega),
    List.getElem?_append_right (by rw [frame.headerLength]; omega), frame.headerLength,
    Nat.add_sub_cancel_left]

theorem bytes_header (frame : Frame mode) {i : Nat} (h : i < mode.dataOffset) :
    frame.bytes[i]? = frame.header[i]? := by
  have hl := frame.headerLength
  rw [bytes, List.append_assoc, List.getElem?_append_left (by omega)]

end Frame

/-- Where the rows of a table lie when one stands behind the other. -/
theorem flatten_getElem? {rows : List Bytes} {width : Nat} (h : ∀ row ∈ rows, row.length = width)
    (n : Nat) {i : Nat} (hi : i < width) :
    rows.flatten[n * width + i]? = rows[n]?.bind (fun row => row[i]?) := by
  induction rows generalizing n with
  | nil => simp
  | cons row rows ih =>
    have hw := h row List.mem_cons_self
    rw [List.flatten_cons]
    cases n with
    | zero =>
      rw [Nat.zero_mul, Nat.zero_add, List.getElem?_append_left (by omega)]
      rfl
    | succ n =>
      rw [Nat.succ_mul, List.getElem?_append_right (by omega), List.getElem?_cons_succ,
        ← ih (fun row hr => h row (List.mem_cons_of_mem _ hr)) n, hw]
      congr 1
      omega

theorem length_flatten_of_width {rows : List Bytes} {width : Nat}
    (h : ∀ row ∈ rows, row.length = width) : rows.flatten.length = rows.length * width := by
  rw [List.length_flatten, List.map_congr_left h, List.map_const', List.sum_replicate_nat]

def cookedFile (sectors : List Sector) : Bytes := (sectors.map Sector.bytes).flatten

def rawFile {mode : Mode} (frames : List (Frame mode)) : Bytes := (frames.map Frame.bytes).flatten

section
variable {mode : Mode}

theorem cookedFile_byte (sectors : List Sector) (sector : Nat) {i : Nat} (h : i < sectorSize) :
    (cookedFile sectors)[sector * sectorSize + i]? =
      (sectors[sector]?).bind (fun data => data.bytes[i]?) := by
  have hw : ∀ row ∈ sectors.map Sector.bytes, row.length = sectorSize := by
    intro row hr
    obtain ⟨data, _, rfl⟩ := List.mem_map.mp hr
    exact data.whole
  rw [cookedFile, flatten_getElem? hw _ h, List.getElem?_map]
  cases sectors[sector]? with
  | none => rfl
  | some data => rfl

theorem mem_frames_length {frames : List (Frame mode)} {row : Bytes}
    (h : row ∈ frames.map Frame.bytes) : row.length = rawSectorSize := by
  obtain ⟨frame, _, rfl⟩ := List.mem_map.mp h
  exact frame.length_bytes

theorem rawFile_byte (frames : List (Frame mode)) (sector : Nat) {i : Nat} (h : i < sectorSize) :
    (rawFile frames)[sector * rawSectorSize + mode.dataOffset + i]? =
      (frames[sector]?).bind (fun frame => frame.data.bytes[i]?) := by
  rw [rawFile, Nat.add_assoc, flatten_getElem? (fun _ => mem_frames_length) _
    (mode.dataOffset_add_le h), List.getElem?_map]
  cases frames[sector]? with
  | none => rfl
  | some frame => exact frame.bytes_data h

/-- The mark of its first sector makes a raw image known for what it is. -/
theorem framedAs_rawFile {frame : Frame mode} {frames : List (Frame mode)} (h : frame.Marked) :
    FramedAs (rawFile (frame :: frames)) (.raw mode.dataOffset) := by
  have hoff : 16 ≤ mode.dataOffset := by
    cases mode with
    | one => decide
    | two => decide
  have hl := frame.length_bytes
  have hfirst : ∀ i < 16, (rawFile (frame :: frames))[i]? = frame.header[i]? := by
    intro i hi
    rw [← frame.bytes_header (by omega), rawFile, List.map_cons, List.flatten_cons,
      List.getElem?_append_left (by rw [hl]; unfold rawSectorSize; omega)]
  refine .raw mode ⟨?_, ?_⟩ ((hfirst 15 (by decide)).trans h.2)
  · rw [← h.1]
    refine List.ext_getElem? fun i => ?_
    by_cases hi : i < 12
    · rw [List.getElem?_take_of_lt hi, List.getElem?_take_of_lt hi, hfirst i (by omega)]
    · rw [List.getElem?_take_eq_none (by omega), List.getElem?_take_eq_none (by omega)]
  · rw [rawFile, length_flatten_of_width fun _ => mem_frames_length]
    exact Nat.mul_mod_left _ _

end
end LayeredAssets.Disc
