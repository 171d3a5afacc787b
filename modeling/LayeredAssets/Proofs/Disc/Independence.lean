import LayeredAssets.Proofs.Disc.Indexing
import LayeredAssets.Proofs.Streams

namespace LayeredAssets

/-- The same fault, but for the path by which it names the image. -/
inductive Fault.AlikeOn (path path' : String) : Fault → Fault → Prop
  | same (fault : Fault) : AlikeOn path path' fault fault
  | noDescriptor (sector : Nat) :
    AlikeOn path path' (.disc (.noDescriptor path sector)) (.disc (.noDescriptor path' sector))
  | noPrimary : AlikeOn path path' (.disc (.noPrimary path)) (.disc (.noPrimary path'))
  | fileNotFound (file : String) :
    AlikeOn path path' (.fileNotFound (path ++ ":" ++ file)) (.fileNotFound (path' ++ ":" ++ file))

namespace Disc

/-- Two images with the same bytes in every sector. -/
structure Alike (image image' : Node) (framing framing' : Framing) : Prop where
  refusal : image.refusal = image'.refusal
  byte : ∀ sector {i}, i < sectorSize →
    image.byte? (framing.offset sector + i) = image'.byte? (framing'.offset sector + i)

/-- The same position in the same extent, on another image. -/
def Cursor.onto (c : Cursor) (image : Node) (framing : Framing) : Cursor :=
  { c with image := image, framing := framing }

theorem Cursor.perform_read {c next : Cursor} {room : Nat} {answer : Except HostFault Bytes}
    (h : c.read room = (answer, next)) :
    (Stream.disc c).perform (.read room) = (.got answer, .disc next) := by
  rw [Stream.perform, Stream.read, h]
  rfl

namespace Alike
variable {image image' : Node} {framing framing' : Framing}

theorem stands_iff (h : Alike image image' framing framing') {sector position : Nat}
    {bytes : Bytes} : Stands image framing sector position bytes ↔
      Stands image' framing' sector position bytes := by
  refine forall₂_congr fun i _ => ?_
  rw [Framing.place, Framing.place, h.byte _ (Nat.mod_lt _ (by decide))]

theorem readExtent_eq (h : Alike image image' framing framing') (extent : Extent) :
    readExtent image framing extent = readExtent image' framing' extent := by
  refine Except.eq_of_ok_iff (e := image.refusal) (fun bytes => ?_)
    (fun _ => readExtent_error) (fun _ he => (readExtent_error he).trans h.refusal.symm)
  rw [readExtent_eq_ok_iff, readExtent_eq_ok_iff]
  exact ⟨fun hh => ⟨hh.length, h.stands_iff.mp hh.stands⟩,
    fun hh => ⟨hh.length, h.stands_iff.mpr hh.stands⟩⟩

theorem read_within_eq (h : Alike image image' framing framing') (sector : Nat)
    {position count : Nat} (hc : 0 < count) (hw : position % sectorSize + count ≤ sectorSize) :
    image.read (framing.offset (sector + position / sectorSize) + position % sectorSize) count =
      image'.read (framing'.offset (sector + position / sectorSize) + position % sectorSize)
        count := by
  refine Except.eq_of_ok_iff (e := image.refusal) (fun part => ?_)
    (fun _ => Node.read_error) (fun _ he => (Node.read_error he).trans h.refusal.symm)
  rw [read_within_iff hc hw, read_within_iff hc hw, h.stands_iff]

theorem read_eq {c : Cursor} (h : Alike c.image image' c.framing framing') (room : Nat) :
    (c.onto image' framing').read room =
      ((c.read room).1, (c.read room).2.onto image' framing') := by
  have hreach : (c.onto image' framing').reach room = c.reach room := rfl
  rcases Nat.eq_zero_or_pos (c.reach room) with hz | hp
  · rw [Cursor.read_of_reach_zero (hreach.trans hz), Cursor.read_of_reach_zero hz]
  · have hw : c.position % sectorSize + c.reach room ≤ sectorSize := by
      have : c.position % sectorSize < sectorSize := Nat.mod_lt _ (by decide)
      unfold Cursor.reach
      omega
    have hread := h.read_within_eq c.extent.sector hp hw
    rw [Cursor.read_of_reach_pos (hreach ▸ hp), Cursor.read_of_reach_pos hp, hreach, hread]
    simp only [Cursor.onto]
    split
    · rfl
    · rfl

theorem perform_eq {c : Cursor} (h : Alike c.image image' c.framing framing') (op : Stream.Op) :
    ∃ c', (Stream.disc c).perform op = (((Stream.disc c).perform op).1, .disc c') ∧
      (Stream.disc (c.onto image' framing')).perform op =
        (((Stream.disc c).perform op).1, .disc (c'.onto image' framing')) ∧
      c'.image = c.image ∧ c'.framing = c.framing := by
  cases op with
  | seek move =>
    have ht : (Stream.disc (c.onto image' framing')).target move = (Stream.disc c).target move := by
      cases move with
      | start n => rfl
      | fromEnd n => rfl
      | fromHere n => rfl
    simp only [Stream.perform, Stream.seek, ht]
    split
    · exact ⟨{ c with position := _ }, rfl, rfl, rfl, rfl⟩
    · exact ⟨c, rfl, rfl, rfl, rfl⟩
  | read room =>
    simp only [Stream.perform, Stream.read, h.read_eq]
    refine ⟨_, rfl, rfl, ?_⟩
    cases hr : c.read room with
    | mk answer next =>
      cases answer with
      | ok part =>
        obtain ⟨_, _, rfl⟩ := Cursor.read_eq_ok_iff.mp hr
        exact ⟨rfl, rfl⟩
      | error cause =>
        obtain ⟨_, rfl⟩ := Cursor.read_error hr
        exact ⟨rfl, rfl⟩

theorem run_eq {c : Cursor} (h : Alike c.image image' c.framing framing') (ops : List Stream.Op) :
    ((Stream.disc c).run ops).1 = ((Stream.disc (c.onto image' framing')).run ops).1 := by
  refine (Stream.runWith_eq (fun _ s t => ∃ c', s = .disc c' ∧ t = .disc (c'.onto image' framing') ∧
    Alike c'.image image' c'.framing framing') ?_ ⟨c, rfl, rfl, h⟩).1
  rintro op ops s t ⟨c', rfl, rfl, h'⟩
  obtain ⟨next, hs, ht, hi, hf⟩ := h'.perform_eq op
  rw [hs, ht]
  exact ⟨rfl, next, rfl, rfl, hi ▸ hf ▸ h'⟩

theorem walk_eq (h : Alike image image' framing framing') (levels : Nat) (folder : String)
    (extent : Extent) :
    walk image framing levels folder extent = walk image' framing' levels folder extent := by
  induction levels generalizing folder extent with
  | zero => rfl
  | succ levels ih => simp only [walk, h.readExtent_eq, ih]

theorem rootFrom_rel (h : Alike image image' framing framing') (path path' : String)
    (left sector : Nat) :
    Except.Rel (Fault.AlikeOn path path') Eq (rootFrom image path framing left sector)
      (rootFrom image' path' framing' left sector) := by
  induction left generalizing sector with
  | zero => exact .error .noPrimary
  | succ left ih =>
    rw [rootFrom, rootFrom, h.readExtent_eq]
    split
    · exact .error (.same _)
    · split
      · exact .error (.noDescriptor sector)
      · split
        · split
          · exact .ok rfl
          · exact .error (.same _)
        · split
          · exact .error .noPrimary
          · exact ih (sector + 1)

theorem ofNode_rel (h : Alike image image' framing framing')
    (hf : Framing.ofNode image = .ok framing) (hf' : Framing.ofNode image' = .ok framing')
    (path path' : String) :
    Except.Rel (Fault.AlikeOn path path')
      (fun opened opened' => ∃ sightings,
        opened = ⟨path, framing, sightings⟩ ∧ opened' = ⟨path', framing', sightings⟩)
      (Image.ofNode path image) (Image.ofNode path' image') := by
  rw [Image.ofNode, Image.ofNode, hf, hf']
  refine (h.rootFrom_rel path path' mostDescriptors firstDescriptor).bind ?_
  rintro root _ rfl
  refine (Except.Rel.of_eq (h.walk_eq (mostLevels + 1) "" root.extent) .same).bind ?_
  rintro sightings _ rfl
  exact .ok ⟨sightings, rfl, rfl⟩

end Alike

end Disc

/-- Two images that cannot be told apart but by their paths. -/
structure Backend.AlikeOn (host : Host) (path path' : String) (b b' : Backend) : Prop where
  isFile : ∀ file, b.isFile host file = b'.isFile host file
  enumerate : ∀ folder filter, Except.Rel (Fault.AlikeOn path path') Eq
    (b.enumerate host folder filter) (b'.enumerate host folder filter)
  openFile : ∀ file, Except.Rel (Fault.AlikeOn path path')
    (fun s s' => ∀ ops, (s.run ops).1 = (s'.run ops).1)
    (b.openFile host file) (b'.openFile host file)
  readBytes : ∀ file, Except.Rel (Fault.AlikeOn path path') Eq
    (b.readBytes host file) (b'.readBytes host file)

namespace Disc

section
variable {host : Host} {path path' : String} {image image' : Node} {framing framing' : Framing}
  {sightings : List Sighting}

theorem Alike.alikeOn (h : Alike image image' framing framing') (hi : host.find path = .ok image)
    (hi' : host.find path' = .ok image') :
    Backend.AlikeOn host path path' (.disc ⟨path, framing, sightings⟩)
      (.disc ⟨path', framing', sightings⟩) := by
  have hfile : ∀ key, Image.fileAt? ⟨path', framing', sightings⟩ key =
      Image.fileAt? ⟨path, framing, sightings⟩ key := fun _ => rfl
  have hnames : ∀ key, Image.namesAt? ⟨path', framing', sightings⟩ key =
      Image.namesAt? ⟨path, framing, sightings⟩ key := fun _ => rfl
  refine ⟨fun file => rfl, fun folder filter => ?_, fun file => ?_, fun file => ?_⟩
  · unfold Backend.enumerate
    rw [hnames]
    cases Image.namesAt? ⟨path, framing, sightings⟩ (Image.key folder) with
    | none => exact .error (.fileNotFound folder)
    | some names => exact .ok rfl
  · rw [openFile_disc hi, openFile_disc hi', hfile]
    cases Image.fileAt? ⟨path, framing, sightings⟩ (Image.key file) with
    | none => exact .error (.fileNotFound file)
    | some extent => exact .ok (h.run_eq (c := ⟨image, framing, extent, 0⟩))
  · rw [readBytes_disc hi, readBytes_disc hi', hfile]
    cases Image.fileAt? ⟨path, framing, sightings⟩ (Image.key file) with
    | none => exact .error (.fileNotFound file)
    | some extent =>
      exact .of_eq (congrArg (Except.mapError Fault.host) (h.readExtent_eq extent)) .same

end

theorem alike_of_frames {mode : Mode} (frames : List (Frame mode)) :
    Alike (.file (cookedFile (frames.map Frame.data))) (.file (rawFile frames)) .cooked
      (.raw mode.dataOffset) := by
  refine ⟨rfl, fun sector i hi => ?_⟩
  refine (cookedFile_byte _ _ hi).trans (Eq.trans ?_ (rawFile_byte _ _ hi).symm)
  rw [List.getElem?_map]
  cases frames[sector]? with
  | none => rfl
  | some frame => rfl

/-- It makes no difference whether the sectors of an image stand bare in its file or framed, be it
well formed or not: both are refused alike, or both are opened and answer alike from then on. -/
theorem cooked_raw_alike {host : Host} {path path' : String} {mode : Mode}
    {frames : List (Frame mode)} (hmark : ∀ frame ∈ frames.head?, frame.Marked)
    (hplain : ¬LooksRaw (cookedFile (frames.map Frame.data)))
    (hcooked : host.find path = .ok (.file (cookedFile (frames.map Frame.data))))
    (hraw : host.find path' = .ok (.file (rawFile frames))) :
    Except.Rel (Fault.AlikeOn path path') (Backend.AlikeOn host path path')
      (Backend.ofImage host path) (Backend.ofImage host path') := by
  have hf := FramedAs.ofNode (.cooked hplain)
  rw [Backend.ofImage, Backend.ofImage, Image.mount, Image.mount, hcooked, hraw]
  cases frames with
  | nil =>
    have h : Alike (.file []) (.file []) .cooked .cooked := ⟨rfl, fun _ _ _ => rfl⟩
    refine (h.ofNode_rel hf hf path path').map ?_
    rintro _ _ ⟨sightings, rfl, rfl⟩
    exact h.alikeOn hcooked hraw
  | cons frame frames =>
    have h := alike_of_frames (frame :: frames)
    have hf' : FramedAs (rawFile (frame :: frames)) (.raw mode.dataOffset) :=
      framedAs_rawFile (hmark frame rfl)
    refine (h.ofNode_rel hf hf'.ofNode path path').map ?_
    rintro _ _ ⟨sightings, rfl, rfl⟩
    exact h.alikeOn hcooked hraw

namespace Stray

/-- A sector with a header as a raw image has it, and something where its check bytes stand. -/
def frame (data : Sector) : Frame .two where
  header := syncMark ++ [0, 2, 16, 2, 0, 0, 8, 0, 0, 0, 8, 0]
  data := data
  trailer := List.replicate 280 5
  headerLength := rfl
  trailerLength := by
    rw [List.length_replicate]
    rfl

def frames : List (Frame .two) := sectors.map frame

theorem frames_data : frames.map Frame.data = sectors := by
  rw [frames, List.map_map]
  exact List.map_id sectors

/-- The same image twice, bare and framed. -/
def pair : Host :=
  ⟨[(["stray.iso"], .file (cookedFile sectors)), (["stray.bin"], .file (rawFile frames))], []⟩

/-- All that is known of the bare image. -/
def image : Image := ⟨"stray.iso", .cooked, [⟨"", text.record⟩]⟩

theorem opened : Backend.ofImage pair "stray.iso" = .ok (.disc image) := by
  have hfind : pair.find "stray.iso" = .ok (.file (cookedFile sectors)) := rfl
  have hwalked : Walked (.file (cookedFile sectors)) .cooked 32 "" (named [text.record])
      [⟨"", text.record⟩] := by
    rw [named_root]
    exact .file rfl .done
  rw [Backend.ofImage,
    (mount_eq_ok_iff hfind framed).mpr ⟨_, rootAt, _, _, lists, hwalked, rfl⟩]
  rfl

/-- The stream of the file that breaks off. -/
def cursor (position : Nat) : Cursor :=
  ⟨.file (cookedFile sectors), .cooked, ⟨18, 4096⟩, position⟩

theorem stands : Stands (.file (cookedFile sectors)) .cooked 18 0
    ([7] ++ ([8, 9] ++ List.replicate 2045 0)) :=
  (@holds_sector sectors 18 _ rfl).stands

theorem meets_second : (cursor 1).Meets [8, 9] :=
  (stands_append_iff.mp (stands_append_iff.mp stands).2).1

theorem meets_start : (cursor 0).Meets [7, 8, 9] := by
  have hfirst := (stands_append_iff.mp stands).1
  exact stands_append_iff.mpr ⟨hfirst, meets_second⟩

theorem read_start : (cursor 0).read 3 = (.ok [7, 8, 9], cursor 3) :=
  Cursor.read_eq_ok_iff.mpr ⟨rfl, meets_start, rfl⟩

theorem read_second : (cursor 1).read 2 = (.ok [8, 9], cursor 3) :=
  Cursor.read_eq_ok_iff.mpr ⟨rfl, meets_second, rfl⟩

theorem read_behind : (cursor 2048).read 1 = (.error .endOfData, cursor 2048) := by
  cases h : (cursor 2048).read 1 with
  | mk answer next =>
    cases answer with
    | error cause =>
      obtain ⟨rfl, rfl⟩ := Cursor.read_error h
      rfl
    | ok part =>
      obtain ⟨hl, hmeets, _⟩ := Cursor.read_eq_ok_iff.mp h
      have hone : part.length = 1 := hl
      have hnone : (cookedFile sectors)[19 * sectorSize + 0]? = none :=
        cookedFile_byte sectors 19 (by decide)
      have hpart := (hmeets 0 (by omega)).symm.trans hnone
      rw [List.getElem?_eq_none_iff] at hpart
      omega

theorem isFile_cut : Backend.isFile pair (.disc image) "cut.txt" = true := by
  decide +kernel

theorem enumerate_root : Backend.enumerate pair (.disc image) "" "*" = .ok ["CUT.TXT"] := by
  decide +kernel

theorem openFile_cut :
    Backend.openFile pair (.disc image) "cut.txt" = .ok (.disc (cursor 0)) := by
  have hfind : pair.find "stray.iso" = .ok (.file (cookedFile sectors)) := rfl
  have hextent : Image.fileAt? ⟨"stray.iso", .cooked, [⟨"", text.record⟩]⟩
      (Image.key "cut.txt") = some ⟨18, 4096⟩ := by decide +kernel
  rw [image, openFile_disc hfind, hextent]
  rfl

def operations : List Stream.Op :=
  [.read 3, .seek (.start 2048), .read 1, .seek (.fromHere (-2047)), .read 2]

/-- The file breaks off where the image ends, and the failed read leaves the position as it was. -/
theorem answers : ((Stream.disc (cursor 0)).run operations).1 =
    [.got (.ok [7, 8, 9]), .moved (.ok 2048), .got (.error .endOfData), .moved (.ok 1),
      .got (.ok [8, 9])] := by
  have hstart : (Stream.disc (cursor 0)).perform (.read 3) =
      (.got (.ok [7, 8, 9]), .disc (cursor 3)) := Cursor.perform_read read_start
  have hover : (Stream.disc (cursor 3)).perform (.seek (.start 2048)) =
      (.moved (.ok 2048), .disc (cursor 2048)) := rfl
  have hbehind : (Stream.disc (cursor 2048)).perform (.read 1) =
      (.got (.error .endOfData), .disc (cursor 2048)) := Cursor.perform_read read_behind
  have hback : (Stream.disc (cursor 2048)).perform (.seek (.fromHere (-2047))) =
      (.moved (.ok 1), .disc (cursor 1)) := rfl
  have hsecond : (Stream.disc (cursor 1)).perform (.read 2) =
      (.got (.ok [8, 9]), .disc (cursor 3)) := Cursor.perform_read read_second
  simp only [Stream.run, operations, Stream.runWith, hstart, hover, hbehind, hback, hsecond]

end Stray

theorem cooked_raw_alike_stray :
    (∀ frame ∈ Stray.frames.head?, frame.Marked) ∧
      ¬LooksRaw (cookedFile (Stray.frames.map Frame.data)) ∧
      Stray.pair.find "stray.iso" = .ok (.file (cookedFile (Stray.frames.map Frame.data))) ∧
      Stray.pair.find "stray.bin" = .ok (.file (rawFile Stray.frames)) ∧
      ∃ b b', Backend.ofImage Stray.pair "stray.iso" = .ok b ∧
        Backend.ofImage Stray.pair "stray.bin" = .ok b' ∧
        Backend.AlikeOn Stray.pair "stray.iso" "stray.bin" b b' ∧
        b'.isFile Stray.pair "cut.txt" = true ∧
        b'.enumerate Stray.pair "" "*" = .ok ["CUT.TXT"] ∧
        ∃ s, b'.openFile Stray.pair "cut.txt" = .ok s ∧
          (s.run Stray.operations).1 =
            [.got (.ok [7, 8, 9]), .moved (.ok 2048), .got (.error .endOfData), .moved (.ok 1),
              .got (.ok [8, 9])] := by
  have hmark : ∀ frame ∈ Stray.frames.head?, frame.Marked := by
    intro frame hf
    cases hf
    exact ⟨rfl, rfl⟩
  have hplain : ¬LooksRaw (cookedFile (Stray.frames.map Frame.data)) := by
    rw [Stray.frames_data]
    exact not_looksRaw fun h => by cases h
  have hcooked : Stray.pair.find "stray.iso" =
      .ok (.file (cookedFile (Stray.frames.map Frame.data))) := by
    rw [Stray.frames_data]
    rfl
  have hraw : Stray.pair.find "stray.bin" = .ok (.file (rawFile Stray.frames)) := rfl
  have hrel := cooked_raw_alike hmark hplain hcooked hraw
  rw [Stray.opened] at hrel
  generalize hopened : Backend.ofImage Stray.pair "stray.bin" = answer at hrel
  cases hrel with
  | @ok _ b' alike =>
    refine ⟨hmark, hplain, hcooked, hraw, _, b', Stray.opened, rfl, alike, ?_, ?_, ?_⟩
    · rw [← alike.isFile, Stray.isFile_cut]
    · have hsame := alike.enumerate "" "*"
      rw [Stray.enumerate_root] at hsame
      generalize b'.enumerate Stray.pair "" "*" = listed at hsame
      cases hsame with
      | ok same => rw [← same]
    · have hsame := alike.openFile "cut.txt"
      rw [Stray.openFile_cut] at hsame
      generalize b'.openFile Stray.pair "cut.txt" = stream at hsame
      cases hsame with
      | @ok _ s same =>
        refine ⟨s, rfl, ?_⟩
        rw [← same, Stray.answers]

end Disc
end LayeredAssets
