import LayeredAssets.Proofs.Disc.Descent
import LayeredAssets.Proofs.Disc.RoundTrip

namespace LayeredAssets.Disc

/-- The root is found, every folder below it lists records to its end, and none lies deeper than
32 levels. -/
def Indexable (Padding : Bytes → Prop) (image : Node) (framing : Framing) : Prop :=
  ∃ root, RootAt image framing root ∧
    ∀ depth folder extent, Below Padding image framing "" root.extent depth folder extent →
      (∃ records, Lists Padding image framing extent records) ∧ depth ≤ 32

/-- What is kept of an image when it is opened. -/
structure IndexOf (node : Node) (framing : Framing) (root : Record) (image : Image) : Prop where
  order : ∃ records, Lists StartsZero node framing root.extent records ∧
    Walked node framing 32 "" (named records) image.sightings
  met : ∀ s, s ∈ image.sightings ↔ MetBelow node framing "" root.extent s
  files : ∀ key extent, image.fileAt? key = some extent ↔
    ∃ before s after, image.sightings = before ++ s :: after ∧ s.record.isFolder = false ∧
      s.path = key ∧ s.record.extent = extent ∧
        ∀ t ∈ after, t.record.isFolder = false → t.path ≠ key
  known : ∀ key, (∃ extent, image.fileAt? key = some extent) ↔
    ∃ s, MetBelow node framing "" root.extent s ∧ s.record.isFolder = false ∧ s.path = key
  folders : ∀ key names, image.namesAt? key = some names ↔
    (∃ depth extent, Below StartsZero node framing "" root.extent depth key extent) ∧
      names = (image.sightings.filter fun s => s.folder == key).map fun s => s.record.name

section
variable {host : Host} {path key : String} {file : Bytes} {node : Node} {framing : Framing}
  {image : Image} {root : Record} {extent : Extent}

/-- The last file that was met under a path. -/
theorem fileAt?_eq_some_iff : image.fileAt? key = some extent ↔
    ∃ before s after, image.sightings = before ++ s :: after ∧ s.record.isFolder = false ∧
      s.path = key ∧ s.record.extent = extent ∧
        ∀ t ∈ after, t.record.isFolder = false → t.path ≠ key := by
  rw [Image.fileAt?, Option.map_eq_some_iff]
  constructor
  · rintro ⟨s, hs, rfl⟩
    obtain ⟨hfound, after, before, hsplit, hafter⟩ := List.find?_eq_some_iff_append.mp hs
    rw [Bool.and_eq_true, Bool.not_eq_true', beq_iff_eq] at hfound
    refine ⟨before.reverse, s, after.reverse, ?_, hfound.1, hfound.2, rfl, fun t ht hfile hkey => ?_⟩
    · rw [← List.reverse_reverse image.sightings, hsplit]
      simp
    · have := hafter t (List.mem_reverse.mp ht)
      simp [hfile, hkey] at this
  · rintro ⟨before, s, after, hsplit, hfile, hkey, rfl, hafter⟩
    refine ⟨s, List.find?_eq_some_iff_append.mpr ⟨by simp [hfile, hkey], after.reverse,
      before.reverse, by simp [hsplit], fun t ht => ?_⟩, rfl⟩
    have := hafter t (List.mem_reverse.mp ht)
    cases hf : t.record.isFolder with
    | true => rfl
    | false => simp [this hf]

theorem exists_fileAt?_iff : (∃ extent, image.fileAt? key = some extent) ↔
    ∃ s ∈ image.sightings, s.record.isFolder = false ∧ s.path = key := by
  rw [Image.fileAt?, ← Option.isSome_iff_exists, Option.isSome_map, List.find?_isSome]
  simp only [List.mem_reverse, Bool.and_eq_true, Bool.not_eq_true', beq_iff_eq]

theorem isFolderAt_iff (hmet : ∀ s, s ∈ image.sightings ↔ MetBelow node framing "" root.extent s) :
    image.isFolderAt key = true ↔
      ∃ depth extent, Below StartsZero node framing "" root.extent depth key extent := by
  rw [Image.isFolderAt, Bool.or_eq_true, beq_iff_eq, List.any_eq_true]
  constructor
  · rintro (rfl | ⟨s, hs, hkey⟩)
    · exact ⟨0, _, .here⟩
    · rw [Bool.and_eq_true, beq_iff_eq] at hkey
      obtain ⟨depth, hb⟩ := ((hmet s).mp hs).below hkey.1
      exact ⟨depth, _, hkey.2 ▸ hb⟩
  · rintro ⟨depth, extent, hb⟩
    cases depth with
    | zero =>
      cases hb
      exact Or.inl rfl
    | succ depth =>
      obtain ⟨s, hs, hf, hpath⟩ := hb.last
      exact Or.inr ⟨s, (hmet s).mpr hs, by rw [hf, hpath, beq_self_eq_true, Bool.and_self]⟩

theorem indexOf_walked {records : List Record} {found : List Sighting}
    (hl : Lists StartsZero node framing root.extent records)
    (hw : Walked node framing 32 "" (named records) found) :
    IndexOf node framing root ⟨path, framing, found⟩ := by
  have hmet : ∀ s, s ∈ found ↔ MetBelow node framing "" root.extent s :=
    fun s => hw.mem_iff.trans (metBelow_iff hl).symm
  have hfolder : ∀ key, Image.isFolderAt ⟨path, framing, found⟩ key = true ↔
      ∃ depth extent, Below StartsZero node framing "" root.extent depth key extent :=
    fun key => isFolderAt_iff hmet
  refine ⟨⟨records, hl, hw⟩, hmet, fun key extent => fileAt?_eq_some_iff, fun key => ?_,
    fun key names => ?_⟩
  · rw [exists_fileAt?_iff]
    simp only [hmet]
  · rw [← hfolder key, Image.namesAt?]
    split
    · next hkey =>
      rw [Option.some.injEq, eq_comm]
      exact ⟨fun h => ⟨hkey, h⟩, And.right⟩
    · next hkey => exact iff_of_false nofun fun h => hkey h.1

theorem mount_eq_ok_iff (hfind : host.find path = .ok node)
    (hframed : Framing.ofNode node = .ok framing) : Image.mount host path = .ok image ↔
      ∃ root, RootAt node framing root ∧ ∃ records found,
        Lists StartsZero node framing root.extent records ∧
          Walked node framing 32 "" (named records) found ∧ image = ⟨path, framing, found⟩ := by
  have hwalk : ∀ {root : Record} {found : List Sighting},
      walk node framing (mostLevels + 1) "" root.extent = .ok found ↔ ∃ records,
        Lists StartsZero node framing root.extent records ∧
          Walked node framing 32 "" (named records) found := walk_eq_ok_iff
  rw [Image.mount, hfind]
  dsimp only
  rw [Image.ofNode, hframed]
  constructor
  · intro h
    obtain ⟨_, ⟨⟩, h⟩ := Except.bind_eq_ok_iff.mp h
    obtain ⟨root, hroot, h⟩ := Except.bind_eq_ok_iff.mp h
    obtain ⟨found, hfound, h⟩ := Except.bind_eq_ok_iff.mp h
    obtain ⟨records, hl, hw⟩ := hwalk.mp hfound
    exact ⟨root, rootRecord_eq_ok_iff.mp hroot, records, found, hl, hw, (Except.ok.inj h).symm⟩
  · rintro ⟨root, hroot, records, found, hl, hw, rfl⟩
    refine Except.bind_eq_ok_iff.mpr ⟨framing, rfl, ?_⟩
    refine Except.bind_eq_ok_iff.mpr ⟨root, rootRecord_eq_ok_iff.mpr hroot, ?_⟩
    exact Except.bind_eq_ok_iff.mpr ⟨found, hwalk.mpr ⟨records, hl, hw⟩, rfl⟩

theorem exists_mount_iff (hfind : host.find path = .ok node)
    (hframed : Framing.ofNode node = .ok framing) :
    (∃ image, Image.mount host path = .ok image) ↔ Indexable StartsZero node framing := by
  simp only [mount_eq_ok_iff hfind hframed]
  constructor
  · rintro ⟨_, root, hroot, records, found, hl, hw, rfl⟩
    exact ⟨root, hroot, exists_walked_iff.mp ⟨records, found, hl, hw⟩⟩
  · rintro ⟨root, hroot, hbelow⟩
    obtain ⟨records, found, hl, hw⟩ := exists_walked_iff.mpr hbelow
    exact ⟨_, root, hroot, records, found, hl, hw, rfl⟩

/-- An image is opened if and only if it can be indexed to its end, and is refused otherwise, be it
for folders that lie in one another. What is known of it then is what its records say. -/
theorem opened_iff_indexable (hfind : host.find path = .ok (.file file))
    (hframed : Framing.ofNode (.file file) = .ok framing) :
    ((∃ image, Image.mount host path = .ok image) ↔ Indexable StartsZero (.file file) framing) ∧
    ((∃ fault, Image.mount host path = .error fault) ↔
      ¬ Indexable StartsZero (.file file) framing) ∧
    (∀ root depth folder extent, RootAt (.file file) framing root →
      Below StartsZero (.file file) framing "" root.extent depth folder extent →
      Relation.TransGen (Nested (.file file) framing) extent extent →
        ∃ fault, Image.mount host path = .error fault) ∧
    ∀ image, Image.mount host path = .ok image →
      ∃ root, RootAt (.file file) framing root ∧ IndexOf (.file file) framing root image := by
  have hopened := exists_mount_iff hfind hframed
  have hrefused := Except.exists_error_iff.trans (not_congr hopened)
  refine ⟨hopened, hrefused, ?_, ?_⟩
  · intro root depth folder extent hroot hb hcycle
    refine hrefused.mpr ?_
    rintro ⟨root', hroot', hall⟩
    obtain rfl := hroot.unique hroot'
    obtain ⟨more, folder', hle, hb'⟩ := exists_below_of_cycle hcycle folder 33
    have := (hall _ _ _ (hb.trans hb')).2
    omega
  · intro image himage
    obtain ⟨root, hroot, records, found, hl, hw, rfl⟩ := (mount_eq_ok_iff hfind hframed).mp himage
    exact ⟨root, hroot, indexOf_walked hl hw⟩

end

namespace Stray

/-- A file that the image ends within. -/
def text : Recorded :=
  .plain (Text.ascii "CUT.TXT;1".toList) ⟨18, 4096⟩ 0 (by decide) (by decide) (by decide)
    (by decide)

theorem length_records_le : (text.bytes ++ [0, 1]).length ≤ sectorSize := by
  have := text.length_lt_256
  simp only [List.length_append, Recorded.length_bytes, sectorSize, List.length_cons,
    List.length_nil]
  omega

/-- After the zero that starts the padding, something else stands in the sector. -/
def listing : Sector := .filled (text.bytes ++ [0, 1]) length_records_le

def sectors : List Sector :=
  List.replicate 16 (.filled [] (Nat.zero_le _)) ++
    [.filled Sample.descriptor Sample.length_descriptor_le, listing,
      .filled [7, 8, 9] (Nat.le_of_ble_eq_true rfl)]

def host : Host := ⟨[(["stray.iso"], .file (cookedFile sectors))], []⟩

theorem framed : Framing.ofNode (.file (cookedFile sectors)) = .ok .cooked :=
  (FramedAs.cooked (not_looksRaw fun h => by cases h)).ofNode

theorem rootAt : RootAt (.file (cookedFile sectors)) .cooked Sample.root.record :=
  (Sample.described_in rfl).rootAt

theorem holds : Holds (.file (cookedFile sectors)) .cooked Sample.root.extent listing.bytes :=
  holds_sector (n := 17) rfl

/-- What stands behind the record, up to the end of the sector. -/
def behind : Bytes := 0 :: 1 :: List.replicate (sectorSize - (text.bytes ++ [0, 1]).length) 0

theorem listing_bytes : listing.bytes = text.bytes ++ behind :=
  List.append_assoc text.bytes [0, 1] _

theorem length_behind : text.bytes.length + behind.length = sectorSize := by
  rw [← listing.whole, listing_bytes, List.length_append]

theorem length_text : text.bytes.length = (text.bytes.getD 0 0).toNat := by
  rw [text.length_bytes]
  exact text.toNat_first.symm

theorem lists :
    Lists StartsZero (.file (cookedFile sectors)) .cooked Sample.root.extent [text.record] := by
  refine ⟨_, holds, ?_⟩
  rw [listing_bytes, text.recordOf_bytes.2]
  refine .record text.recordOf_bytes.1 length_text ?_
  rw [← List.append_nil behind]
  refine .padding rfl ?_ .done
  have := text.length_lt_256
  have := length_behind
  rw [Recorded.length_bytes] at *
  rw [List.append_nil, Nat.zero_add]
  unfold sectorSize at *
  omega

theorem named_root : named [text.record] = [text.record] := by
  decide +kernel

theorem text_name : text.record.name = "CUT.TXT" := by decide +kernel

theorem indexable : Indexable StartsZero (.file (cookedFile sectors)) .cooked := by
  refine ⟨_, rootAt, fun depth folder extent hb => ?_⟩
  cases hb with
  | here => exact ⟨⟨_, lists⟩, Nat.zero_le _⟩
  | within hl hm hf _ =>
    obtain rfl := lists.unique hl
    rw [named_root] at hm
    obtain rfl := List.mem_singleton.mp hm
    cases hf

/-- The file is all that is known of the image. -/
theorem sightings_eq {image : Image}
    (h : IndexOf (.file (cookedFile sectors)) .cooked Sample.root.record image) :
    image.sightings = [⟨"", text.record⟩] := by
  obtain ⟨records, hl, hw⟩ := h.order
  obtain rfl := hl.unique lists
  rw [named_root] at hw
  generalize image.sightings = found at hw
  cases hw with
  | file _ hdone =>
    cases hdone
    rfl
  | folder hf => cases hf

end Stray

theorem opened_iff_indexable_stray :
    Stray.host.find "stray.iso" = .ok (.file (cookedFile Stray.sectors)) ∧
      Framing.ofNode (.file (cookedFile Stray.sectors)) = .ok .cooked ∧
      ∃ image, Image.mount Stray.host "stray.iso" = .ok image ∧
        image.namesAt? "" = some ["CUT.TXT"] ∧ image.fileAt? "CUT.TXT" = some ⟨18, 4096⟩ := by
  have hfind : Stray.host.find "stray.iso" = .ok (.file (cookedFile Stray.sectors)) := rfl
  obtain ⟨hopened, _, _, hindex⟩ := opened_iff_indexable hfind Stray.framed
  obtain ⟨image, himage⟩ := hopened.mpr Stray.indexable
  obtain ⟨root, hroot, hof⟩ := hindex image himage
  obtain rfl := hroot.unique Stray.rootAt
  have hfound := Stray.sightings_eq hof
  refine ⟨hfind, Stray.framed, image, himage, ?_, ?_⟩
  · refine (hof.folders "" _).mpr ⟨⟨0, _, .here⟩, ?_⟩
    rw [hfound, ← Stray.text_name]
    rfl
  · refine (hof.files _ _).mpr ⟨[], _, [], hfound, rfl, ?_, rfl, by simp⟩
    decide +kernel

/-- Nothing but zeros. -/
def AllZero (gap : Bytes) : Prop := ∀ b ∈ gap, b = 0

/-- Neither a record nor padding starts with a zero that something else follows. -/
theorem not_recordsIn_allZero {before : Nat} {rest : Bytes} {records : List Record}
    (hb : before % sectorSize + 2 ≤ sectorSize) :
    ¬ RecordsIn AllZero before (0 :: 1 :: rest) records := by
  intro h
  generalize hbytes : (0 :: 1 :: rest : Bytes) = bytes at h
  cases h with
  | done => cases hbytes
  | @padding _ gap behind _ hp hl _ =>
    rw [← hbytes] at hl
    rcases gap with _ | ⟨first, _ | ⟨second, gap⟩⟩
    · simp only [List.length_nil, List.length_cons] at hl
      omega
    · simp only [List.length_nil, List.length_cons] at hl
      omega
    · have hone := hp second (by simp)
      have hsecond := (List.cons.inj (List.cons.inj hbytes).2).1
      rw [hone] at hsecond
      exact absurd hsecond (by decide)
  | @record _ part behind _ hw hl _ =>
    have hleast := hw.least
    cases part with
    | nil => exact absurd hleast (by decide)
    | cons first part =>
      obtain rfl := (List.cons.inj hbytes).1
      have hzero : 34 ≤ (0 : UInt8).toNat := hleast
      exact absurd hzero (by decide)

/-- Where padding does not start as a record does, the record is listed and then what follows. -/
theorem recordsIn_behind {Padding : Bytes → Prop} {before : Nat} {part rest : Bytes}
    {records : List Record} (hp : ∀ gap, Padding gap → gap.head? ≠ part.head?)
    (hw : WellFormed part) (hl : part.length = (part.getD 0 0).toNat)
    (h : RecordsIn Padding before (part ++ rest) records) :
    ∃ later, RecordsIn Padding (before + part.length) rest later := by
  obtain ⟨first, tail, rfl⟩ : ∃ first tail, part = first :: tail := by
    refine List.exists_cons_of_ne_nil ?_
    rintro rfl
    exact absurd hw.least (by decide)
  generalize hbytes : first :: tail ++ rest = bytes at h
  cases h with
  | done => cases hbytes
  | @padding _ gap behind _ hgap hlength _ =>
    cases gap with
    | nil =>
      have : before % sectorSize < sectorSize := Nat.mod_lt _ (by decide)
      rw [← hbytes] at hlength
      simp only [List.length_nil, List.length_append, List.length_cons] at hlength
      omega
    | cons zero gap =>
      obtain rfl := (List.cons.inj hbytes).1
      exact (hp (first :: gap) hgap rfl).elim
  | @record _ part' behind later hw' hl' hlater =>
    have hsame : part'.length = (first :: tail).length := by
      rw [hl', hl]
      cases part' with
      | nil => exact absurd hw'.least (by decide)
      | cons first' tail' =>
        obtain rfl := (List.cons.inj hbytes).1
        rfl
    obtain ⟨rfl, rfl⟩ := List.append_inj hbytes hsame.symm
    exact ⟨later, hlater⟩

/-- Padding is passed over without a look, so it need not be zeros. -/
theorem stray_padding_opens :
    ¬ ∀ (host : Host) (path : String) (file : Bytes) (framing : Framing),
      host.find path = .ok (.file file) → Framing.ofNode (.file file) = .ok framing →
        ((∃ image, Image.mount host path = .ok image) ↔
          Indexable AllZero (.file file) framing) := by
  intro hall
  have hfind : Stray.host.find "stray.iso" = .ok (.file (cookedFile Stray.sectors)) := rfl
  have hopened := (exists_mount_iff hfind Stray.framed).mpr Stray.indexable
  obtain ⟨root, hroot, hbelow⟩ := (hall _ _ _ _ hfind Stray.framed).mp hopened
  obtain rfl := hroot.unique Stray.rootAt
  obtain ⟨⟨records, bytes, hholds, hrecords⟩, _⟩ := hbelow 0 "" _ .here
  obtain rfl : bytes = Stray.listing.bytes := Except.ok.inj
    ((readExtent_eq_ok_iff.mpr hholds).symm.trans (readExtent_eq_ok_iff.mpr Stray.holds))
  rw [Stray.listing_bytes] at hrecords
  have hzero : ∀ gap, AllZero gap → gap.head? ≠ Stray.text.bytes.head? := by
    intro gap hgap hhead
    have hm := List.mem_of_mem_head? (hhead.trans rfl)
    exact absurd (hgap _ hm) (by decide)
  obtain ⟨later, hlater⟩ :=
    recordsIn_behind hzero Stray.text.recordOf_bytes.1 Stray.length_text hrecords
  exact not_recordsIn_allZero (by decide) hlater

end LayeredAssets.Disc
