import LayeredAssets.Proofs.Disc.Layouts
import LayeredAssets.Proofs.Disc.Reading
import LayeredAssets.Proofs.Disc.Volume

namespace LayeredAssets.Disc

/-- The word CD001 tells a volume descriptor. -/
def IsDescriptor (bytes : Bytes) : Prop := (bytes.drop 1).take 5 = [67, 68, 48, 48, 49]

theorem isDescriptor_iff (bytes : Bytes) :
    IsDescriptor bytes ↔ (bytes.drop 1).take 5 = Bytes.ofText "CD001" := by
  have hword : Bytes.ofText "CD001" = [67, 68, 48, 48, 49] := by
    rw [Bytes.ofText_eq_data]
    decide
  rw [hword, IsDescriptor]

/-- A descriptor that is neither the primary one nor the last. -/
def PassedAt (image : Node) (framing : Framing) (sector : Nat) : Prop :=
  ∃ bytes, Holds image framing ⟨sector, 2048⟩ bytes ∧ IsDescriptor bytes ∧
    bytes.head? ≠ some 1 ∧ bytes.head? ≠ some 255

/-- The primary descriptor, with the record of the root in it. -/
def PrimaryAt (image : Node) (framing : Framing) (root : Record) (sector : Nat) : Prop :=
  ∃ bytes, Holds image framing ⟨sector, 2048⟩ bytes ∧ IsDescriptor bytes ∧
    bytes.head? = some 1 ∧ WellFormed (bytes.drop 156) ∧ root = recordOf (bytes.drop 156)

/-- The primary descriptor is one of the first 32 sectors after the system area, with nothing before
it there but descriptors that are passed over. -/
def RootAt (image : Node) (framing : Framing) (root : Record) : Prop :=
  ∃ primary, 16 ≤ primary ∧ primary < 48 ∧
    (∀ sector, 16 ≤ sector → sector < primary → PassedAt image framing sector) ∧
    PrimaryAt image framing root primary

/-- The first sectors after the system area describe the volume. The primary descriptor is the one
with the record of the root; others may stand before it, but not the one that ends them. -/
def Described (image : Node) (framing : Framing) (root : Recorded) : Prop :=
  ∃ primary, 16 ≤ primary ∧ primary ≤ 47 ∧
    (∀ sector, 16 ≤ sector → sector < primary → ∃ bytes,
      Holds image framing ⟨sector, 2048⟩ bytes ∧ IsDescriptor bytes ∧
        bytes.head? ≠ some 1 ∧ bytes.head? ≠ some 255) ∧
    ∃ bytes rest, Holds image framing ⟨primary, 2048⟩ bytes ∧ IsDescriptor bytes ∧
      bytes.head? = some 1 ∧ bytes.drop 156 = root.bytes ++ rest

/-- A file is an image of a tree. -/
structure ImageOf (file : Bytes) (framing : Framing) (entries : List (String × Tree)) : Prop where
  framed : FramedAs file framing
  root : ∃ root, Described (.file file) framing root ∧
    LaidOut (.file file) framing (.folder entries) root.extent

section
variable {image : Node} {framing : Framing} {path : String} {root : Record}

theorem rootFrom_succ_eq_ok_iff {left sector : Nat} :
    rootFrom image path framing (left + 1) sector = .ok root ↔
      PrimaryAt image framing root sector ∨
        PassedAt image framing sector ∧
          rootFrom image path framing left (sector + 1) = .ok root := by
  have hread : ∀ {bytes}, Holds image framing ⟨sector, 2048⟩ bytes ↔
      readExtent image framing ⟨sector, sectorSize⟩ = .ok bytes := readExtent_eq_ok_iff.symm
  simp only [PrimaryAt, PassedAt, isDescriptor_iff, hread]
  rw [rootFrom]
  cases readExtent image framing ⟨sector, sectorSize⟩ with
  | error cause => simp
  | ok bytes =>
    simp only [Except.ok.injEq, exists_eq_left', ← parseRecord_eq_some_iff]
    split
    · next hmark =>
      refine iff_of_false (by simp) ?_
      rintro (⟨hd, _⟩ | ⟨⟨hd, _⟩, _⟩)
      · exact hmark hd
      · exact hmark hd
    · next hmark =>
      simp only [not_not.mp hmark, true_and]
      split
      · next hprimary =>
        cases parseRecord (bytes.drop 156) with
        | none => simp [hprimary]
        | some record => simp [hprimary]
      · next hprimary =>
        split
        · next hlast => simp [hlast]
        · next hlast => simp [hprimary, hlast]

/-- The scan keeps a budget, and reaches the primary descriptor before that is used up. -/
theorem rootFrom_eq_ok_iff {left sector : Nat} :
    rootFrom image path framing left sector = .ok root ↔
      ∃ primary, sector ≤ primary ∧ primary < sector + left ∧
        (∀ other, sector ≤ other → other < primary → PassedAt image framing other) ∧
        PrimaryAt image framing root primary := by
  induction left generalizing sector with
  | zero =>
    refine iff_of_false nofun ?_
    rintro ⟨primary, hle, hlt, _⟩
    omega
  | succ left ih =>
    rw [rootFrom_succ_eq_ok_iff, ih]
    constructor
    · rintro (hprimary | ⟨hpassed, primary, hle, hlt, hothers, hprimary⟩)
      · exact ⟨sector, Nat.le_refl _, by omega, fun other hle hlt => by omega, hprimary⟩
      · refine ⟨primary, by omega, by omega, fun other hlow hhigh => ?_, hprimary⟩
        rcases Nat.eq_or_lt_of_le hlow with rfl | hlow
        · exact hpassed
        · exact hothers other hlow hhigh
    · rintro ⟨primary, hle, hlt, hothers, hprimary⟩
      rcases Nat.eq_or_lt_of_le hle with rfl | hle
      · exact Or.inl hprimary
      · exact Or.inr ⟨hothers sector (Nat.le_refl _) hle, primary, hle, by omega,
          fun other hlow hhigh => hothers other (by omega) hhigh, hprimary⟩

theorem rootRecord_eq_ok_iff :
    rootRecord image path framing = .ok root ↔ RootAt image framing root :=
  rootFrom_eq_ok_iff

theorem RootAt.unique {root' : Record} (h : RootAt image framing root)
    (h' : RootAt image framing root') : root = root' := by
  have hr : rootRecord image "" framing = .ok root := rootRecord_eq_ok_iff.mpr h
  exact Except.ok.inj (hr.symm.trans (rootRecord_eq_ok_iff.mpr h'))

theorem Described.rootAt {root : Recorded} (h : Described image framing root) :
    RootAt image framing root.record := by
  obtain ⟨primary, hlow, hhigh, hothers, bytes, rest, hb, hd, hprimary, hroot⟩ := h
  have hrecord : parseRecord (bytes.drop 156) = some root.record := by
    rw [hroot, root.parseRecord_bytes]
  obtain ⟨hw, hr⟩ := parseRecord_eq_some_iff.mp hrecord
  exact ⟨primary, hlow, Nat.lt_succ_of_le hhigh, hothers, bytes, hb, hd, hprimary, hw, hr⟩

end

section
variable {image : Node} {framing : Framing} {path : String} {found : List Sighting}
  {entries : List (String × Tree)} {node : Tree} {names : List String} {levels : Nat}

/-- What has been met below the root. -/
abbrev ShowsRoot (image : Node) (framing : Framing) (entries : List (String × Tree))
    (found : List Sighting) : Prop :=
  Shows image framing [] (fun names node => names ≠ [] ∧ (Tree.folder entries).At names node) found

/-- What is met under the path of a place is that place. -/
theorem of_path (h : ShowsRoot image framing entries found)
    (hp : (Tree.folder entries).Plain levels) {s : Sighting} (hs : s ∈ found)
    (hn : ∀ name ∈ names, PlainName name) (hpath : s.path = keyOf names) :
    ∃ names' node, (Tree.folder entries).At names' node ∧ List.Forall₂ SameName names' names ∧
      s.Of image framing names' node := by
  obtain ⟨names', node, ⟨_, hat⟩, hof⟩ := h.sound s hs
  rw [List.nil_append] at hof
  have hkey : keyOf names' = keyOf names := hof.path.symm.trans hpath
  exact ⟨names', node, hat, sameNames_of_keyOf (hat.plain hp) hn hkey, hof⟩

theorem fileAt?_eq_some {key : String} {extent : Extent}
    (h : Image.fileAt? ⟨path, framing, found⟩ key = some extent) :
    ∃ s ∈ found, s.record.isFolder = false ∧ s.path = key ∧ s.record.extent = extent := by
  obtain ⟨s, hs, he⟩ := Option.map_eq_some_iff.mp h
  have hfound := List.find?_some hs
  rw [Bool.and_eq_true, Bool.not_eq_true', beq_iff_eq] at hfound
  exact ⟨s, List.mem_reverse.mp (List.mem_of_find?_eq_some hs), hfound.1, hfound.2, he⟩

/-- Only a file is found as one. -/
theorem fileAt?_sound (h : ShowsRoot image framing entries found)
    (hp : (Tree.folder entries).Plain levels) (hn : ∀ name ∈ names, PlainName name)
    {extent : Extent} (hf : Image.fileAt? ⟨path, framing, found⟩ (keyOf names) = some extent) :
    ∃ names' bytes, (Tree.folder entries).At names' (.file bytes) ∧
      List.Forall₂ SameName names' names ∧ Holds image framing extent bytes := by
  obtain ⟨s, hs, hfile, hpath, rfl⟩ := fileAt?_eq_some hf
  obtain ⟨names', node, hat, hsame, hof⟩ := of_path h hp hs hn hpath
  have hnode := hof.isFolder.symm.trans hfile
  cases node with
  | folder entries => cases hnode
  | file bytes =>
    cases hof.laidOut with
    | file hh => exact ⟨names', bytes, hat, hsame, hh⟩

theorem fileAt?_complete (h : ShowsRoot image framing entries found)
    (hp : (Tree.folder entries).Plain levels) {bytes : Bytes}
    (hat : (Tree.folder entries).At names (.file bytes)) :
    ∃ extent, Image.fileAt? ⟨path, framing, found⟩ (keyOf names) = some extent := by
  have hne : names ≠ [] := by
    rintro rfl
    cases hat.nil
  obtain ⟨s, hs, hpath⟩ := h.complete names _ ⟨hne, hat⟩
  obtain ⟨names', node, hat', hsame, hof⟩ := of_path h hp hs (hat.plain hp) hpath
  have hnode : node = .file bytes := hat'.unique hat hp hsame
  have hfile : s.record.isFolder = false := hof.isFolder.trans (hnode ▸ rfl)
  rw [Image.fileAt?, ← Option.isSome_iff_exists, Option.isSome_map, List.find?_isSome]
  exact ⟨s, List.mem_reverse.mpr hs, by rw [hfile, hpath]; simp⟩

end

section
variable {host : Host} {path : String} {file : Bytes} {framing : Framing}
  {entries : List (String × Tree)}

theorem ofImage_of_laidOut (hfind : host.find path = .ok (.file file))
    (himage : ImageOf file framing entries) (hplain : (Tree.folder entries).Plain 33) :
    ∃ found, Backend.ofImage host path = .ok (.disc ⟨path, framing, found⟩) ∧
      ShowsRoot (.file file) framing entries found := by
  obtain ⟨root, hroot, hlaid⟩ := himage.root
  obtain ⟨found, hwalk, hshows⟩ := walk_laidOut hlaid hplain
  refine ⟨found, ?_, hshows⟩
  have hopened : Image.ofNode path (.file file) = .ok ⟨path, framing, found⟩ := by
    have hwalk' : walk (.file file) framing (mostLevels + 1) "" root.record.extent = .ok found :=
      hwalk
    simp only [Image.ofNode, himage.framed.ofNode, rootRecord_eq_ok_iff.mpr hroot.rootAt, hwalk', bind,
      Except.bind, pure, Except.pure]
  rw [Backend.ofImage, Image.mount, hfind]
  exact congrArg (Except.map Backend.disc) hopened

/-- What is laid out on an image is read back from it: under every path of the tree, however it is
written, a file is there if and only if the tree has one, with the same bytes; and no other path of
plain names leads to a file. -/
theorem laid_out_tree_reads_back (hfind : host.find path = .ok (.file file))
    (himage : ImageOf file framing entries) (hplain : (Tree.folder entries).Plain 33) :
    ∃ b, Backend.ofImage host path = .ok b ∧
      (∀ names node spelling, (Tree.folder entries).At names node → Spells spelling names →
        (b.isFile host spelling = true ↔ ∃ bytes, node = .file bytes) ∧
          ∀ bytes, node = .file bytes → b.readBytes host spelling = .ok bytes) ∧
      ∀ names spelling, (∀ name ∈ names, PlainName name) → Spells spelling names →
        b.isFile host spelling = true → ∃ names' bytes, List.Forall₂ SameName names' names ∧
          (Tree.folder entries).At names' (.file bytes) := by
  obtain ⟨found, hopened, hshows⟩ := ofImage_of_laidOut hfind himage hplain
  have hcomplete : ∀ {names bytes}, (Tree.folder entries).At names (.file bytes) →
      ∃ extent, Image.fileAt? ⟨path, framing, found⟩ (keyOf names) = some extent :=
    fun hat => fileAt?_complete hshows hplain hat
  refine ⟨_, hopened, fun names node spelling hat hs => ?_, fun names spelling hn hs hf => ?_⟩
  · have hn := hat.plain hplain
    have hkey := key_of_spells hs hn
    refine ⟨?_, ?_⟩
    · rw [Backend.isFile, hkey, Option.isSome_iff_exists]
      constructor
      · rintro ⟨extent, he⟩
        obtain ⟨names', bytes, hat', hsame, _⟩ := fileAt?_sound hshows hplain hn he
        exact ⟨bytes, (hat'.unique hat hplain hsame).symm⟩
      · rintro ⟨bytes, rfl⟩
        exact hcomplete hat
    · rintro bytes rfl
      obtain ⟨extent, he⟩ := hcomplete hat
      obtain ⟨names', bytes', hat', hsame, hh⟩ := fileAt?_sound hshows hplain hn he
      cases hat'.unique hat hplain hsame
      rw [readBytes_disc hfind, hkey, he]
      dsimp only
      rw [readExtent_eq_ok_iff.mpr hh]
      rfl
  · rw [Backend.isFile, key_of_spells hs hn, Option.isSome_iff_exists] at hf
    obtain ⟨extent, he⟩ := hf
    obtain ⟨names', bytes, hat, hsame, _⟩ := fileAt?_sound hshows hplain hn he
    exact ⟨names', bytes, hsame, hat⟩

end

/-- Zeros fill what the bytes leave of a sector. -/
def Sector.filled (bytes : Bytes) (h : bytes.length ≤ sectorSize) : Sector where
  bytes := bytes ++ List.replicate (sectorSize - bytes.length) 0
  whole := by
    rw [List.length_append, List.length_replicate]
    omega

theorem holds_filled {sectors : List Sector} {n : Nat} {bytes rest : Bytes} {sector : Sector}
    (hs : sectors[n]? = some sector) (hb : sector.bytes = bytes ++ rest) :
    Holds (.file (cookedFile sectors)) .cooked ⟨n, bytes.length⟩ bytes := by
  refine ⟨rfl, fun i hi => ?_⟩
  have hl : i < sectorSize := by
    rw [← sector.whole, hb, List.length_append]
    omega
  rw [Framing.place_cooked, Nat.zero_add]
  refine (cookedFile_byte sectors n hl).trans ?_
  rw [hs, Option.bind_some, hb, List.getElem?_append_left hi]

theorem holds_sector {sectors : List Sector} {n : Nat} {sector : Sector}
    (hs : sectors[n]? = some sector) :
    Holds (.file (cookedFile sectors)) .cooked ⟨n, sectorSize⟩ sector.bytes := by
  have hb : sector.bytes = sector.bytes ++ [] := (List.append_nil _).symm
  have hh := holds_filled hs hb
  rwa [sector.whole] at hh

/-- A record with nothing in it that nobody reads. -/
def Recorded.plain (identifier : Bytes) (extent : Extent) (flags : UInt8)
    (hs : extent.sector < 256 ^ 4) (hl : extent.length < 256 ^ 4) (hn : identifier ≠ [])
    (hf : 33 + identifier.length + 0 < 256) : Recorded where
  extent := extent
  flags := flags
  identifier := identifier
  attributes := 0
  sectorAgain := .replicate 4 0
  lengthAgain := .replicate 4 0
  time := .replicate 7 0
  volume := .replicate 6 0
  tail := []
  sector_lt := hs
  length_lt := hl
  named := hn
  fits := hf

namespace Sample

/-- A file in a folder. -/
def entries : List (String × Tree) := [("SUB", .folder [("R.TXT", .file [7, 8, 9])])]

def root : Recorded :=
  .plain [0] ⟨17, 2048⟩ 2 (by decide) (by decide) (by decide) (by decide)

def parent : Recorded :=
  .plain [1] ⟨17, 2048⟩ 2 (by decide) (by decide) (by decide) (by decide)

def sub : Recorded :=
  .plain (Text.ascii "SUB".toList) ⟨18, 2048⟩ 2 (by decide) (by decide) (by decide) (by decide)

def text : Recorded :=
  .plain (Text.ascii "R.TXT;1".toList) ⟨19, 3⟩ 0 (by decide) (by decide) (by decide) (by decide)

def listing (record : Recorded) : Bytes := root.bytes ++ (parent.bytes ++ record.bytes)

theorem length_listing_le (record : Recorded) : (listing record).length ≤ sectorSize := by
  have := root.length_lt_256
  have := parent.length_lt_256
  have := record.length_lt_256
  simp only [listing, List.length_append, Recorded.length_bytes, sectorSize]
  omega

def descriptor : Bytes := [1, 67, 68, 48, 48, 49] ++ List.replicate 150 0 ++ root.bytes

theorem length_descriptor_le : descriptor.length ≤ sectorSize := by
  have := root.length_lt_256
  simp only [descriptor, List.length_append, Recorded.length_bytes, sectorSize,
    List.length_replicate, List.length_cons, List.length_nil]
  omega

def sectors : List Sector :=
  List.replicate 16 (.filled [] (by decide)) ++
    [.filled descriptor length_descriptor_le, .filled (listing sub) (length_listing_le sub),
      .filled (listing text) (length_listing_le text), .filled [7, 8, 9] (by decide)]

theorem packed (record : Recorded) : Packed 0 [root, parent, record]
    (Sector.filled (listing record) (length_listing_le record)).bytes := by
  have hroot := root.length_lt_256
  have hparent := parent.length_lt_256
  have hrecord := record.length_lt_256
  have hbytes : (Sector.filled (listing record) (length_listing_le record)).bytes =
      root.bytes ++ (parent.bytes ++ (record.bytes ++
        List.replicate (sectorSize - (listing record).length) 0)) := by
    simp only [Sector.filled, listing, List.append_assoc]
  rw [hbytes]
  refine .record root ?_ (.record parent ?_ (.record record ?_ (.last ?_)))
  all_goals
    simp only [listing, List.length_append, Recorded.length_bytes, sectorSize]
    omega

theorem listed {record : Recorded} {n : Nat} {name : String} {child : Tree}
    (hs : sectors[n]? = some (.filled (listing record) (length_listing_le record)))
    (hn : record.Names name) (hf : record.isFolder = child.isFolder) :
    Listed (.file (cookedFile sectors)) .cooked [(name, child)] ⟨n, 2048⟩ (fun _ => record) := by
  refine ⟨⟨root, parent, _, _, rfl, rfl, .refl _, packed record, holds_sector hs⟩, ?_, ?_⟩
  · rintro name' child' hm
    cases List.mem_singleton.mp hm
    exact hn
  · rintro name' child' hm
    cases List.mem_singleton.mp hm
    exact hf

theorem described_in {sectors : List Sector}
    (hs : sectors[16]? = some (.filled descriptor length_descriptor_le)) :
    Described (.file (cookedFile sectors)) .cooked root := by
  have hbytes : (Sector.filled descriptor length_descriptor_le).bytes =
      [1, 67, 68, 48, 48, 49] ++ List.replicate 150 0 ++
        (root.bytes ++ List.replicate (sectorSize - descriptor.length) 0) := by
    simp only [Sector.filled, descriptor, List.append_assoc]
  refine ⟨16, Nat.le_refl _, by decide, fun sector hl hlt => by omega, _,
    List.replicate (sectorSize - descriptor.length) 0, holds_sector hs, rfl, rfl, ?_⟩
  refine (congrArg (List.drop 156) hbytes).trans (List.drop_left' ?_)
  rw [List.length_append, List.length_replicate]
  rfl

theorem described : Described (.file (cookedFile sectors)) .cooked root := described_in rfl

theorem laidOut : LaidOut (.file (cookedFile sectors)) .cooked (.folder entries) root.extent := by
  refine .folder (fun _ => sub) (listed rfl ⟨[], rfl, .inl rfl⟩ rfl) fun name child hm => ?_
  cases List.mem_singleton.mp hm
  refine .folder (fun _ => text) (listed rfl ⟨[59, 49], rfl, .inr ⟨[49], rfl⟩⟩ rfl)
    fun name child hm => ?_
  cases List.mem_singleton.mp hm
  exact .file (@holds_filled sectors 19 [7, 8, 9] _ _ rfl rfl)

theorem imageOf : ImageOf (cookedFile sectors) .cooked entries :=
  ⟨.cooked (not_looksRaw fun h => by cases h), root, described, laidOut⟩

theorem plain : (Tree.folder entries).Plain 33 := by
  have hname : ∀ {name : String}, name.toList ≠ [] → (∀ c ∈ name.toList, 32 ≤ c.toNat ∧
      c.toNat < 127 ∧ c.toNat ≠ 47 ∧ c.toNat ≠ 92 ∧ c.toNat ≠ 59) →
      name.toList.getLast? ≠ some '.' → PlainName name := fun hn hc hl =>
    ⟨hn, fun c hm => (nameChar_iff c).mpr (hc c hm), hl⟩
  refine .folder (fun name child hm => ?_) (List.pairwise_singleton _ _) fun name child hm => ?_
  · cases List.mem_singleton.mp hm
    exact hname (by decide) (by simp) (by decide)
  · cases List.mem_singleton.mp hm
    refine .folder (fun name child hm => ?_) (List.pairwise_singleton _ _) fun name child hm => ?_
    · cases List.mem_singleton.mp hm
      exact hname (by decide) (by simp) (by decide)
    · cases List.mem_singleton.mp hm
      exact .file

theorem spells : Spells ".\\sub//r.txt;1" ["SUB", "R.TXT"] := by
  have hcase : ∀ {a b : String}, a.toList.map Char.toUpper = b.toList.map Char.toUpper →
      SameName a b := fun h => String.toList_inj.mp (by rw [toList_toUpper, toList_toUpper, h])
  refine ⟨".\\".toList, ["sub", "r.txt"], "sub//r.txt".toList, ";1".toList, by decide,
    .dot (by decide) .nil, ?_, .cons (hcase (by decide)) (.cons (hcase (by decide)) .nil),
    .inr ⟨['1'], by decide⟩⟩
  exact .cons "sub" ['/', '/'] (by simp [Path.isSeparator]) (by decide)
    (.cons "r.txt" [] (by simp) (by decide) .nil)

def host : Host := ⟨[(["sub.iso"], .file (cookedFile sectors))], []⟩

end Sample

theorem laid_out_tree_reads_back_sample :
    Sample.host.find "sub.iso" = .ok (.file (cookedFile Sample.sectors)) ∧
      ImageOf (cookedFile Sample.sectors) .cooked Sample.entries ∧
      (Tree.folder Sample.entries).Plain 33 ∧
      ∃ b, Backend.ofImage Sample.host "sub.iso" = .ok b ∧
        b.isFile Sample.host ".\\sub//r.txt;1" = true ∧
        b.readBytes Sample.host ".\\sub//r.txt;1" = .ok [7, 8, 9] := by
  refine ⟨rfl, Sample.imageOf, Sample.plain, ?_⟩
  have hfind : Sample.host.find "sub.iso" = .ok (.file (cookedFile Sample.sectors)) := rfl
  obtain ⟨b, hb, hpaths, _⟩ := laid_out_tree_reads_back hfind Sample.imageOf Sample.plain
  have hat : (Tree.folder Sample.entries).At ["SUB", "R.TXT"] (.file [7, 8, 9]) :=
    .within (List.mem_singleton_self _) (.within (List.mem_singleton_self _) .here)
  obtain ⟨hfile, hread⟩ := hpaths _ _ _ hat Sample.spells
  exact ⟨b, hb, hfile.mpr ⟨_, rfl⟩, hread _ rfl⟩

end LayeredAssets.Disc
