import LayeredAssets.Proofs.Disc.Keys

namespace LayeredAssets.Disc

/-- The version that a name may end with, from its mark on. -/
def versionOf (name : List Char) : List Char := name.dropWhile (· != ';')

/-- The names that a path asks for: part by part, each without its version and in capitals. -/
def asksFor (path : String) : List String :=
  (Path.parts (Path.trimEnd '/' (Path.relative path))).map fun part =>
    Text.uppercase (String.ofList (beforeVersion part.toList))

/-- If there is a version in a path, it ends the last name. -/
structure VersionLast (path : String) : Prop where
  ends : '/' ∉ versionOf (Path.trimEnd '/' (Path.relative path)).toList
  of_name : (beforeVersion (Path.trimEnd '/' (Path.relative path)).toList).getLast? ≠ some '/'

section
variable {chars : List Char}

theorem beforeVersion_append_versionOf (chars : List Char) :
    beforeVersion chars ++ versionOf chars = chars := List.takeWhile_append_dropWhile

theorem beforeVersion_concat_slash (chars : List Char) :
    beforeVersion (chars ++ ['/']) = beforeVersion chars ∨
      beforeVersion (chars ++ ['/']) = beforeVersion chars ++ ['/'] := by
  induction chars with
  | nil => exact Or.inr rfl
  | cons c chars ih =>
    unfold beforeVersion at ih ⊢
    rw [List.cons_append, List.takeWhile_cons, List.takeWhile_cons]
    split
    · rcases ih with ih | ih
      · exact Or.inl (by rw [ih])
      · exact Or.inr (by rw [ih, List.cons_append])
    · exact Or.inl rfl

/-- Slashes at the end do not matter, before a version or behind it. -/
theorem trimEnd_beforeVersion (chars : List Char) :
    Path.trimEndChars '/' (beforeVersion (Path.trimEndChars '/' chars)) =
      Path.trimEndChars '/' (beforeVersion chars) := by
  induction chars using List.reverseRecOn with
  | nil => rfl
  | append_singleton chars c ih =>
    by_cases hc : c = '/'
    · subst hc
      rw [Path.trimEndChars_append_self, ih]
      rcases beforeVersion_concat_slash chars with h | h
      · rw [h]
      · rw [h, Path.trimEndChars_append_self]
    · have hlast : (chars ++ [c]).getLast? ≠ some '/' := by simpa using hc
      rw [Path.trimEndChars_of_last hlast]

theorem length_splitAt (mark : Char) (chars : List Char) :
    (Text.splitAt mark chars).length = chars.count mark + 1 := by
  induction chars with
  | nil => rfl
  | cons c chars ih =>
    obtain ⟨part, parts, hparts⟩ :=
      List.exists_cons_of_ne_nil (Text.splitAt_ne_nil mark chars)
    rw [hparts, List.length_cons] at ih
    rw [Text.splitAt]
    split
    · next hc =>
      subst hc
      rw [hparts, List.count_cons_self, List.length_cons, List.length_cons, ih]
    · next hc =>
      rw [hparts, List.count_cons_of_ne hc, List.length_cons, ih]

/-- A version that no slash follows belongs to the last part alone. -/
theorem splitAt_beforeVersion (h : '/' ∉ versionOf chars) :
    (Text.splitAt '/' chars).map beforeVersion = Text.splitAt '/' (beforeVersion chars) := by
  induction chars with
  | nil => rfl
  | cons c chars ih =>
    by_cases hc : c = ';'
    · subst hc
      have hchars : '/' ∉ ';' :: chars := by simpa [versionOf] using h
      rw [Text.splitAt_of_notMem hchars]
      rfl
    · have hbefore : ∀ rest, beforeVersion (c :: rest) = c :: beforeVersion rest :=
        fun rest => List.takeWhile_cons_of_pos (bne_iff_ne.mpr hc)
      have hversion : versionOf (c :: chars) = versionOf chars :=
        List.dropWhile_cons_of_pos (bne_iff_ne.mpr hc)
      have hrest := ih (hversion ▸ h)
      obtain ⟨part, parts, hparts⟩ :=
        List.exists_cons_of_ne_nil (Text.splitAt_ne_nil '/' chars)
      rw [hparts, List.map_cons] at hrest
      rw [hbefore, Text.splitAt, Text.splitAt, hparts, ← hrest]
      split
      · rfl
      · simp [hbefore]

theorem count_trimEndChars_lt (h : chars.getLast? = some '/') :
    (Path.trimEndChars '/' chars).count '/' < chars.count '/' := by
  obtain ⟨init, hinit⟩ := List.getLast?_eq_some_iff.mp h
  have hle := (Path.trimEndChars_prefix '/' init).sublist.count_le '/'
  rw [hinit, Path.trimEndChars_append_self, List.count_append, List.count_singleton_self]
  omega

/-- A slash too many for the parts that are looked up stands in a version or before one. -/
theorem count_of_length_eq (h : (Text.splitAt '/' chars).length =
      (Text.splitAt '/' (Path.trimEndChars '/' (beforeVersion chars))).length) :
    '/' ∉ versionOf chars ∧ (beforeVersion chars).getLast? ≠ some '/' := by
  have hsplit := congrArg (List.count '/') (beforeVersion_append_versionOf chars)
  have hle := (Path.trimEndChars_prefix '/' (beforeVersion chars)).sublist.count_le '/'
  rw [length_splitAt, length_splitAt] at h
  rw [List.count_append] at hsplit
  constructor
  · intro hm
    have := List.count_pos_iff.mpr hm
    omega
  · intro hlast
    have := count_trimEndChars_lt hlast
    omega

end

/-- Exactly the names that are asked for are looked up, unless a version stands within the path. -/
theorem asksFor_eq_iff (path : String) :
    asksFor path = (Path.parts (lookedUp path)).map Text.uppercase ↔ VersionLast path := by
  have htrim : lookedUp path = String.ofList (Path.trimEndChars '/'
      (beforeVersion (Path.trimEnd '/' (Path.relative path)).toList)) := by
    rw [lookedUp, Path.trimEnd, String.toList_ofList, trimEnd_beforeVersion]
  rw [htrim, asksFor, Path.parts, Path.parts, String.toList_ofList]
  constructor
  · intro h
    have hlength := congrArg List.length h
    simp only [List.length_map] at hlength
    obtain ⟨hends, hname⟩ := count_of_length_eq hlength
    exact ⟨hends, hname⟩
  · intro h
    rw [Path.trimEndChars_of_last h.of_name, ← splitAt_beforeVersion h.ends]
    simp only [List.map_map]
    apply List.map_congr_left
    intro part _
    simp

section
variable {host : Host} {path asked : String} {file : Bytes} {framing : Framing} {root : Record}
  {b : Backend}

theorem exists_fileAt?_of_found {node : Node} {found : List Sighting}
    (hfind : host.find path = .ok node)
    (h : Backend.isFile host (.disc ⟨path, framing, found⟩) asked = true ∨
      ∃ stream, Backend.openFile host (.disc ⟨path, framing, found⟩) asked = .ok stream) :
    ∃ extent, Image.fileAt? ⟨path, framing, found⟩ (Image.key asked) = some extent := by
  rcases h with h | ⟨stream, h⟩
  · exact Option.isSome_iff_exists.mp h
  · rw [openFile_disc hfind] at h
    cases he : Image.fileAt? ⟨path, framing, found⟩ (Image.key asked) with
    | none =>
      rw [he] at h
      cases h
    | some extent => exact ⟨extent, rfl⟩

/-- Whatever a file is found by, what stands before the first version in it spells the names that
lead to a record of a file, and that record's bytes are read. These are the names asked for if and
only if no version stands within the path. -/
theorem found_spells_record (hfind : host.find path = .ok (.file file))
    (hframed : Framing.ofNode (.file file) = .ok framing)
    (hroot : RootAt (.file file) framing root) (hopened : Backend.ofImage host path = .ok b)
    (hnames : ∀ folders record,
      HasAt (.file file) framing root.extent folders record → Single record.name)
    (hfound : b.isFile host asked = true ∨ ∃ stream, b.openFile host asked = .ok stream) :
    ∃ folders record, HasAt (.file file) framing root.extent folders record ∧
      record.isFolder = false ∧
      (Path.parts (lookedUp asked)).map Text.uppercase =
        (folders ++ [record.name]).map Text.uppercase ∧
      (asksFor asked = (folders ++ [record.name]).map Text.uppercase ↔ VersionLast asked) ∧
      b.isFile host asked = true ∧
      b.openFile host asked = .ok (.disc ⟨.file file, framing, record.extent, 0⟩) ∧
      ∀ bytes, b.readBytes host asked = .ok bytes ↔
        Holds (.file file) framing record.extent bytes := by
  obtain ⟨found, rfl, hindex⟩ := indexOf_of_ofImage hfind hframed hroot hopened
  obtain ⟨extent, hextent⟩ := exists_fileAt?_of_found hfind hfound
  obtain ⟨folders, record, hhas, hf, hpath, rfl⟩ := hindex.exists_hasAt hnames hextent
  have hparts : (Path.parts (lookedUp asked)).map Text.uppercase =
      (folders ++ [record.name]).map Text.uppercase := by
    rw [← Path.parts_uppercase, ← key_eq, ← hpath, hhas.parts_pathOf hnames]
  refine ⟨folders, record, hhas, hf, hparts, ?_, ?_, ?_, ?_⟩
  · rw [← hparts]
    exact asksFor_eq_iff asked
  · rw [Backend.isFile, hextent]
    rfl
  · rw [openFile_disc hfind, hextent]
  · intro bytes
    rw [readBytes_disc hfind, hextent, ← readExtent_eq_ok_iff]
    exact Except.mapError_eq_ok_iff

end

namespace Sample

theorem rootAt : RootAt (.file (cookedFile sectors)) .cooked root.record := described.rootAt

theorem lists_root : Lists StartsZero (.file (cookedFile sectors)) .cooked root.extent
    [root.record, parent.record, sub.record] :=
  ⟨_, holds_sector (n := 17) rfl, (packed sub).recordsIn⟩

theorem lists_sub : Lists StartsZero (.file (cookedFile sectors)) .cooked sub.extent
    [root.record, parent.record, text.record] :=
  ⟨_, holds_sector (n := 18) rfl, (packed text).recordsIn⟩

theorem named_root : named [root.record, parent.record, sub.record] = [sub.record] := by
  decide +kernel

theorem named_sub : named [root.record, parent.record, text.record] = [text.record] := by
  decide +kernel

theorem sub_name : sub.record.name = "SUB" := by decide +kernel

theorem text_name : text.record.name = "R.TXT" := by decide +kernel

theorem way_sub :
    Way (.file (cookedFile sectors)) .cooked root.record.extent ["SUB"] sub.record.extent := by
  have hm : sub.record ∈ named [root.record, parent.record, sub.record] := by
    simp [named_root]
  have hway := Way.within lists_root hm rfl .here
  rwa [sub_name] at hway

theorem of_way {folders : List String} {extent : Extent}
    (h : Way (.file (cookedFile sectors)) .cooked root.record.extent folders extent) :
    folders = [] ∧ extent = root.record.extent ∨
      folders = ["SUB"] ∧ extent = sub.record.extent := by
  cases h with
  | here => exact Or.inl ⟨rfl, rfl⟩
  | within hl hm _ hway =>
    obtain rfl := hl.unique lists_root
    rw [named_root] at hm
    obtain rfl := List.mem_singleton.mp hm
    cases hway with
    | here => exact Or.inr ⟨by rw [sub_name], rfl⟩
    | within hl' hm' hf _ =>
      obtain rfl := hl'.unique lists_sub
      rw [named_sub] at hm'
      obtain rfl := List.mem_singleton.mp hm'
      cases hf

/-- There is nothing on the image but the folder and the file in it. -/
theorem hasAt_iff {folders : List String} {record : Record} :
    HasAt (.file (cookedFile sectors)) .cooked root.record.extent folders record ↔
      folders = [] ∧ record = sub.record ∨ folders = ["SUB"] ∧ record = text.record := by
  constructor
  · intro h
    obtain ⟨extent, records, hway, hl, hm⟩ := h
    rcases of_way hway with ⟨hfolders, rfl⟩ | ⟨hfolders, rfl⟩
    · obtain rfl := hl.unique lists_root
      rw [named_root] at hm
      exact Or.inl ⟨hfolders, List.mem_singleton.mp hm⟩
    · obtain rfl := hl.unique lists_sub
      rw [named_sub] at hm
      exact Or.inr ⟨hfolders, List.mem_singleton.mp hm⟩
  · intro h
    rcases h with ⟨rfl, rfl⟩ | ⟨rfl, rfl⟩
    · exact ⟨_, _, .here, lists_root, by simp [named_root]⟩
    · exact ⟨_, _, way_sub, lists_sub, by simp [named_sub]⟩

theorem names_plain {folders : List String} {record : Record}
    (h : HasAt (.file (cookedFile sectors)) .cooked root.record.extent folders record) :
    record.name ≠ "" ∧ ∀ c ∈ record.name.toList, c.toNat < 128 ∧ Path.isSeparator c = false := by
  rcases hasAt_iff.mp h with ⟨-, rfl⟩ | ⟨-, rfl⟩
  · rw [sub_name]
    simp [Path.isSeparator]
  · rw [text_name]
    simp [Path.isSeparator]

theorem names_single {folders : List String} {record : Record}
    (h : HasAt (.file (cookedFile sectors)) .cooked root.record.extent folders record) :
    Single record.name := by
  obtain ⟨hne, hchars⟩ := names_plain h
  refine ⟨hne, fun hm => ?_⟩
  cases (hchars _ hm).2

theorem opened : ∃ found, Backend.ofImage host "sub.iso" = .ok (.disc ⟨"sub.iso", .cooked, found⟩) ∧
    IndexOf (.file (cookedFile sectors)) .cooked root.record ⟨"sub.iso", .cooked, found⟩ := by
  have hfind : host.find "sub.iso" = .ok (.file (cookedFile sectors)) := rfl
  obtain ⟨found, hopened, -⟩ := ofImage_of_laidOut hfind imageOf plain
  obtain ⟨found', he, hindex⟩ := indexOf_of_ofImage hfind imageOf.framed.ofNode rootAt hopened
  cases he
  exact ⟨found, hopened, hindex⟩

/-- The file is there under every path whose key is its own. -/
theorem isFile_text {found : List Sighting} {asked : String}
    (hindex : IndexOf (.file (cookedFile sectors)) .cooked root.record
      ⟨"sub.iso", .cooked, found⟩)
    (hkey : Image.key asked = pathOf ["SUB", "R.TXT"]) :
    Backend.isFile host (.disc ⟨"sub.iso", .cooked, found⟩) asked = true := by
  have hhas := hasAt_iff.mpr (Or.inr ⟨rfl, rfl⟩)
  have hfile := hindex.exists_fileAt?_of_hasAt hhas rfl (by simp)
  rw [text_name, List.singleton_append, ← hkey] at hfile
  exact Option.isSome_iff_exists.mpr hfile

end Sample

theorem found_spells_record_sample :
    Sample.host.find "sub.iso" = .ok (.file (cookedFile Sample.sectors)) ∧
      Framing.ofNode (.file (cookedFile Sample.sectors)) = .ok .cooked ∧
      RootAt (.file (cookedFile Sample.sectors)) .cooked Sample.root.record ∧
      (∀ folders record, HasAt (.file (cookedFile Sample.sectors)) .cooked
        Sample.root.record.extent folders record → Single record.name) ∧
      VersionLast "sub/r.txt;1" ∧
      ∃ b, Backend.ofImage Sample.host "sub.iso" = .ok b ∧
        b.isFile Sample.host "sub/r.txt;1" = true ∧
        asksFor "sub/r.txt;1" = ["SUB", "R.TXT"] ∧
        b.readBytes Sample.host "sub/r.txt;1" = .ok [7, 8, 9] := by
  have hfind : Sample.host.find "sub.iso" = .ok (.file (cookedFile Sample.sectors)) := rfl
  have hframed := Sample.imageOf.framed.ofNode
  have hversion : VersionLast "sub/r.txt;1" := ⟨by decide +kernel, by decide +kernel⟩
  obtain ⟨found, hopened, hindex⟩ := Sample.opened
  have hkey : Image.key "sub/r.txt;1" = pathOf ["SUB", "R.TXT"] := by decide +kernel
  have hfile := Sample.isFile_text hindex hkey
  obtain ⟨folders, record, hhas, hf, -, hasked, -, -, hread⟩ :=
    found_spells_record hfind hframed Sample.rootAt hopened
      (fun _ _ h => Sample.names_single h) (Or.inl hfile)
  refine ⟨hfind, hframed, Sample.rootAt, fun _ _ h => Sample.names_single h, hversion, _, hopened,
    hfile, ?_⟩
  rcases Sample.hasAt_iff.mp hhas with ⟨rfl, rfl⟩ | ⟨rfl, rfl⟩
  · cases hf
  · constructor
    · rw [hasked.mpr hversion, Sample.text_name]
      decide +kernel
    · exact (hread _).mpr (@holds_filled Sample.sectors 19 [7, 8, 9] _ _ rfl rfl)

/-- A file is found although the path asks for something below it. -/
theorem version_hides_names_behind :
    ¬ ∀ (host : Host) (path asked : String) (file : Bytes) (framing : Framing) (root : Record)
        (b : Backend), host.find path = .ok (.file file) →
      Framing.ofNode (.file file) = .ok framing → RootAt (.file file) framing root →
      Backend.ofImage host path = .ok b →
      (∀ folders record, HasAt (.file file) framing root.extent folders record →
        record.name ≠ "" ∧
          ∀ c ∈ record.name.toList, c.toNat < 128 ∧ Path.isSeparator c = false) →
      b.isFile host asked = true →
        ∃ folders record, HasAt (.file file) framing root.extent folders record ∧
          record.isFolder = false ∧
          asksFor asked = (folders ++ [record.name]).map Text.uppercase := by
  intro hall
  obtain ⟨found, hopened, hindex⟩ := Sample.opened
  have hkey : Image.key "sub/r.txt;1/s.txt" = pathOf ["SUB", "R.TXT"] := by decide +kernel
  have hfile := Sample.isFile_text hindex hkey
  obtain ⟨folders, record, hhas, -, hasked⟩ := hall _ _ _ _ _ _ _ rfl
    Sample.imageOf.framed.ofNode Sample.rootAt hopened (fun _ _ h => Sample.names_plain h) hfile
  have hthree : (asksFor "sub/r.txt;1/s.txt").length = 3 := by decide +kernel
  rw [hasked, List.length_map, List.length_append, List.length_singleton] at hthree
  rcases Sample.hasAt_iff.mp hhas with ⟨rfl, -⟩ | ⟨rfl, -⟩
  · cases hthree
  · cases hthree

end LayeredAssets.Disc
