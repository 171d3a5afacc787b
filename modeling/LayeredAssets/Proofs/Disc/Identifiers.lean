import LayeredAssets.Proofs.Disc.Lookup

namespace LayeredAssets

namespace Wildcard

theorem firstDecided_suffixes (text : List Char) :
    firstDecided (fit []) (suffixes text) = .fits := by
  induction text with
  | nil => rfl
  | cons c text ih => exact ih

theorem isMatch_star (name : String) : isMatch name "*" = true := by
  have htokens : tokens true [] "*".toList = some [.run] := by
    simp [tokens]
  have hfit : fit [.run] name.toList = .fits := by
    rw [fit, firstDecided_suffixes]
  rw [isMatch, htokens]
  simp [hfit]

end Wildcard

namespace Disc

/-- The bytes of a record that name what it is of. -/
def identifierOf (part : Bytes) : Bytes := (part.drop 33).take (part.getD 32 0).toNat

/-- A record as it stands in the folder to which these names lead. Those by which a folder lists
itself and the one above it do not count. -/
def RecordedAt (image : Node) (framing : Framing) (extent : Extent) (folders : List String)
    (part : Bytes) : Prop :=
  ∃ extent' bytes parts, Way image framing extent folders extent' ∧
    Holds image framing extent' bytes ∧ PartsIn StartsZero 0 bytes parts ∧ part ∈ parts ∧
      (recordOf part).name ≠ "." ∧ (recordOf part).name ≠ ".."

/-- What is left of an identifier without its version and without dots that nothing follows. -/
def namePart (identifier : String) : String :=
  String.ofList (Path.trimEndChars '.' (beforeVersion identifier.toList))

/-- The identifier in a record, with a name and perhaps a lone dot or a version behind it. -/
structure Identified (part : Bytes) (identifier : String) : Prop where
  recorded : identifierOf part = Text.ascii identifier.toList
  ascii : ∀ c ∈ identifier.toList, c.toNat < 128
  no_separator : ∀ c ∈ identifier.toList, Path.isSeparator c = false
  named : namePart identifier ≠ ""

/-- Names of folders as a reader may write them in a path, each one part and in any case. -/
structure SpelledAs (spelled folders : List String) : Prop where
  same : spelled.map Text.uppercase = folders.map Text.uppercase
  parts : ∀ part ∈ spelled, Path.Part part

section
variable {image : Node} {framing : Framing} {part : Bytes} {extent : Extent}
  {folders : List String} {record : Record} {identifier : String}

/-- Every record of an image stands on it somewhere. -/
theorem hasAt_iff_recordedAt : HasAt image framing extent folders record ↔
    ∃ part, RecordedAt image framing extent folders part ∧ recordOf part = record := by
  constructor
  · intro h
    obtain ⟨extent', records, hway, ⟨bytes, hholds, hrecords⟩, hm⟩ := h
    obtain ⟨parts, hparts, rfl⟩ := recordsIn_iff.mp hrecords
    obtain ⟨hm, hdot, hdots⟩ := mem_named.mp hm
    obtain ⟨part, hpart, rfl⟩ := List.mem_map.mp hm
    exact ⟨part, ⟨extent', bytes, parts, hway, hholds, hparts, hpart, hdot, hdots⟩, rfl⟩
  · intro h
    obtain ⟨part, ⟨extent', bytes, parts, hway, hholds, hparts, hpart, hdot, hdots⟩, rfl⟩ := h
    have hrecords := recordsIn_iff.mpr ⟨parts, hparts, rfl⟩
    exact ⟨extent', _, hway, ⟨bytes, hholds, hrecords⟩,
      mem_named.mpr ⟨List.mem_map_of_mem hpart, hdot, hdots⟩⟩

theorem RecordedAt.hasAt (h : RecordedAt image framing extent folders part) :
    HasAt image framing extent folders (recordOf part) := hasAt_iff_recordedAt.mpr ⟨part, h, rfl⟩

theorem recordName_of_named {identifier : Bytes} (hdot : recordName identifier ≠ ".")
    (hdots : recordName identifier ≠ "..") : recordName identifier =
      String.ofList (Path.trimEndChars '.' (beforeVersion (Text.readLossy identifier).toList)) := by
  unfold recordName at hdot hdots ⊢
  split
  · next hself =>
    rw [if_pos hself] at hdot
    exact absurd rfl hdot
  · next hself =>
    rw [if_neg hself] at hdots
    split
    · next habove =>
      rw [if_pos habove] at hdots
      exact absurd rfl hdots
    · rfl

/-- What a name was cut to holds no version and ends in no dot. -/
theorem HasAt.cut (h : HasAt image framing extent folders record) :
    ';' ∉ record.name.toList ∧ record.name.toList.getLast? ≠ some '.' := by
  obtain ⟨part, ⟨_, _, _, _, _, _, _, hdot, hdots⟩, rfl⟩ := hasAt_iff_recordedAt.mp h
  have hname : (recordOf part).name = _ := recordName_of_named hdot hdots
  rw [hname, String.toList_ofList]
  exact ⟨mark_notMem_cut _, Path.getLast?_trimEndChars '.' _⟩

theorem Identified.record_name (hi : Identified part identifier)
    (hr : RecordedAt image framing extent folders part) :
    (recordOf part).name = namePart identifier := by
  obtain ⟨_, _, _, _, _, _, _, hdot, hdots⟩ := hr
  have hname : (recordOf part).name = _ := recordName_of_named hdot hdots
  have hread : (Text.readLossy (identifierOf part)).toList = identifier.toList := by
    have hlossy := Text.readLossy_ascii_append hi.ascii []
    have hnil : (Text.readLossy []).toList = [] := by
      simp [Text.readLossy, Text.decode, Text.decodeOnto]
    rwa [List.append_nil, hnil, List.append_nil, ← hi.recorded] at hlossy
  rw [hname, namePart]
  unfold identifierOf at hread
  rw [hread]

theorem getLast?_pathIn_iff {folder name : String} :
    (pathIn folder name).toList.getLast? = some '.' ↔ name.toList.getLast? = some '.' := by
  have hname : (Text.uppercase name).toList.getLast? = some '.' ↔
      name.toList.getLast? = some '.' := Text.getLast?_uppercase_iff (by decide)
  rw [← hname, pathIn]
  split
  · rfl
  · rw [String.toList_append, String.toList_append]
    by_cases hnil : (Text.uppercase name).toList = []
    · simp [hnil]
    · rw [List.getLast?_append_of_ne_nil _ hnil]

theorem namePart_eq (h : (beforeVersion identifier.toList).getLast? ≠ some '.') :
    namePart identifier = String.ofList (beforeVersion identifier.toList) := by
  rw [namePart, Path.trimEndChars_of_last h]

theorem Identified.beforeVersion_ne_nil (hi : Identified part identifier) :
    beforeVersion identifier.toList ≠ [] := by
  intro he
  apply hi.named
  rw [namePart, he]
  rfl

theorem Identified.isPart (hi : Identified part identifier) : Path.Part identifier where
  ne_nil := by
    intro he
    apply hi.beforeVersion_ne_nil
    rw [he]
    rfl
  chars := hi.no_separator
  not_dot := by
    intro he
    apply hi.named
    rw [namePart, he]
    rfl

theorem Identified.isPart_namePart (hi : Identified part identifier) :
    Path.Part (namePart identifier) where
  ne_nil := fun he => hi.named (String.toList_eq_nil_iff.mp he)
  chars := by
    intro c hc
    rw [namePart, String.toList_ofList] at hc
    have hbefore := (Path.trimEndChars_prefix '.' _).subset hc
    exact hi.no_separator c (List.takeWhile_subset _ hbefore)
  not_dot := by
    intro he
    have hlast := Path.getLast?_trimEndChars '.' (beforeVersion identifier.toList)
    rw [← String.toList_ofList (l := Path.trimEndChars _ _)] at hlast
    exact hlast (congrArg List.getLast? he)

end

namespace SpelledAs
variable {spelled folders : List String}

/-- What names folders is free of versions, as their names are. -/
theorem mark_notMem (h : SpelledAs spelled folders) {image : Node} {framing : Framing}
    {extent : Extent} {record : Record} (hhas : HasAt image framing extent folders record) :
    ∀ part ∈ spelled, ';' ∉ part.toList := by
  have hnames : ∀ name ∈ folders ++ [record.name], ';' ∉ name.toList :=
    hhas.forall_names fun _ _ h => h.cut.1
  have hfolders : ∀ name ∈ folders, ';' ∉ name.toList :=
    fun name hn => hnames name (List.mem_append_left _ hn)
  intro part hp hm
  have hcapitals := List.mem_map_of_mem (f := Text.uppercase) hp
  rw [h.same] at hcapitals
  obtain ⟨name, hn, he⟩ := List.mem_map.mp hcapitals
  apply hfolders name hn
  rwa [← Text.mem_uppercase_iff (by decide), he, Text.mem_uppercase_iff (by decide)]

theorem ne_empty (h : SpelledAs spelled folders) : ∀ name ∈ folders, name ≠ "" := by
  intro name hn he
  have hcapitals := List.mem_map_of_mem (f := Text.uppercase) hn
  rw [← h.same] at hcapitals
  obtain ⟨part, hp, hpart⟩ := List.mem_map.mp hcapitals
  rw [he, Text.uppercase_eq_empty_iff.mpr rfl, Text.uppercase_eq_empty_iff] at hpart
  exact (h.parts part hp).ne_nil (String.toList_eq_nil_iff.mpr hpart)

theorem pathOf_eq (h : SpelledAs spelled folders) : pathOf spelled = pathOf folders := by
  rw [pathOf, pathOf, h.same]

theorem pathOf_concat (h : SpelledAs spelled folders) (name : String) :
    pathOf (spelled ++ [name]) = pathOf (folders ++ [name]) := by
  rw [pathOf, pathOf, List.map_append, List.map_append, h.same]

end SpelledAs

section
variable {host : Host} {identifier : String} {node : Node} {framing : Framing} {root : Record}
  {part : Bytes} {image : Image} {folders spelled : List String}

theorem key_namePart (hr : RecordedAt node framing root.extent folders part)
    (hi : Identified part identifier) (hs : SpelledAs spelled folders) :
    Image.key (Path.join ("/".intercalate spelled) (namePart identifier)) =
      pathOf (folders ++ [(recordOf part).name]) := by
  have hmark := hs.mark_notMem hr.hasAt
  have hname : beforeVersion (namePart identifier).toList = (namePart identifier).toList := by
    apply beforeVersion_of_notMem
    rw [namePart, String.toList_ofList]
    exact mark_notMem_cut _
  have hne : beforeVersion (namePart identifier).toList ≠ [] := by
    rw [hname]
    exact hi.isPart_namePart.ne_nil
  rw [key_join hs.parts hmark hi.isPart_namePart hne, hname, String.ofList_toList,
    hs.pathOf_concat, hi.record_name hr]

theorem key_identifier (hr : RecordedAt node framing root.extent folders part)
    (hi : Identified part identifier) (hs : SpelledAs spelled folders) :
    Image.key (Path.join ("/".intercalate spelled) identifier) =
      pathOf (folders ++ [String.ofList (beforeVersion identifier.toList)]) := by
  have hmark := hs.mark_notMem hr.hasAt
  rw [key_join hs.parts hmark hi.isPart hi.beforeVersion_ne_nil, hs.pathOf_concat]

/-- No file is kept under a path that ends in a dot. -/
theorem IndexOf.not_dotted {key : String} {extent : Extent} (h : IndexOf node framing root image)
    (hfile : image.fileAt? key = some extent) : key.toList.getLast? ≠ some '.' := by
  obtain ⟨s, hmet, -, rfl⟩ := (h.known key).mp ⟨extent, hfile⟩
  obtain ⟨folders, hhas, -⟩ := metBelow_iff_hasAt.mp hmet
  rw [path_eq_pathIn]
  exact getLast?_pathIn_iff.not.mpr hhas.cut.2

/-- The identifier of a file leads to it unless a lone dot stands before the version: that was cut
from the name, but is not cut from what is looked up. -/
theorem key_identifier_found_iff (h : IndexOf node framing root image)
    (hr : RecordedAt node framing root.extent folders part)
    (hf : (recordOf part).isFolder = false) (hi : Identified part identifier)
    (hs : SpelledAs spelled folders) :
    (∃ extent, image.fileAt?
        (Image.key (Path.join ("/".intercalate spelled) identifier)) = some extent) ↔
      (beforeVersion identifier.toList).getLast? ≠ some '.' := by
  have hfolders := hs.ne_empty
  rw [key_identifier hr hi hs]
  constructor
  · intro hfile hlast
    obtain ⟨extent, hextent⟩ := hfile
    apply h.not_dotted hextent
    rw [pathOf_concat hfolders, getLast?_pathIn_iff, String.toList_ofList]
    exact hlast
  · intro hlast
    rw [← namePart_eq hlast, ← hi.record_name hr]
    exact h.exists_fileAt?_of_hasAt hr.hasAt hf hfolders

theorem enumerate_disc {folder : String} {names : List String}
    (h : image.namesAt? (Image.key folder) = some names) (filter : String) :
    Backend.enumerate host (.disc image) folder filter =
      .ok (Text.sorted (names.filter fun name => Wildcard.isMatch name filter)) := by
  unfold Backend.enumerate
  split
  · next h' =>
    cases h.symm.trans h'
    rfl
  · next h' => cases h.symm.trans h'

/-- A folder is listed with the name of every record in it. -/
theorem IndexOf.mem_namesAt? {record : Record} (h : IndexOf node framing root image)
    (hhas : HasAt node framing root.extent folders record) (hnames : ∀ name ∈ folders, name ≠ "") :
    ∃ names, image.namesAt? (pathOf folders) = some names ∧ record.name ∈ names := by
  have hmet : ⟨folders.foldl pathIn "", record⟩ ∈ image.sightings :=
    (h.met _).mpr (metBelow_iff_hasAt.mpr ⟨folders, hhas, rfl⟩)
  obtain ⟨extent, records, hway, hl, hm⟩ := hhas
  have hbelow := hway.lies_below ""
  rw [foldl_pathIn hnames] at hmet hbelow
  refine ⟨_, (h.folders (pathOf folders) _).mpr ⟨⟨_, _, hbelow⟩, rfl⟩, ?_⟩
  apply List.mem_map.mpr
  exact ⟨_, List.mem_filter.mpr ⟨hmet, by simp⟩, rfl⟩

end

section
variable {host : Host} {path identifier : String} {file : Bytes} {framing : Framing}
  {root : Record} {b : Backend} {part : Bytes} {folders spelled : List String}

/-- Every file is listed in its folder with the name that its identifier was cut to, and is found
by that name. It is found by the identifier too, and then as the same file, unless the identifier
has a lone dot before its version or its end. The extent is the record's own where the names on the
image can be told apart. -/
theorem identifier_leads_to_file (hfind : host.find path = .ok (.file file))
    (hframed : Framing.ofNode (.file file) = .ok framing)
    (hroot : RootAt (.file file) framing root) (hopened : Backend.ofImage host path = .ok b)
    (hr : RecordedAt (.file file) framing root.extent folders part)
    (hf : (recordOf part).isFolder = false) (hi : Identified part identifier)
    (hs : SpelledAs spelled folders) :
    let folder := "/".intercalate spelled
    let byName := Path.join folder (namePart identifier)
    let byIdentifier := Path.join folder identifier
    (∃ names, b.enumerate host folder "*" = .ok names ∧ namePart identifier ∈ names) ∧
    b.isFile host byName = true ∧
    (b.isFile host byIdentifier = true ↔
      (beforeVersion identifier.toList).getLast? ≠ some '.') ∧
    (b.isFile host byIdentifier = true →
      b.openFile host byIdentifier = b.openFile host byName) ∧
    ∃ extent, b.openFile host byName = .ok (.disc ⟨.file file, framing, extent, 0⟩) ∧
      (ToldApart (.file file) framing root.extent → extent = (recordOf part).extent) := by
  intro folder byName byIdentifier
  obtain ⟨found, rfl, hindex⟩ := indexOf_of_ofImage hfind hframed hroot hopened
  have hfolders := hs.ne_empty
  have hname : Image.key byName = pathOf (folders ++ [(recordOf part).name]) :=
    key_namePart hr hi hs
  have hidentifier := key_identifier_found_iff hindex hr hf hi hs
  obtain ⟨extent, hextent⟩ := hindex.exists_fileAt?_of_hasAt hr.hasAt hf hfolders
  rw [← hname] at hextent
  refine ⟨?_, ?_, ?_, ?_, extent, ?_, ?_⟩
  · obtain ⟨names, hnames, hm⟩ := hindex.mem_namesAt? hr.hasAt hfolders
    have hkey : Image.key folder = pathOf folders := by
      rw [key_intercalate hs.parts (hs.mark_notMem hr.hasAt), hs.pathOf_eq]
    rw [← hkey] at hnames
    refine ⟨_, enumerate_disc hnames "*", List.mem_mergeSort.mpr (List.mem_filter.mpr ⟨?_, ?_⟩)⟩
    · rwa [← hi.record_name hr]
    · exact Wildcard.isMatch_star _
  · rw [Backend.isFile, hextent]
    rfl
  · rw [← hidentifier]
    exact Option.isSome_iff_exists
  · intro hfile
    have hlast := hidentifier.mp (Option.isSome_iff_exists.mp hfile)
    have hsame : Image.key byIdentifier = Image.key byName := by
      rw [hname, hi.record_name hr, namePart_eq hlast]
      exact key_identifier hr hi hs
    rw [openFile_disc hfind, openFile_disc hfind, hsame, hextent]
  · rw [openFile_disc hfind, hextent]
  · intro ha
    obtain ⟨folders', record, hhas, -, hpath, rfl⟩ := hindex.exists_hasAt ha.single hextent
    have hparts := congrArg Path.parts (hpath.trans hname)
    rw [hhas.parts_pathOf ha.single, hr.hasAt.parts_pathOf ha.single] at hparts
    rw [hhas.unique hr.hasAt ha hparts]

end

namespace Sample

theorem recordedAt :
    RecordedAt (.file (cookedFile sectors)) .cooked root.record.extent ["SUB"] text.bytes := by
  have hname : (recordOf text.bytes).name = "R.TXT" := by
    rw [← text.recordOf_bytes.2, text_name]
  refine ⟨_, _, _, way_sub, holds_sector (n := 18) rfl, (packed text).partsIn, by simp, ?_, ?_⟩
  · rw [hname]
    decide
  · rw [hname]
    decide

theorem identified : Identified text.bytes "R.TXT;1" where
  recorded := by decide +kernel
  ascii := by simp
  no_separator := by simp [Path.isSeparator]
  named := by decide

theorem toldApart : ToldApart (.file (cookedFile sectors)) .cooked root.record.extent where
  single _ _ h := names_single h
  distinct := by
    intro folders extent records hway hl
    rcases of_way hway with ⟨-, rfl⟩ | ⟨-, rfl⟩
    · obtain rfl := hl.unique lists_root
      simp [named_root]
    · obtain rfl := hl.unique lists_sub
      simp [named_sub]

end Sample

theorem identifier_leads_to_file_sample :
    Sample.host.find "sub.iso" = .ok (.file (cookedFile Sample.sectors)) ∧
      Framing.ofNode (.file (cookedFile Sample.sectors)) = .ok .cooked ∧
      RootAt (.file (cookedFile Sample.sectors)) .cooked Sample.root.record ∧
      RecordedAt (.file (cookedFile Sample.sectors)) .cooked Sample.root.record.extent ["SUB"]
        Sample.text.bytes ∧
      (recordOf Sample.text.bytes).isFolder = false ∧
      Identified Sample.text.bytes "R.TXT;1" ∧
      SpelledAs ["sub"] ["SUB"] ∧
      ∃ b, Backend.ofImage Sample.host "sub.iso" = .ok b ∧
        (∃ names, b.enumerate Sample.host "sub" "*" = .ok names ∧ "R.TXT" ∈ names) ∧
        b.isFile Sample.host "sub/R.TXT" = true ∧ b.isFile Sample.host "sub/R.TXT;1" = true ∧
        b.openFile Sample.host "sub/R.TXT;1" =
          .ok (.disc ⟨.file (cookedFile Sample.sectors), .cooked, ⟨19, 3⟩, 0⟩) := by
  have hfind : Sample.host.find "sub.iso" = .ok (.file (cookedFile Sample.sectors)) := rfl
  have hframed := Sample.imageOf.framed.ofNode
  have hf : (recordOf Sample.text.bytes).isFolder = false := rfl
  have hs : SpelledAs ["sub"] ["SUB"] := by
    refine ⟨by decide, fun part hp => ?_⟩
    obtain rfl := List.mem_singleton.mp hp
    exact ⟨by decide, by simp [Path.isSeparator], by decide⟩
  obtain ⟨found, hopened, -⟩ := Sample.opened
  obtain ⟨hlisted, hname, hiff, hsame, extent, hopen, hextent⟩ :=
    identifier_leads_to_file hfind hframed Sample.rootAt hopened Sample.recordedAt hf
      Sample.identified hs
  have hidentifier := hiff.mpr (by decide)
  refine ⟨hfind, hframed, Sample.rootAt, Sample.recordedAt, hf, Sample.identified, hs, _,
    hopened, hlisted, hname, hidentifier, ?_⟩
  have htext : (recordOf Sample.text.bytes).extent = ⟨19, 3⟩ := by
    rw [← Sample.text.recordOf_bytes.2]
    rfl
  rw [← htext, ← hextent Sample.toldApart]
  exact (hsame hidentifier).trans hopen

namespace LoneDot

/-- A name without an extension, as it is recorded. -/
def readme : Recorded :=
  .plain (Text.ascii "README.;1".toList) ⟨18, 4⟩ 0 (by decide) (by decide) (by decide) (by decide)

def sectors : List Sector :=
  List.replicate 16 (.filled [] (Nat.zero_le _)) ++
    [.filled Sample.descriptor Sample.length_descriptor_le,
      .filled (Sample.listing readme) (Sample.length_listing_le readme),
      .filled [82, 69, 65, 68] (by decide)]

def host : Host := ⟨[(["readme.iso"], .file (cookedFile sectors))], []⟩

theorem framed : Framing.ofNode (.file (cookedFile sectors)) = .ok .cooked :=
  (FramedAs.cooked (not_looksRaw fun h => by cases h)).ofNode

theorem rootAt : RootAt (.file (cookedFile sectors)) .cooked Sample.root.record :=
  (Sample.described_in rfl).rootAt

theorem holds : Holds (.file (cookedFile sectors)) .cooked Sample.root.record.extent
    (Sector.filled (Sample.listing readme) (Sample.length_listing_le readme)).bytes :=
  holds_sector (n := 17) rfl

theorem lists : Lists StartsZero (.file (cookedFile sectors)) .cooked Sample.root.record.extent
    [Sample.root.record, Sample.parent.record, readme.record] :=
  ⟨_, holds, (Sample.packed readme).recordsIn⟩

theorem named_root :
    named [Sample.root.record, Sample.parent.record, readme.record] = [readme.record] := by
  decide +kernel

theorem readme_name : readme.record.name = "README" := by decide +kernel

/-- There is no folder on the image but its root. -/
theorem of_way {folders : List String} {extent : Extent}
    (h : Way (.file (cookedFile sectors)) .cooked Sample.root.record.extent folders extent) :
    folders = [] ∧ extent = Sample.root.record.extent := by
  cases h with
  | here => exact ⟨rfl, rfl⟩
  | within hl hm hf _ =>
    obtain rfl := hl.unique lists
    rw [named_root] at hm
    obtain rfl := List.mem_singleton.mp hm
    cases hf

theorem toldApart :
    ToldApart (.file (cookedFile sectors)) .cooked Sample.root.record.extent where
  single := by
    intro folders record hhas
    obtain ⟨extent, records, hway, hl, hm⟩ := hhas
    obtain ⟨-, rfl⟩ := of_way hway
    obtain rfl := hl.unique lists
    rw [named_root] at hm
    obtain rfl := List.mem_singleton.mp hm
    rw [readme_name]
    exact ⟨by decide, by decide⟩
  distinct := by
    intro folders extent records hway hl
    obtain ⟨-, rfl⟩ := of_way hway
    obtain rfl := hl.unique lists
    simp [named_root]

theorem recordedAt : RecordedAt (.file (cookedFile sectors)) .cooked Sample.root.record.extent []
    readme.bytes := by
  have hname : (recordOf readme.bytes).name = "README" := by
    rw [← readme.recordOf_bytes.2, readme_name]
  refine ⟨_, _, _, .here, holds, (Sample.packed readme).partsIn, by simp, ?_, ?_⟩
  · rw [hname]
    decide
  · rw [hname]
    decide

theorem identified : Identified readme.bytes "README.;1" where
  recorded := by decide +kernel
  ascii := by simp
  no_separator := by simp [Path.isSeparator]
  named := by decide

theorem opened : ∃ found,
    Backend.ofImage host "readme.iso" = .ok (.disc ⟨"readme.iso", .cooked, found⟩) ∧
      IndexOf (.file (cookedFile sectors)) .cooked Sample.root.record
        ⟨"readme.iso", .cooked, found⟩ := by
  have hfind : host.find "readme.iso" = .ok (.file (cookedFile sectors)) := rfl
  have hindexable : Indexable StartsZero (.file (cookedFile sectors)) .cooked := by
    refine ⟨_, rootAt, fun depth folder extent hb => ?_⟩
    cases hb with
    | here => exact ⟨⟨_, lists⟩, Nat.zero_le _⟩
    | within hl hm hf _ =>
      obtain rfl := hl.unique lists
      rw [named_root] at hm
      obtain rfl := List.mem_singleton.mp hm
      cases hf
  obtain ⟨image, himage⟩ := (exists_mount_iff hfind framed).mpr hindexable
  have hopened : Backend.ofImage host "readme.iso" = .ok (.disc image) := by
    rw [Backend.ofImage, himage]
    rfl
  obtain ⟨found, he, hindex⟩ := indexOf_of_ofImage hfind framed rootAt hopened
  exact ⟨found, he ▸ hopened, hindex⟩

end LoneDot

/-- A file whose identifier has a dot and no extension is not found by it. -/
theorem lone_dot_hides_file :
    ¬ ∀ (host : Host) (path : String) (file : Bytes) (framing : Framing) (root : Record)
        (b : Backend) (folders : List String) (part : Bytes) (identifier : String),
      host.find path = .ok (.file file) → Framing.ofNode (.file file) = .ok framing →
      RootAt (.file file) framing root → Backend.ofImage host path = .ok b →
      ToldApart (.file file) framing root.extent →
      RecordedAt (.file file) framing root.extent folders part →
      (recordOf part).isFolder = false → Identified part identifier →
      (∀ name ∈ folders, Path.Part name) →
        b.isFile host (Path.join ("/".intercalate folders) identifier) = true := by
  intro hall
  obtain ⟨found, hopened, hindex⟩ := LoneDot.opened
  have hparts : ∀ name ∈ ([] : List String), Path.Part name := by simp
  have hfile := hall _ _ _ _ _ _ _ _ _ rfl LoneDot.framed LoneDot.rootAt hopened
    LoneDot.toldApart LoneDot.recordedAt rfl LoneDot.identified hparts
  have hlast := (key_identifier_found_iff hindex LoneDot.recordedAt rfl LoneDot.identified
    ⟨rfl, hparts⟩).mp (Option.isSome_iff_exists.mp hfile)
  exact hlast (by decide)

end Disc
end LayeredAssets
