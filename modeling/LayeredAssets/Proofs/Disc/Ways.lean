import LayeredAssets.Proofs.Disc.Indexing
import LayeredAssets.Proofs.Text.Capitals
import Mathlib.Data.List.Induction
import Mathlib.Data.List.Nodup

namespace LayeredAssets.Disc

/-- The names of the folders that lead down from one folder to another. -/
inductive Way (image : Node) (framing : Framing) :
    Extent → (folders : List String) → Extent → Prop
  | here {extent} : Way image framing extent [] extent
  | within {extent records record folders extent'}
    (hl : Lists StartsZero image framing extent records) (hm : record ∈ named records)
    (hf : record.isFolder = true) (h : Way image framing record.extent folders extent') :
    Way image framing extent (record.name :: folders) extent'

/-- A record that stands in the folder to which these names lead. -/
def HasAt (image : Node) (framing : Framing) (extent : Extent) (folders : List String)
    (record : Record) : Prop :=
  ∃ extent' records, Way image framing extent folders extent' ∧
    Lists StartsZero image framing extent' records ∧ record ∈ named records

/-- A name that is one part of a path. -/
structure Single (name : String) : Prop where
  ne_empty : name ≠ ""
  no_slash : '/' ∉ name.toList

/-- The path under which the last of these names is kept. -/
def pathOf (names : List String) : String := "/".intercalate (names.map Text.uppercase)

/-- The path under which a name in this folder is kept. -/
def pathIn (folder name : String) : String :=
  if folder = "" then Text.uppercase name else folder ++ "/" ++ Text.uppercase name

theorem path_eq_pathIn (s : Sighting) : s.path = pathIn s.folder s.record.name := rfl

section
variable {name : String} {names names' : List String}

theorem pathOf_cons_ne_empty (hname : name ≠ "") (names : List String) :
    pathOf (name :: names) ≠ "" := by
  obtain ⟨rest, hr⟩ := intercalate_cons (Text.uppercase name) (names.map Text.uppercase)
  intro h
  rw [pathOf, List.map_cons, hr] at h
  have hnil := congrArg String.toList h
  rw [String.toList_append] at hnil
  have hempty := String.toList_eq_nil_iff.mp (List.append_eq_nil_iff.mp hnil).1
  exact hname (Text.uppercase_eq_empty_iff.mp hempty)

theorem pathOf_concat (hnames : ∀ name ∈ names, name ≠ "") (name : String) :
    pathOf (names ++ [name]) = pathIn (pathOf names) name := by
  cases names with
  | nil => simp [pathOf, pathIn]
  | cons first names =>
    have hne := pathOf_cons_ne_empty (hnames first List.mem_cons_self) names
    rw [pathIn, if_neg hne, pathOf, List.map_append,
      String.intercalate_append_of_ne_nil (by simp) (by simp)]
    simp [pathOf]

theorem foldl_pathIn (hnames : ∀ name ∈ names, name ≠ "") :
    names.foldl pathIn "" = pathOf names := by
  induction names using List.reverseRecOn with
  | nil => rfl
  | append_singleton names name ih =>
    have habove : ∀ name ∈ names, name ≠ "" := fun n hn => hnames n (List.mem_append_left _ hn)
    rw [List.foldl_append, ih habove, pathOf_concat habove]
    rfl

theorem parts_of_no_slash (h : '/' ∉ name.toList) : Path.parts name = [name] := by
  rw [Path.parts, Text.splitAt_of_notMem h]
  simp

/-- Names that hold no slash are the parts of the path that they make up. -/
theorem parts_pathOf (hne : names ≠ []) (hs : ∀ name ∈ names, '/' ∉ name.toList) :
    Path.parts (pathOf names) = names.map Text.uppercase := by
  have hslash : ∀ {name : String}, '/' ∉ name.toList → '/' ∉ (Text.uppercase name).toList :=
    fun h => (Text.mem_uppercase_iff (by decide)).not.mpr h
  induction names with
  | nil => exact absurd rfl hne
  | cons name names ih =>
    have hname := parts_of_no_slash (hslash (hs name List.mem_cons_self))
    cases names with
    | nil =>
      rw [pathOf, List.map_singleton, String.intercalate_singleton]
      exact hname
    | cons next names =>
      have hrest := ih (List.cons_ne_nil _ _) fun n hn => hs n (List.mem_cons_of_mem _ hn)
      rw [pathOf, List.map_cons] at hrest
      rw [pathOf, List.map_cons, List.map_cons, String.intercalate_cons_cons, Path.parts_append,
        hname, hrest]
      rfl

theorem uppercase_eq_pathOf (names : List String) :
    Text.uppercase ("/".intercalate names) = pathOf names := by
  have hslash : Text.uppercase "/" = "/" := rfl
  induction names with
  | nil => rfl
  | cons name names ih =>
    cases names with
    | nil => simp [pathOf]
    | cons next names =>
      rw [pathOf, List.map_cons] at ih
      rw [String.intercalate_cons_cons, Text.uppercase_append, Text.uppercase_append, hslash, ih]
      rw [pathOf, List.map_cons, List.map_cons, String.intercalate_cons_cons]

end

section
variable {image : Node} {framing : Framing} {depth : Nat} {folder folder' : String}
  {extent extent' : Extent} {record : Record} {records : List Record} {folders : List String}
  {s : Sighting}

theorem Way.lies_below (h : Way image framing extent folders extent') (folder : String) :
    Below StartsZero image framing folder extent folders.length
      (folders.foldl pathIn folder) extent' := by
  induction h generalizing folder with
  | here => exact .here
  | within hl hm hf _ ih => exact .within hl hm hf (ih _)

theorem exists_way_of_below
    (h : Below StartsZero image framing folder extent depth folder' extent') :
    ∃ folders, folders.foldl pathIn folder = folder' ∧ Way image framing extent folders extent' := by
  induction h with
  | here => exact ⟨[], rfl, .here⟩
  | within hl hm hf _ ih =>
    obtain ⟨folders, hfold, hway⟩ := ih
    exact ⟨_ :: folders, hfold, .within hl hm hf hway⟩

theorem metBelow_iff_hasAt : MetBelow image framing folder extent s ↔
    ∃ folders, HasAt image framing extent folders s.record ∧
      s.folder = folders.foldl pathIn folder := by
  constructor
  · intro h
    obtain ⟨depth, extent', records, hb, hl, hm⟩ := h
    obtain ⟨folders, hfold, hway⟩ := exists_way_of_below hb
    exact ⟨folders, ⟨extent', records, hway, hl, hm⟩, hfold.symm⟩
  · intro h
    obtain ⟨folders, ⟨extent', records, hway, hl, hm⟩, hfold⟩ := h
    have hb := hway.lies_below folder
    rw [← hfold] at hb
    exact ⟨folders.length, extent', records, hb, hl, hm⟩

theorem HasAt.within (hl : Lists StartsZero image framing extent records)
    (hm : record ∈ named records) (hf : record.isFolder = true) {inner : Record}
    (h : HasAt image framing record.extent folders inner) :
    HasAt image framing extent (record.name :: folders) inner := by
  obtain ⟨extent', listed, hway, hlisted, hinner⟩ := h
  exact ⟨extent', listed, .within hl hm hf hway, hlisted, hinner⟩

/-- What is true of all names on an image is true of those that lead somewhere. -/
theorem Way.forall_names {P : String → Prop}
    (hall : ∀ folders record, HasAt image framing extent folders record → P record.name)
    (h : Way image framing extent folders extent') : ∀ name ∈ folders, P name := by
  induction h with
  | here => simp
  | within hl hm hf _ ih =>
    intro name hn
    rcases List.mem_cons.mp hn with rfl | hn
    · exact hall [] _ ⟨_, _, .here, hl, hm⟩
    · exact ih (fun folders record h => hall _ record (h.within hl hm hf)) name hn

theorem HasAt.forall_names {P : String → Prop}
    (hall : ∀ folders record, HasAt image framing extent folders record → P record.name)
    (h : HasAt image framing extent folders record) :
    ∀ name ∈ folders ++ [record.name], P name := by
  have hrecord := hall folders record h
  obtain ⟨_, _, hway, _, _⟩ := h
  intro name hn
  rcases List.mem_append.mp hn with hn | hn
  · exact hway.forall_names hall name hn
  · rwa [List.mem_singleton.mp hn]

theorem HasAt.parts_pathOf
    (hall : ∀ folders record, HasAt image framing extent folders record → Single record.name)
    (h : HasAt image framing extent folders record) :
    Path.parts (pathOf (folders ++ [record.name])) =
      (folders ++ [record.name]).map Text.uppercase := by
  apply Disc.parts_pathOf (by simp)
  intro name hn
  exact (h.forall_names hall name hn).no_slash

/-- Names by which everything below a folder can be told apart, whatever their case. -/
structure ToldApart (image : Node) (framing : Framing) (extent : Extent) : Prop where
  single : ∀ folders record, HasAt image framing extent folders record → Single record.name
  distinct : ∀ folders extent' records, Way image framing extent folders extent' →
    Lists StartsZero image framing extent' records →
      ((named records).map fun record => Text.uppercase record.name).Nodup

theorem ToldApart.within (h : ToldApart image framing extent)
    (hl : Lists StartsZero image framing extent records) (hm : record ∈ named records)
    (hf : record.isFolder = true) : ToldApart image framing record.extent where
  single _ inner hhas := h.single _ inner (hhas.within hl hm hf)
  distinct _ _ _ hway hlisted := h.distinct _ _ _ (.within hl hm hf hway) hlisted

theorem ToldApart.eq_of_name (h : ToldApart image framing extent)
    (hl : Lists StartsZero image framing extent records) {record' : Record}
    (hm : record ∈ named records) (hm' : record' ∈ named records)
    (hn : Text.uppercase record.name = Text.uppercase record'.name) : record = record' :=
  List.inj_on_of_nodup_map (h.distinct [] extent records .here hl) hm hm' hn

/-- The same names lead to the same record. -/
theorem HasAt.unique {folders' : List String} {record' : Record}
    (h : HasAt image framing extent folders record)
    (h' : HasAt image framing extent folders' record') (ha : ToldApart image framing extent)
    (hn : (folders ++ [record.name]).map Text.uppercase =
      (folders' ++ [record'.name]).map Text.uppercase) : record = record' := by
  obtain ⟨inner, records, hway, hl, hm⟩ := h
  obtain ⟨inner', records', hway', hl', hm'⟩ := h'
  have hlength := congrArg List.length hn
  simp only [List.length_map, List.length_append, List.length_singleton] at hlength
  induction hway generalizing folders' with
  | here =>
    cases hway' with
    | here =>
      obtain rfl := hl.unique hl'
      exact ha.eq_of_name hl hm hm' (List.cons.inj hn).1
    | within => simp at hlength
  | within hlisted hfolder hf _ ih =>
    cases hway' with
    | here => simp at hlength
    | within hlisted' hfolder' _ hrest' =>
      obtain rfl := hlisted.unique hlisted'
      obtain ⟨hfirst, hrest⟩ := List.cons.inj hn
      obtain rfl := ha.eq_of_name hlisted hfolder hfolder' hfirst
      exact ih (ha.within hlisted hfolder hf) hrest hl hrest' (by simpa using hlength)

end

section
variable {host : Host} {path key : String} {node : Node} {framing : Framing} {root : Record}
  {image : Image} {extent : Extent} {b : Backend} {folders : List String} {record : Record}

/-- What a backend knows of an image that it opened. -/
theorem indexOf_of_ofImage (hfind : host.find path = .ok node)
    (hframed : Framing.ofNode node = .ok framing) (hroot : RootAt node framing root)
    (h : Backend.ofImage host path = .ok b) :
    ∃ found, b = .disc ⟨path, framing, found⟩ ∧
      IndexOf node framing root ⟨path, framing, found⟩ := by
  obtain ⟨image, himage, rfl⟩ := Except.map_eq_ok_iff.mp h
  obtain ⟨root', hroot', records, found, hl, hw, rfl⟩ := (mount_eq_ok_iff hfind hframed).mp himage
  obtain rfl := hroot.unique hroot'
  exact ⟨found, rfl, indexOf_walked hl hw⟩

/-- A file is kept under the path that the names lead to it by. -/
theorem IndexOf.exists_hasAt (h : IndexOf node framing root image)
    (hnames : ∀ folders record, HasAt node framing root.extent folders record → Single record.name)
    (hfile : image.fileAt? key = some extent) :
    ∃ folders record, HasAt node framing root.extent folders record ∧ record.isFolder = false ∧
      pathOf (folders ++ [record.name]) = key ∧ record.extent = extent := by
  obtain ⟨before, s, after, hsplit, hf, hkey, he, -⟩ := (h.files key extent).mp hfile
  have hs : s ∈ image.sightings := by simp [hsplit]
  obtain ⟨folders, hhas, hfold⟩ := metBelow_iff_hasAt.mp ((h.met s).mp hs)
  have hsingle := hhas.forall_names hnames
  have hfolders : ∀ name ∈ folders, name ≠ "" :=
    fun name hn => (hsingle name (List.mem_append_left _ hn)).ne_empty
  refine ⟨folders, s.record, hhas, hf, ?_, he⟩
  rw [pathOf_concat hfolders, ← foldl_pathIn hfolders, ← hfold, ← path_eq_pathIn, hkey]

theorem IndexOf.exists_fileAt?_of_hasAt (h : IndexOf node framing root image)
    (hhas : HasAt node framing root.extent folders record) (hf : record.isFolder = false)
    (hnames : ∀ name ∈ folders, name ≠ "") :
    ∃ extent, image.fileAt? (pathOf (folders ++ [record.name])) = some extent := by
  rw [h.known, pathOf_concat hnames, ← foldl_pathIn hnames]
  exact ⟨⟨_, record⟩, metBelow_iff_hasAt.mpr ⟨folders, hhas, rfl⟩, hf, rfl⟩

end
end LayeredAssets.Disc
