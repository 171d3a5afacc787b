import LayeredAssets.Proofs.ResourceMap.Merging

namespace LayeredAssets

/-- A record of the files of one data set, as it is written: its flags stand once, for all of its
archives, and every archive lists its files. -/
structure FileRecord where
  dataSet : String
  isPsx : Bool
  isAo : Bool
  scaleFrameOffsets : Bool
  archives : List (String × List String)

namespace FileRecord
open Json.Reader (string bool list)
open MapRecord (filesLayout archive holdsList)

/-- An archive with the flags of its record. -/
def holding (r : FileRecord) (archive : String) : Holding :=
  ⟨archive, r.isPsx, r.isAo, r.scaleFrameOffsets⟩

/-- The archives that list the file, in the order of the record. -/
def keeping (r : FileRecord) (file : String) : List Holding :=
  (r.archives.filter fun a => a.2.contains file).map fun a => r.holding a.1

def reader : Json.Reader FileRecord := fun j => do
  let cells ← MapRecord.cells filesLayout j
  return {
    dataSet := ← cells.required "data_set_name" string
    isPsx := ← cells.required "is_psx" bool
    isAo := ← cells.optional "is_ao" bool false
    scaleFrameOffsets := ← cells.optional "scale_frame_offsets" bool false
    archives := ← cells.required "lvls" (list archive) }

/-- What an object says of files, if that is what it is about: it lists archives, and no
animations, which would count first. -/
def ofMembers? (object : List (String × Json)) : Option FileRecord :=
  if holdsList object "lvls" && !holdsList object "anims" then
    (reader (.object (object.map fun m => (some m.1, m.2)))).toOption
  else none

def record (r : FileRecord) : MapRecord :=
  .files r.dataSet (r.archives.map fun a => (r.holding a.1, a.2))

/-- As a record is read, its flags are given to each of its archives. -/
theorem readFiles_eq (j : Json) : MapRecord.readFiles j = (reader j).map record := by
  unfold MapRecord.readFiles reader
  cases MapRecord.cells filesLayout j with
  | error complaint => rfl
  | ok cells =>
    simp only [bind, Except.bind]
    cases cells.required "data_set_name" string with
    | error complaint => rfl
    | ok dataSet =>
      cases cells.required "is_psx" bool with
      | error complaint => rfl
      | ok isPsx =>
        cases cells.optional "is_ao" bool false with
        | error complaint => rfl
        | ok isAo =>
          cases cells.optional "scale_frame_offsets" bool false with
          | error complaint => rfl
          | ok scale =>
            cases cells.required "lvls" (list archive) with
            | error complaint => rfl
            | ok archives => rfl

theorem keeping_record (r : FileRecord) (dataSet file : String) :
    (Declared.ofRecord r.record).keeping dataSet file =
      if r.dataSet == dataSet then r.keeping file else [] := by
  simp only [Declared.keeping, record, Declared.ofRecord, List.map_map, List.filter_map]
  cases hset : r.dataSet == dataSet with
  | true =>
    simp only [Function.comp_def, hset, Bool.true_and]
    rfl
  | false => simp [Function.comp_def, hset]

theorem exists_animations {j : Json} {record : MapRecord}
    (h : MapRecord.readAnimations j = .ok record) : ∃ named, record = .animations named := by
  obtain ⟨cells, -, h⟩ := Except.bind_eq_ok_iff.mp h
  obtain ⟨name, -, h⟩ := Except.bind_eq_ok_iff.mp h
  obtain ⟨id, -, h⟩ := Except.bind_eq_ok_iff.mp h
  obtain ⟨named, -, h⟩ := Except.bind_eq_ok_iff.mp h
  exact ⟨_, (Except.ok.inj h).symm⟩

theorem exists_only {α : Type} {title key : String} {reader : Json.Reader α}
    {make : List α → MapRecord} {j : Json} {record : MapRecord}
    (h : MapRecord.only title key reader make j = .ok record) : ∃ listed, record = make listed := by
  obtain ⟨cells, -, h⟩ := Except.bind_eq_ok_iff.mp h
  obtain ⟨listed, -, h⟩ := Except.bind_eq_ok_iff.mp h
  exact ⟨listed, (Except.ok.inj h).symm⟩

/-- No other reader gives a record of files. -/
theorem keeping_of_reader {entry : String × Json.Reader MapRecord} (hm : entry ∈ MapRecord.readers)
    (hkey : entry.1 ≠ "lvls") {j : Json} {record : MapRecord} (h : entry.2 j = .ok record)
    (dataSet file : String) : (Declared.ofRecord record).keeping dataSet file = [] := by
  simp only [MapRecord.readers, List.mem_cons, List.not_mem_nil, or_false] at hm
  rcases hm with rfl | rfl | rfl | rfl | rfl | rfl | rfl
  · obtain ⟨named, rfl⟩ := exists_animations h
    rfl
  · exact absurd rfl hkey
  all_goals
    obtain ⟨listed, rfl⟩ := exists_only h
    rfl

/-- Only an object that is read as a record of files declares archives for a file. -/
theorem keeping_of_read {object : List (String × Json)} {record : MapRecord}
    (h : MapRecord.ofMembers object = .ok record) (dataSet file : String) :
    (Declared.ofRecord record).keeping dataSet file =
      ((ofMembers? object).toList.filter fun r => r.dataSet == dataSet).flatMap
        fun r => r.keeping file := by
  unfold MapRecord.ofMembers at h
  cases hanims : holdsList object "anims" with
  | true =>
    have hfind : MapRecord.readers.find? (fun entry => holdsList object entry.1) =
        some ("anims", MapRecord.readAnimations) := by simp [MapRecord.readers, hanims]
    rw [hfind] at h
    have hnone : ofMembers? object = none := by simp [ofMembers?, hanims]
    rw [hnone, keeping_of_reader (List.mem_of_find?_eq_some hfind) (by decide) h]
    rfl
  | false =>
    cases hlvls : holdsList object "lvls" with
    | true =>
      have hfind : MapRecord.readers.find? (fun entry => holdsList object entry.1) =
          some ("lvls", MapRecord.readFiles) := by simp [MapRecord.readers, hanims, hlvls]
      rw [hfind] at h
      simp only [readFiles_eq] at h
      obtain ⟨r, hr, rfl⟩ := Except.map_eq_ok_iff.mp h
      have hsome : ofMembers? object = some r := by
        simp [ofMembers?, hanims, hlvls, hr, Except.toOption]
      rw [hsome, keeping_record, Option.toList_some, List.filter_singleton]
      cases r.dataSet == dataSet with
      | true => exact (List.append_nil _).symm
      | false => rfl
    | false =>
      have hnone : ofMembers? object = none := by simp [ofMembers?, hlvls]
      rw [hnone]
      cases hfind : MapRecord.readers.find? (fun entry => holdsList object entry.1) with
      | none =>
        rw [hfind] at h
        cases h
        rfl
      | some entry =>
        rw [hfind] at h
        have hheld := List.find?_some hfind
        have hkey : entry.1 ≠ "lvls" := by
          intro he
          rw [he, hlvls] at hheld
          cases hheld
        exact keeping_of_reader (List.mem_of_find?_eq_some hfind) hkey h dataSet file

end FileRecord

theorem Declared.keeping_cons (record : MapRecord) (records : List MapRecord)
    (dataSet file : String) :
    (ofRecords (record :: records)).keeping dataSet file =
      (ofRecord record).keeping dataSet file ++ (ofRecords records).keeping dataSet file := by
  simp only [keeping, ofRecords, List.flatMap_cons, List.filter_append, List.map_append]

namespace ResourceMap

/-- What of a catalog goes into the map: the objects that are well-formed records, up to the first
that is none. -/
def addedObjects (text : String) : List (List (String × Json)) :=
  match Json.Document.readAs catalogReader text with
  | .error _ => []
  | .ok objects => objects.takeWhile fun object => (MapRecord.ofMembers object).toOption.isSome

theorem exists_added (objects : List (List (String × Json))) : ∃ records,
    ReadAs (objects.takeWhile fun object => (MapRecord.ofMembers object).toOption.isSome) records ∧
      ∀ m index, (addRecords m index objects).1 = records.foldl add m := by
  induction objects with
  | nil => exact ⟨[], .nil, fun _ _ => rfl⟩
  | cons object objects ih =>
    cases hread : MapRecord.ofMembers object with
    | error complaint =>
      refine ⟨[], ?_, ?_⟩
      · rw [List.takeWhile_cons, hread]
        exact .nil
      · intro m index
        rw [addRecords, hread]
        rfl
    | ok record =>
      obtain ⟨records, hrecords, hadd⟩ := ih
      refine ⟨record :: records, ?_, ?_⟩
      · rw [List.takeWhile_cons, hread]
        exact .cons hread hrecords
      · intro m index
        rw [addRecords, hread, List.foldl_cons]
        exact hadd _ _

theorem exists_extended (text : String) : ∃ records, ReadAs (addedObjects text) records ∧
    ∀ (m : ResourceMap) file, (m.extend file text).1 = records.foldl add m := by
  unfold addedObjects
  cases hread : Json.Document.readAs catalogReader text with
  | error complaint =>
    refine ⟨[], .nil, ?_⟩
    intro m file
    rw [extend, hread]
    rfl
  | ok objects =>
    obtain ⟨records, hrecords, hadd⟩ := exists_added objects
    refine ⟨records, hrecords, ?_⟩
    intro m file
    rw [extend_of_array (readAs_catalogReader.mp hread)]
    exact hadd m 0

/-- Catalogs one after the other. -/
def extendAll (m : ResourceMap) (catalogs : List (String × String)) : ResourceMap :=
  catalogs.foldl (fun m catalog => (m.extend catalog.1 catalog.2).1) m

theorem exists_extendedAll (catalogs : List (String × String)) : ∃ records,
    ReadAs (catalogs.flatMap fun catalog => addedObjects catalog.2) records ∧
      ∀ m : ResourceMap, m.extendAll catalogs = records.foldl add m := by
  induction catalogs with
  | nil => exact ⟨[], .nil, fun _ => rfl⟩
  | cons catalog catalogs ih =>
    obtain ⟨records, hrecords, hadd⟩ := exists_extended catalog.2
    obtain ⟨more, hmore, hrest⟩ := ih
    refine ⟨records ++ more, List.rel_append hrecords hmore, ?_⟩
    intro m
    rw [List.foldl_append, ← hadd m catalog.1, ← hrest]
    rfl

theorem keeping_of_readAs {objects : List (List (String × Json))} {records : List MapRecord}
    (h : ReadAs objects records) (dataSet file : String) :
    (Declared.ofRecords records).keeping dataSet file =
      ((objects.filterMap FileRecord.ofMembers?).filter fun r => r.dataSet == dataSet).flatMap
        fun r => r.keeping file := by
  induction h with
  | nil => rfl
  | @cons object record objects records h _ ih =>
    rw [Declared.keeping_cons, FileRecord.keeping_of_read h, ih, ← List.flatMap_append,
      ← List.filter_append, List.filterMap_cons]
    cases FileRecord.ofMembers? object with
    | none => rfl
    | some r => rfl

theorem withNew_nil (added : List Holding) : withNew [] added = added.eraseDupsBy sameArchive := by
  simp [withNew]

/-- What a map tells of a file is what the catalogs declare, turned around: in the order in which
the archives stand there, and every archive as it came first. -/
theorem holdings_invert_catalogs (catalogs : List (String × String)) (dataSet file : String) :
    (empty.extendAll catalogs).holdings dataSet file =
      ((((catalogs.flatMap fun catalog => addedObjects catalog.2).filterMap
          FileRecord.ofMembers?).filter fun r => r.dataSet == dataSet).flatMap fun r =>
            (r.archives.filter fun a => a.2.contains file).map fun a => r.holding a.1).eraseDupsBy
        fun a b => a.archive == b.archive := by
  obtain ⟨records, hrecords, hadd⟩ := exists_extendedAll catalogs
  have hmerged := merged_foldl_add empty records
  rw [hadd, hmerged.holdings, keeping_of_readAs hrecords]
  exact withNew_nil _

end ResourceMap
end LayeredAssets
