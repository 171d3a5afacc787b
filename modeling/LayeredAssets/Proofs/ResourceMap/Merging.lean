import LayeredAssets.Proofs.Json.Objects
import LayeredAssets.Proofs.ResourceMap.Declared

namespace LayeredAssets

namespace ResourceMap
open Json (ArrayOf)

/-- The objects of a catalog as the records that they are read as. -/
def ReadAs (objects : List (List (String × Json))) (records : List MapRecord) : Prop :=
  List.Forall₂ (fun object record => MapRecord.ofMembers object = .ok record) objects records

section
variable {text : String} {objects before : List (List (String × Json))}
  {bad : List (String × Json)} {records : List MapRecord} {complaint : Json.Complaint}

theorem readAs_catalogReader :
    Json.Document.readAs catalogReader text = .ok objects ↔ ArrayOf text objects :=
  Json.readAs_objects_iff

theorem addRecords_append (h : ReadAs before records) (m : ResourceMap) (index : Nat)
    (after : List (List (String × Json))) :
    m.addRecords index (before ++ after) =
      (records.foldl add m).addRecords (index + before.length) after := by
  induction h generalizing m index with
  | nil => rfl
  | cons h _ ih =>
    rw [List.cons_append, addRecords, h]
    simp only [ih, List.foldl_cons, List.length_cons, Nat.add_right_comm, Nat.add_assoc]

theorem addRecords_of_read (h : ReadAs objects records) (m : ResourceMap) (index : Nat) :
    m.addRecords index objects = (records.foldl add m, .ok ()) := by
  have hall := addRecords_append h m index []
  rwa [List.append_nil] at hall

theorem addRecords_malformed (h : ReadAs before records)
    (hbad : MapRecord.ofMembers bad = .error complaint) (m : ResourceMap) (index : Nat)
    (after : List (List (String × Json))) :
    m.addRecords index (before ++ bad :: after) =
      (records.foldl add m, .error (.record (index + before.length) complaint)) := by
  rw [addRecords_append h, addRecords, hbad]

theorem extend_of_array (h : ArrayOf text objects) (m : ResourceMap) (file : String) :
    m.extend file text = ((m.addRecords 0 objects).1,
      (m.addRecords 0 objects).2.mapError (.config file)) := by
  rw [extend, readAs_catalogReader.mpr h]

theorem extend_of_no_array (h : ∀ objects, ¬ ArrayOf text objects) (m : ResourceMap)
    (file : String) : ∃ complaint, m.extend file text = (m, .error (.config file (.text complaint))) := by
  rw [extend]
  cases hread : Json.Document.readAs catalogReader text with
  | error complaint => exact ⟨complaint, rfl⟩
  | ok objects => exact absurd (readAs_catalogReader.mp hread) (h objects)

theorem extend_of_read (h : ArrayOf text objects) (hr : ReadAs objects records)
    (m : ResourceMap) (file : String) : m.extend file text = (records.foldl add m, .ok ()) := by
  rw [extend_of_array h, addRecords_of_read hr]
  rfl

theorem extend_malformed (h : ArrayOf text (before ++ bad :: after)) (hr : ReadAs before records)
    (hbad : MapRecord.ofMembers bad = .error complaint) (m : ResourceMap) (file : String) :
    m.extend file text =
      (records.foldl add m, .error (.config file (.record before.length complaint))) := by
  rw [extend_of_array h, addRecords_malformed hr hbad, Nat.zero_add]
  rfl

theorem exists_readAs (h : ∀ object ∈ objects, ∃ record, MapRecord.ofMembers object = .ok record) :
    ∃ records, ReadAs objects records := by
  induction objects with
  | nil => exact ⟨[], .nil⟩
  | cons object objects ih =>
    obtain ⟨hobject, hobjects⟩ := List.forall_mem_cons.mp h
    obtain ⟨record, hrecord⟩ := hobject
    obtain ⟨records, hrecords⟩ := ih hobjects
    exact ⟨record :: records, .cons hrecord hrecords⟩

end

/-- A catalog goes into the map record by record: a text that is no array of objects leaves it as it
was, and a malformed record is told by its number and leaves what stands before it. So a catalog may
be cut between any two records. -/
theorem extend_by_records (m : ResourceMap) (file text : String) :
    ((∀ objects, ¬ ArrayOf text objects) →
        ∃ complaint, m.extend file text = (m, .error (.config file (.text complaint)))) ∧
      (∀ before bad after records complaint, ArrayOf text (before ++ bad :: after) →
        ReadAs before records → MapRecord.ofMembers bad = .error complaint →
          m.extend file text =
              (records.foldl add m, .error (.config file (.record before.length complaint))) ∧
            Merged m (.ofRecords records) (records.foldl add m)) ∧
      (∀ objects records, ArrayOf text objects → ReadAs objects records →
        m.extend file text = (records.foldl add m, .ok ()) ∧
          Merged m (.ofRecords records) (records.foldl add m)) ∧
      ∀ firstFile first secondFile second before after, ArrayOf first before →
        ArrayOf second after → ArrayOf text (before ++ after) →
        (∀ object ∈ before ++ after, ∃ record, MapRecord.ofMembers object = .ok record) →
          (m.extend firstFile first).2 = .ok () ∧
            (m.extend firstFile first).1.extend secondFile second = m.extend file text := by
  refine ⟨?_, ?_, ?_, ?_⟩
  · intro h
    exact extend_of_no_array h m file
  · intro before bad after records complaint h hr hbad
    exact ⟨extend_malformed h hr hbad m file, merged_foldl_add m records⟩
  · intro objects records h hr
    exact ⟨extend_of_read h hr m file, merged_foldl_add m records⟩
  · intro firstFile first secondFile second before after hfirst hsecond hboth hall
    obtain ⟨hbefore, hafter⟩ := List.forall_mem_append.mp hall
    obtain ⟨records, hrecords⟩ := exists_readAs hbefore
    obtain ⟨more, hmore⟩ := exists_readAs hafter
    have hread : ReadAs (before ++ after) (records ++ more) := List.rel_append hrecords hmore
    rw [extend_of_read hfirst hrecords, extend_of_read hsecond hmore, extend_of_read hboth hread,
      List.foldl_append]
    exact ⟨rfl, rfl⟩

def walkText (id : String) : String :=
  "\x7b\"file\":\"ABE.BAN\",\"id\":" ++ id ++ ",\"anims\":[[\"walk\",1]]\x7d"

def walkMembers (id : Nat) : List (Option String × Json) :=
  [(some (.ofList "file".toList), .string (.ofList "ABE.BAN".toList)),
    (some (.ofList "id".toList), .integer id),
    (some (.ofList "anims".toList),
      .array [.array [.string (.ofList "walk".toList), .integer 1]])]

def walkRecord (id : UInt32) : MapRecord := .animations [("walk", ⟨"ABE.BAN", id, 1⟩)]

/-- A record that does not say which file its animations are in. -/
def filelessMembers : List (Option String × Json) := [(some (.ofList "anims".toList), .array [])]

theorem extend_by_records_walk :
    (∃ complaint, empty.extend "map" "\x7b\x7d" =
        (empty, .error (.config "map" (.text complaint)))) ∧
      empty.extend "map" ("[" ++ walkText "7" ++ ",\x7b\"anims\":[]\x7d]") =
        (empty.add (walkRecord 7), .error (.config "map" (.record 1 (.missing "file")))) ∧
      empty.extend "map" ("[" ++ walkText "7" ++ "," ++ walkText "8" ++ "]") =
        ((empty.add (walkRecord 7)).add (walkRecord 8), .ok ()) ∧
      (empty.extend "first" ("[" ++ walkText "7" ++ "]")).1.extend "second"
          ("[" ++ walkText "8" ++ "]") =
        empty.extend "map" ("[" ++ walkText "7" ++ "," ++ walkText "8" ++ "]") := by
  have h7 : MapRecord.ofMembers (Json.named (walkMembers 7)) = .ok (walkRecord 7) := by
    decide +kernel
  have h8 : MapRecord.ofMembers (Json.named (walkMembers 8)) = .ok (walkRecord 8) := by
    decide +kernel
  have hfileless : MapRecord.ofMembers (Json.named filelessMembers) = .error (.missing "file") := by
    decide +kernel
  have hbroken : ArrayOf ("[" ++ walkText "7" ++ ",\x7b\"anims\":[]\x7d]")
      ([walkMembers 7, filelessMembers].map Json.named) := .intro (by rfl) (by decide +kernel)
  have hboth : ArrayOf ("[" ++ walkText "7" ++ "," ++ walkText "8" ++ "]")
      ([walkMembers 7, walkMembers 8].map Json.named) := .intro (by rfl) (by decide +kernel)
  have hfirst : ArrayOf ("[" ++ walkText "7" ++ "]") ([walkMembers 7].map Json.named) :=
    .intro (by rfl) (by decide +kernel)
  have hsecond : ArrayOf ("[" ++ walkText "8" ++ "]") ([walkMembers 8].map Json.named) :=
    .intro (by rfl) (by decide +kernel)
  have hnone : ∀ objects, ¬ ArrayOf "\x7b\x7d" objects := by
    intro objects h
    cases (readAs_catalogReader.mpr h : Except.error _ = _)
  have hread : ∀ object ∈ [walkMembers 7, walkMembers 8].map Json.named,
      ∃ record, MapRecord.ofMembers object = .ok record :=
    List.forall_mem_cons.mpr ⟨⟨_, h7⟩, List.forall_mem_singleton.mpr ⟨_, h8⟩⟩
  have htext := extend_by_records empty "map" ("[" ++ walkText "7" ++ "," ++ walkText "8" ++ "]")
  refine ⟨(extend_by_records empty "map" "\x7b\x7d").1 hnone, ?_, ?_, ?_⟩
  · exact ((extend_by_records empty "map" _).2.1 _ _ [] [walkRecord 7] _ hbroken
      (.cons h7 .nil) hfileless).1
  · exact (htext.2.2.1 _ [walkRecord 7, walkRecord 8] hboth (.cons h7 (.cons h8 .nil))).1
  · exact (htext.2.2.2 "first" _ "second" _ _ _ hfirst hsecond hboth hread).2

end ResourceMap
end LayeredAssets
