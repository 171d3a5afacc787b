import LayeredAssets.Proofs.Disc.Extents
import LayeredAssets.Proofs.Disc.Records

namespace LayeredAssets

theorem Bytes.split_of_slice? {bytes part : Bytes} {count : Nat}
    (h : bytes.slice? 0 count = some part) :
    part.length = count ∧ bytes = part ++ bytes.drop count := by
  refine ⟨(slice?_eq_some_iff.mp h).1, ?_⟩
  unfold slice? at h
  dsimp only at h
  split at h
  · obtain rfl := Option.some.inj h
    rw [List.drop_zero, List.take_append_drop]
  · cases h

namespace Disc

/-- A record is as long as its first byte says and there to its end, with an identifier that ends
within the bytes. -/
structure WellFormed (bytes : Bytes) : Prop where
  least : 34 ≤ (bytes.getD 0 0).toNat
  whole : (bytes.getD 0 0).toNat ≤ bytes.length
  identified : 33 + (bytes.getD 32 0).toNat ≤ bytes.length

/-- What the bytes of a record say. -/
def recordOf (bytes : Bytes) : Record where
  name := recordName ((bytes.drop 33).take (bytes.getD 32 0).toNat)
  extent := ⟨Bytes.toNat ((bytes.drop 2).take 4), Bytes.toNat ((bytes.drop 10).take 4)⟩
  isFolder := (bytes.getD 25 0).toNat / 2 % 2 = 1

/-- How an extent lists records, where so many bytes stand before what is left of it: one after the
other, and `Padding` up to the end of a sector or of the extent. -/
inductive RecordsIn (Padding : Bytes → Prop) : (before : Nat) → Bytes → List Record → Prop
  | done {before} : RecordsIn Padding before [] []
  | padding {before gap rest records} (hp : Padding gap)
    (hl : gap.length = min (sectorSize - before % sectorSize) (gap ++ rest).length)
    (h : RecordsIn Padding (before + (sectorSize - before % sectorSize)) rest records) :
    RecordsIn Padding before (gap ++ rest) records
  | record {before part rest records} (hw : WellFormed part)
    (hl : part.length = (part.getD 0 0).toNat)
    (h : RecordsIn Padding (before + part.length) rest records) :
    RecordsIn Padding before (part ++ rest) (recordOf part :: records)

/-- How records stand in an extent, before anything is read of them. -/
inductive PartsIn (Padding : Bytes → Prop) : (before : Nat) → Bytes → List Bytes → Prop
  | done {before} : PartsIn Padding before [] []
  | padding {before gap rest parts} (hp : Padding gap)
    (hl : gap.length = min (sectorSize - before % sectorSize) (gap ++ rest).length)
    (h : PartsIn Padding (before + (sectorSize - before % sectorSize)) rest parts) :
    PartsIn Padding before (gap ++ rest) parts
  | part {before part rest parts} (hw : WellFormed part)
    (hl : part.length = (part.getD 0 0).toNat)
    (h : PartsIn Padding (before + part.length) rest parts) :
    PartsIn Padding before (part ++ rest) (part :: parts)

/-- A zero where the length of a record would stand makes padding of the rest of its sector. -/
def StartsZero (gap : Bytes) : Prop := gap.head? = some 0

/-- The records that stand in the extent of a folder. -/
def Lists (Padding : Bytes → Prop) (image : Node) (framing : Framing) (extent : Extent)
    (records : List Record) : Prop :=
  ∃ bytes, Holds image framing extent bytes ∧ RecordsIn Padding 0 bytes records

section
variable {Padding : Bytes → Prop} {bytes part rest : Bytes} {record : Record}
  {records : List Record} {before : Nat}

theorem parseRecord_eq_some_iff :
    parseRecord bytes = some record ↔ WellFormed bytes ∧ record = recordOf bytes := by
  cases bytes with
  | nil => exact iff_of_false nofun fun h => absurd h.1.least (by decide)
  | cons length tail =>
    have hidentifier : (((length :: tail).drop 33).take
        ((length :: tail).getD 32 0).toNat).length = ((length :: tail).getD 32 0).toNat ↔
        33 + ((length :: tail).getD 32 0).toNat ≤ (length :: tail).length ∨
          ((length :: tail).getD 32 0).toNat = 0 := by
      rw [List.length_take, List.length_drop]
      omega
    unfold parseRecord
    simp only [List.head?_cons, Option.bind_eq_bind, Option.bind_some]
    split
    · next hbad =>
      refine iff_of_false nofun fun h => ?_
      have hleast : 34 ≤ length.toNat := h.1.least
      have hwhole : length.toNat ≤ (length :: tail).length := h.1.whole
      unfold leastRecord at hbad
      omega
    · next hgood =>
      rw [not_or, Nat.not_lt, Nat.not_lt, leastRecord] at hgood
      unfold Bytes.slice?
      dsimp only
      split
      · next hl =>
        have hw : WellFormed (length :: tail) := by
          refine ⟨hgood.1, hgood.2, ?_⟩
          have := hidentifier.mp hl
          omega
        rw [Option.bind_some]
        constructor
        · intro h
          exact ⟨hw, (Option.some.inj h).symm⟩
        · rintro ⟨_, rfl⟩
          rfl
      · next hl =>
        exact iff_of_false nofun fun h => hl (hidentifier.mpr (Or.inl h.1.identified))

theorem recordsIn_iff : RecordsIn Padding before bytes records ↔
    ∃ parts, PartsIn Padding before bytes parts ∧ parts.map recordOf = records := by
  constructor
  · intro h
    induction h with
    | done => exact ⟨[], .done, rfl⟩
    | padding hp hl _ ih =>
      obtain ⟨parts, hparts, hr⟩ := ih
      exact ⟨parts, .padding hp hl hparts, hr⟩
    | record hw hl _ ih =>
      obtain ⟨parts, hparts, rfl⟩ := ih
      exact ⟨_ :: parts, .part hw hl hparts, rfl⟩
  · intro h
    obtain ⟨parts, hparts, rfl⟩ := h
    induction hparts with
    | done => exact .done
    | padding hp hl _ ih => exact .padding hp hl ih
    | part hw hl _ ih => exact .record hw hl ih

/-- A record that is as long as it says is read, and the rest after it. -/
theorem parseRecords_part (hw : WellFormed part) (hl : part.length = (part.getD 0 0).toNat) :
    parseRecords before (part ++ rest) =
      (recordOf part :: (parseRecords (before + part.length) rest).1,
        (parseRecords (before + part.length) rest).2) := by
  have hleast := hw.least
  have hparse := parseRecord_eq_some_iff.mpr ⟨hw, rfl⟩
  have hslice : Bytes.slice? (part ++ rest) 0 part.length = some part := by
    unfold Bytes.slice?
    rw [List.drop_zero, List.take_left' rfl]
    exact if_pos rfl
  cases part with
  | nil => exact absurd hleast (by decide)
  | cons length tail =>
    have hlen : length.toNat = (length :: tail).length := hl.symm
    have hpos : ¬ length.toNat = 0 := by
      rw [hlen, List.length_cons]
      omega
    rw [List.cons_append, parseRecords, if_neg hpos, ← List.cons_append, hlen, hslice,
      List.drop_left' rfl]
    dsimp only
    rw [hparse]

theorem parseRecords_zero (before : Nat) (rest : Bytes) :
    parseRecords before (0 :: rest) = parseRecords (before + (sectorSize - before % sectorSize))
      ((0 :: rest).drop (sectorSize - before % sectorSize)) := by
  rw [parseRecords, if_pos (show (0 : UInt8).toNat = 0 from rfl)]

/-- What starts with a zero is passed over up to the end of the sector. -/
theorem parseRecords_gap {gap : Bytes} (hp : StartsZero gap)
    (hl : gap.length = min (sectorSize - before % sectorSize) (gap ++ rest).length) :
    parseRecords before (gap ++ rest) =
      parseRecords (before + (sectorSize - before % sectorSize)) rest := by
  have hdrop : (gap ++ rest).drop (sectorSize - before % sectorSize) = rest := by
    rw [List.length_append] at hl
    rcases Nat.le_total (sectorSize - before % sectorSize) (gap.length + rest.length) with hle | hle
    · exact List.drop_left' (hl.trans (Nat.min_eq_left hle))
    · obtain rfl : rest = [] := List.eq_nil_of_length_eq_zero (by omega)
      exact List.drop_eq_nil_of_le (by rwa [List.length_append])
  cases gap with
  | nil => cases hp
  | cons first tail =>
    obtain rfl := Option.some.inj hp
    rw [List.cons_append, parseRecords_zero, ← List.cons_append, hdrop]

theorem parseRecords_eq_iff :
    parseRecords before bytes = (records, true) ↔ RecordsIn StartsZero before bytes records := by
  constructor
  · intro h
    induction before, bytes using parseRecords.induct generalizing records with
    | case1 before =>
      rw [parseRecords] at h
      cases h
      exact .done
    | case2 before length rest hz skipped =>
      rename_i ih
      rw [parseRecords, if_pos hz] at h
      have hs : before % sectorSize < sectorSize := Nat.mod_lt _ (by decide)
      obtain rfl : length = 0 := UInt8.toNat_inj.mp hz
      rw [← List.take_append_drop (sectorSize - before % sectorSize) (0 :: rest)]
      refine .padding ?_ ?_ (ih h)
      · rw [StartsZero, List.head?_take, if_neg (by omega)]
        rfl
      · rw [List.take_append_drop, List.length_take]
    | case3 before length rest hz hslice =>
      rw [parseRecords, if_neg hz, hslice] at h
      cases h
    | case4 before length rest hz part hslice hparse =>
      rw [parseRecords, if_neg hz, hslice] at h
      dsimp only at h
      rw [hparse] at h
      cases h
    | case5 before length rest hz part hslice record hparse others =>
      rename_i ih
      obtain ⟨hw, rfl⟩ := parseRecord_eq_some_iff.mp hparse
      obtain ⟨hlen, hsplit⟩ := Bytes.split_of_slice? hslice
      generalize (length :: rest).drop length.toNat = behind at hsplit ih
      have hl : part.length = (part.getD 0 0).toNat := by
        cases part with
        | nil => exact absurd hlen.symm hz
        | cons first tail =>
          obtain ⟨rfl, _⟩ := List.cons.inj hsplit
          exact hlen
      rw [hsplit, parseRecords_part hw hl] at h
      obtain ⟨rfl, hsound⟩ := Prod.mk.inj h
      rw [← hlen] at ih
      rw [hsplit]
      exact .record hw hl (ih (Prod.ext rfl hsound))
  · intro h
    induction h with
    | done => rw [parseRecords]
    | padding hp hl _ ih => rw [parseRecords_gap hp hl, ih]
    | record hw hl _ ih => rw [parseRecords_part hw hl, ih]

end

theorem Recorded.recordOf_bytes (r : Recorded) :
    WellFormed r.bytes ∧ r.record = recordOf r.bytes := by
  have hparse := r.parseRecord_bytes []
  rw [List.append_nil] at hparse
  exact parseRecord_eq_some_iff.mp hparse

theorem startsZero_replicate {count : Nat} (h : 0 < count) :
    StartsZero (List.replicate count 0) := by
  rw [StartsZero, List.head?_replicate, if_neg (by omega)]

theorem Packed.partsIn {before : Nat} {records : List Recorded} {bytes : Bytes}
    (h : Packed before records bytes) :
    PartsIn StartsZero before bytes (records.map Recorded.bytes) := by
  induction h with
  | @last before count hc =>
    rcases Nat.eq_zero_or_pos count with rfl | hpos
    · exact .done
    · rw [← List.append_nil (List.replicate count 0)]
      refine .padding (startsZero_replicate hpos) ?_ .done
      rw [List.append_nil, List.length_replicate, Nat.min_eq_right hc]
  | @padding before records bytes _ ih =>
    have hs : before % sectorSize < sectorSize := Nat.mod_lt _ (by decide)
    refine .padding (startsZero_replicate (by omega)) ?_ ih
    rw [List.length_append, List.length_replicate, Nat.min_eq_left (Nat.le_add_right _ _)]
  | record r _ _ ih =>
    refine .part r.recordOf_bytes.1 ?_ ih
    rw [r.length_bytes]
    exact r.toNat_first.symm

/-- Packed records are listed, whatever stands in them that nobody reads. -/
theorem Packed.recordsIn {before : Nat} {records : List Recorded} {bytes : Bytes}
    (h : Packed before records bytes) :
    RecordsIn StartsZero before bytes (records.map Recorded.record) := by
  have hread : ∀ r : Recorded, recordOf r.bytes = r.record := fun r => r.recordOf_bytes.2.symm
  exact recordsIn_iff.mpr ⟨_, h.partsIn, by simp [hread]⟩

theorem Packed.parseRecords {before : Nat} {records : List Recorded} {bytes : Bytes}
    (h : Packed before records bytes) :
    parseRecords before bytes = (records.map Recorded.record, true) :=
  parseRecords_eq_iff.mpr h.recordsIn

section
variable {image : Node} {framing : Framing} {extent : Extent} {records records' : List Record}

theorem lists_iff : Lists StartsZero image framing extent records ↔
    ∃ bytes, readExtent image framing extent = .ok bytes ∧
      parseRecords 0 bytes = (records, true) := by
  simp only [Lists, readExtent_eq_ok_iff, parseRecords_eq_iff]

theorem Lists.unique (h : Lists StartsZero image framing extent records)
    (h' : Lists StartsZero image framing extent records') : records = records' := by
  obtain ⟨bytes, hread, hparse⟩ := lists_iff.mp h
  obtain ⟨bytes', hread', hparse'⟩ := lists_iff.mp h'
  obtain rfl := Except.ok.inj (hread.symm.trans hread')
  exact (Prod.mk.inj (hparse.symm.trans hparse')).1

end
end Disc
end LayeredAssets
