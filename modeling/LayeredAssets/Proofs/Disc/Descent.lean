import LayeredAssets.Proofs.Disc.Volume
import Mathlib.Logic.Relation

namespace LayeredAssets.Disc

/-- A folder lies so deep below another, as the records tell that lead from one to the next. -/
inductive Below (Padding : Bytes → Prop) (image : Node) (framing : Framing) :
    (folder : String) → Extent → (depth : Nat) → (folder' : String) → Extent → Prop
  | here {folder extent} : Below Padding image framing folder extent 0 folder extent
  | within {folder extent depth folder' extent' records record}
    (hl : Lists Padding image framing extent records) (hm : record ∈ named records)
    (hf : record.isFolder = true)
    (h : Below Padding image framing (Sighting.path ⟨folder, record⟩) record.extent depth folder'
      extent') : Below Padding image framing folder extent (depth + 1) folder' extent'

/-- One folder has a record of the other. -/
def Nested (image : Node) (framing : Framing) (extent extent' : Extent) : Prop :=
  ∃ records, Lists StartsZero image framing extent records ∧
    ∃ record ∈ named records, record.isFolder = true ∧ record.extent = extent'

/-- A record that is met in some folder below. -/
def MetBelow (image : Node) (framing : Framing) (folder : String) (extent : Extent)
    (s : Sighting) : Prop :=
  ∃ depth extent' records, Below StartsZero image framing folder extent depth s.folder extent' ∧
    Lists StartsZero image framing extent' records ∧ s.record ∈ named records

/-- The order of a walk: record after record, and below a folder everything that it holds before
its next neighbour. So many levels of folders at most lie below. -/
inductive Walked (image : Node) (framing : Framing) :
    (levels : Nat) → (folder : String) → List Record → List Sighting → Prop
  | done {levels folder} : Walked image framing levels folder [] []
  | file {levels folder record records found} (hf : record.isFolder = false)
    (h : Walked image framing levels folder records found) :
    Walked image framing levels folder (record :: records) (⟨folder, record⟩ :: found)
  | folder {levels folder record records found listed inner} (hf : record.isFolder = true)
    (hl : Lists StartsZero image framing record.extent listed)
    (hi : Walked image framing levels (Sighting.path ⟨folder, record⟩) (named listed) inner)
    (h : Walked image framing (levels + 1) folder records found) :
    Walked image framing (levels + 1) folder (record :: records)
      (⟨folder, record⟩ :: (inner ++ found))

section
variable {image : Node} {framing : Framing} {levels : Nat} {folder : String} {extent : Extent}
  {record : Record} {records : List Record} {found : List Sighting}

theorem visit_eq_ok_iff {part : List Sighting} :
    visit image framing levels folder record = .ok part ↔
      record.isFolder = false ∧ part = [⟨folder, record⟩] ∨
      record.isFolder = true ∧ ∃ inner, walk image framing levels (Sighting.path ⟨folder, record⟩)
        record.extent = .ok inner ∧ part = ⟨folder, record⟩ :: inner := by
  unfold visit
  cases record.isFolder with
  | false =>
    simp only [Bool.false_eq_true, ↓reduceIte, true_and, false_and, or_false]
    exact ⟨fun h => (Except.ok.inj h).symm, fun h => h ▸ rfl⟩
  | true =>
    simp only [↓reduceIte, Bool.true_eq_false, true_and, false_and, false_or]
    constructor
    · intro h
      obtain ⟨inner, hinner, h⟩ := Except.bind_eq_ok_iff.mp h
      exact ⟨inner, hinner, (Except.ok.inj h).symm⟩
    · rintro ⟨inner, hinner, rfl⟩
      rw [hinner]
      rfl

theorem walk_succ_eq_ok_iff : walk image framing (levels + 1) folder extent = .ok found ↔
    ∃ records, Lists StartsZero image framing extent records ∧ ∃ parts,
      List.Forall₂ (fun record part => visit image framing levels folder record = .ok part)
        (named records) parts ∧ found = parts.flatten := by
  rw [walk_succ]
  constructor
  · intro h
    obtain ⟨bytes, hread, h⟩ := Except.bind_eq_ok_iff.mp h
    obtain ⟨parts, hparts, h⟩ := Except.bind_eq_ok_iff.mp h
    split at h
    · next hsound =>
      refine ⟨(parseRecords 0 bytes).1, lists_iff.mpr ⟨bytes, ?_, ?_⟩, parts, ?_, ?_⟩
      · exact Except.mapError_eq_ok_iff.mp hread
      · exact Prod.ext rfl hsound
      · exact Except.mapM_eq_ok_iff.mp hparts
      · exact (Except.ok.inj h).symm
    · cases h
  · rintro ⟨records, hl, parts, hparts, rfl⟩
    obtain ⟨bytes, hread, hparse⟩ := lists_iff.mp hl
    rw [hread]
    refine Except.bind_eq_ok_iff.mpr ⟨bytes, rfl, ?_⟩
    rw [hparse]
    exact Except.bind_eq_ok_iff.mpr ⟨parts, Except.mapM_eq_ok_iff.mpr hparts, rfl⟩

/-- Record after record is visited, and what is found is put together. -/
theorem walked_iff_visits
    (below : ∀ lower, levels = lower + 1 → ∀ folder extent inner,
      walk image framing levels folder extent = .ok inner ↔
        ∃ listed, Lists StartsZero image framing extent listed ∧
          Walked image framing lower folder (named listed) inner) :
    Walked image framing levels folder records found ↔ ∃ parts,
      List.Forall₂ (fun record part => visit image framing levels folder record = .ok part)
        records parts ∧ found = parts.flatten := by
  induction records generalizing found with
  | nil =>
    constructor
    · rintro ⟨⟩
      exact ⟨[], .nil, rfl⟩
    · rintro ⟨parts, ⟨⟩, rfl⟩
      exact .done
  | cons record records ih =>
    constructor
    · intro h
      cases h with
      | file hf h =>
        obtain ⟨parts, hparts, rfl⟩ := ih.mp h
        exact ⟨_ :: parts, .cons (visit_eq_ok_iff.mpr (Or.inl ⟨hf, rfl⟩)) hparts, rfl⟩
      | folder hf hl hi h =>
        obtain ⟨parts, hparts, rfl⟩ := ih.mp h
        have hwalk := (below _ rfl _ _ _).mpr ⟨_, hl, hi⟩
        exact ⟨_ :: parts, .cons (visit_eq_ok_iff.mpr (Or.inr ⟨hf, _, hwalk, rfl⟩)) hparts, rfl⟩
    · rintro ⟨parts, hparts, rfl⟩
      cases hparts with
      | cons hvisit hparts =>
        have hrest := ih.mpr ⟨_, hparts, rfl⟩
        rcases visit_eq_ok_iff.mp hvisit with ⟨hf, rfl⟩ | ⟨hf, inner, hwalk, rfl⟩
        · exact .file hf hrest
        · cases levels with
          | zero => cases hwalk
          | succ lower =>
            obtain ⟨listed, hl, hi⟩ := (below lower rfl _ _ _).mp hwalk
            exact .folder hf hl hi hrest

/-- A walk that comes to its end has met all records in order. -/
theorem walk_eq_ok_iff : walk image framing (levels + 1) folder extent = .ok found ↔
    ∃ records, Lists StartsZero image framing extent records ∧
      Walked image framing levels folder (named records) found := by
  induction levels generalizing folder extent found with
  | zero =>
    refine walk_succ_eq_ok_iff.trans (exists_congr fun records => and_congr_right fun _ =>
      (walked_iff_visits fun lower hl => ?_).symm)
    cases hl
  | succ levels ih =>
    refine walk_succ_eq_ok_iff.trans (exists_congr fun records => and_congr_right fun _ =>
      (walked_iff_visits fun lower hl => ?_).symm)
    cases hl
    exact fun _ _ _ => ih

end

section
variable {image : Node} {framing : Framing} {levels depth : Nat} {folder folder' : String}
  {extent extent' : Extent} {record : Record} {records : List Record} {found : List Sighting}
  {s : Sighting}

/-- What a walk does for the record of a folder, which takes one level more. -/
def Entered (image : Node) (framing : Framing) (levels : Nat) (folder : String)
    (record : Record) : Prop :=
  ∃ lower listed inner, levels = lower + 1 ∧ Lists StartsZero image framing record.extent listed ∧
    Walked image framing lower (Sighting.path ⟨folder, record⟩) (named listed) inner

theorem Walked.entered (h : Walked image framing levels folder records found)
    (hm : record ∈ records) (hf : record.isFolder = true) :
    Entered image framing levels folder record := by
  induction h with
  | done => cases hm
  | file hfile _ ih =>
    rcases List.mem_cons.mp hm with rfl | hm
    · rw [hf] at hfile
      cases hfile
    · exact ih hm
  | folder _ hl hi _ _ ih =>
    rcases List.mem_cons.mp hm with rfl | hm
    · exact ⟨_, _, _, rfl, hl, hi⟩
    · exact ih hm

theorem exists_walked (h : ∀ record ∈ records, record.isFolder = true →
      Entered image framing levels folder record) :
    ∃ found, Walked image framing levels folder records found := by
  induction records with
  | nil => exact ⟨[], .done⟩
  | cons record records ih =>
    obtain ⟨hrecord, hrecords⟩ := List.forall_mem_cons.mp h
    obtain ⟨found, hfound⟩ := ih hrecords
    cases hf : record.isFolder with
    | false => exact ⟨_, .file hf hfound⟩
    | true =>
      obtain ⟨lower, listed, inner, rfl, hl, hi⟩ := hrecord hf
      exact ⟨_, .folder hf hl hi hfound⟩

/-- A walk comes to its end if and only if every folder that lies below lists its records to the
end, and none lies deeper than the levels reach. -/
theorem exists_walked_iff : (∃ records found, Lists StartsZero image framing extent records ∧
      Walked image framing levels folder (named records) found) ↔
    ∀ depth folder' extent', Below StartsZero image framing folder extent depth folder' extent' →
      (∃ records, Lists StartsZero image framing extent' records) ∧ depth ≤ levels := by
  constructor
  · rintro ⟨records, found, hl, hw⟩ depth folder' extent' hb
    induction hb generalizing levels records found with
    | here => exact ⟨⟨records, hl⟩, Nat.zero_le _⟩
    | within hl' hm hf _ ih =>
      obtain rfl := hl.unique hl'
      obtain ⟨lower, listed, inner, rfl, hlisted, hinner⟩ := hw.entered hm hf
      obtain ⟨hlists, hdepth⟩ := ih listed inner hlisted hinner
      exact ⟨hlists, Nat.succ_le_succ hdepth⟩
  · intro h
    induction levels generalizing folder extent with
    | zero =>
      obtain ⟨⟨records, hl⟩, _⟩ := h 0 folder extent .here
      have hnone : ∀ record ∈ named records, record.isFolder = true →
          Entered image framing 0 folder record := by
        intro record hm hf
        have := (h 1 _ _ (.within hl hm hf .here)).2
        omega
      obtain ⟨found, hw⟩ := exists_walked hnone
      exact ⟨records, found, hl, hw⟩
    | succ levels ih =>
      obtain ⟨⟨records, hl⟩, _⟩ := h 0 folder extent .here
      have hbelow : ∀ record ∈ named records, record.isFolder = true →
          Entered image framing (levels + 1) folder record := by
        intro record hm hf
        obtain ⟨listed, inner, hlisted, hinner⟩ := ih fun depth folder' extent' hb =>
          (h (depth + 1) folder' extent' (.within hl hm hf hb)).imp_right Nat.le_of_succ_le_succ
        exact ⟨levels, listed, inner, rfl, hlisted, hinner⟩
      obtain ⟨found, hw⟩ := exists_walked hbelow
      exact ⟨records, found, hl, hw⟩

theorem metBelow_iff (hl : Lists StartsZero image framing extent records) :
    MetBelow image framing folder extent s ↔ ∃ record ∈ named records, s = ⟨folder, record⟩ ∨
      record.isFolder = true ∧
        MetBelow image framing (Sighting.path ⟨folder, record⟩) record.extent s := by
  constructor
  · rintro ⟨depth, extent', records', hb, hl', hm⟩
    generalize hfolder : s.folder = folder' at hb
    cases hb with
    | here =>
      obtain rfl := hl.unique hl'
      exact ⟨s.record, hm, Or.inl (by rw [← hfolder])⟩
    | within hl'' hm'' hf hb =>
      obtain rfl := hl.unique hl''
      subst hfolder
      exact ⟨_, hm'', Or.inr ⟨hf, _, _, _, hb, hl', hm⟩⟩
  · rintro ⟨record, hm, rfl | ⟨hf, depth, extent', records', hb, hl', hm'⟩⟩
    · exact ⟨0, extent, records, .here, hl, hm⟩
    · exact ⟨depth + 1, extent', records', .within hl hm hf hb, hl', hm'⟩

theorem Walked.mem_iff (h : Walked image framing levels folder records found) :
    s ∈ found ↔ ∃ record ∈ records, s = ⟨folder, record⟩ ∨ record.isFolder = true ∧
      MetBelow image framing (Sighting.path ⟨folder, record⟩) record.extent s := by
  induction h with
  | done => simp
  | file hf _ ih => simp [ih, hf]
  | folder hf hl _ _ ihi ih =>
    simp only [List.mem_cons, List.mem_append, ih, ihi, ← metBelow_iff hl, exists_eq_or_imp, hf,
      true_and, or_assoc]

theorem Below.trans {depth' : Nat} {folder'' : String} {extent'' : Extent}
    (h : Below StartsZero image framing folder extent depth folder' extent')
    (h' : Below StartsZero image framing folder' extent' depth' folder'' extent'') :
    Below StartsZero image framing folder extent (depth' + depth) folder'' extent'' := by
  induction h with
  | here => exact h'
  | within hl hm hf _ ih => exact .within hl hm hf (ih h')

/-- The last step on the way down. -/
theorem Below.last
    (h : Below StartsZero image framing folder extent (depth + 1) folder' extent') :
    ∃ s, MetBelow image framing folder extent s ∧ s.record.isFolder = true ∧ s.path = folder' := by
  induction depth generalizing folder extent with
  | zero =>
    cases h with
    | within hl hm hf h =>
      cases h
      exact ⟨_, ⟨0, _, _, .here, hl, hm⟩, hf, rfl⟩
  | succ depth ih =>
    cases h with
    | within hl hm hf h =>
      obtain ⟨s, hs, hfolder, hpath⟩ := ih h
      exact ⟨s, (metBelow_iff hl).mpr ⟨_, hm, Or.inr ⟨hf, hs⟩⟩, hfolder, hpath⟩

theorem MetBelow.below (h : MetBelow image framing folder extent s)
    (hf : s.record.isFolder = true) :
    ∃ depth, Below StartsZero image framing folder extent depth s.path s.record.extent := by
  obtain ⟨depth, extent', records, hb, hl, hm⟩ := h
  exact ⟨1 + depth, hb.trans (.within hl hm hf .here)⟩

/-- Folders that lie in one another lead down without end. -/
theorem exists_below_of_nested
    (h : Relation.TransGen (Nested image framing) extent extent') (folder : String) :
    ∃ depth folder', 0 < depth ∧
      Below StartsZero image framing folder extent depth folder' extent' := by
  induction h with
  | single hn =>
    obtain ⟨records, hl, record, hm, hf, rfl⟩ := hn
    exact ⟨1, _, Nat.one_pos, .within hl hm hf .here⟩
  | tail _ hn ih =>
    obtain ⟨depth, folder', _, hb⟩ := ih
    obtain ⟨records, hl, record, hm, hf, rfl⟩ := hn
    exact ⟨1 + depth, _, by omega, hb.trans (.within hl hm hf .here)⟩

theorem exists_below_of_cycle (h : Relation.TransGen (Nested image framing) extent extent)
    (folder : String) (n : Nat) : ∃ depth folder', n ≤ depth ∧
      Below StartsZero image framing folder extent depth folder' extent := by
  induction n with
  | zero => exact ⟨0, folder, Nat.le_refl 0, .here⟩
  | succ n ih =>
    obtain ⟨depth, folder', hle, hb⟩ := ih
    obtain ⟨more, folder'', hpos, hb'⟩ := exists_below_of_nested h folder'
    exact ⟨more + depth, folder'', by omega, hb.trans hb'⟩

end
end LayeredAssets.Disc
