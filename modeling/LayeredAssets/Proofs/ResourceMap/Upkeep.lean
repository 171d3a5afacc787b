import LayeredAssets.Proofs.ResourceMap.Merging

namespace LayeredAssets

namespace Table

section
variable {κ α : Type}

/-- Every key has one entry, and what stands there suits its key. -/
structure Keeps (P : κ → α → Prop) (t : Table κ α) : Prop where
  once : t.keys.Nodup
  suits : ∀ entry ∈ t.entries, P entry.1 entry.2

variable {P : κ → α → Prop} {t : Table κ α} {key : κ} {a : α}

theorem keeps_empty : (empty : Table κ α).Keeps P := ⟨List.nodup_nil, by simp [empty]⟩

variable [DecidableEq κ]

theorem Keeps.get (h : t.Keeps P) (hget : t.get? key = some a) : P key a :=
  h.suits (key, a) (mem_entries_of_get? hget)

theorem Keeps.set (h : t.Keeps P) (ha : P key a) : (t.set key a).Keeps P := by
  have honce := nodup_keys_set h.once key a
  refine ⟨honce, ?_⟩
  intro entry hm
  have hget : (t.set key a).get? entry.1 = some entry.2 := (mem_entries_iff honce).mp hm
  rw [get?_set] at hget
  split at hget
  · next hk =>
    obtain rfl := Option.some.inj hget
    exact hk ▸ ha
  · exact h.get hget

theorem setIn_of_getIn {entries : List (κ × α)} (h : getIn key entries = some a) :
    setIn key a entries = entries := by
  induction entries with
  | nil => cases h
  | cons entry rest ih =>
    obtain ⟨k, b⟩ := entry
    by_cases hk : k = key
    · simp only [getIn, hk, ↓reduceIte, Option.some.injEq] at h
      simp [setIn, hk, h]
    · simp only [getIn, hk, ↓reduceIte] at h
      simp [setIn, hk, ih h]

theorem setIn_setIn (key : κ) (a b : α) (entries : List (κ × α)) :
    setIn key b (setIn key a entries) = setIn key b entries := by
  induction entries with
  | nil => simp [setIn]
  | cons entry rest ih =>
    obtain ⟨k, c⟩ := entry
    by_cases hk : k = key
    · simp [setIn, hk]
    · simp [setIn, hk, ih]

end
end Table

namespace ResourceMap

/-- What holds of a map, however it came to be: resources stand under their own names, no list is
empty, and of the archives that keep a file none is listed twice. -/
structure WellKept (m : ResourceMap) : Prop where
  animations : m.animations.Keeps fun _ _ => True
  files : m.files.Keeps fun _ archives =>
    archives ≠ [] ∧ archives.Pairwise fun a b => a.archive ≠ b.archive
  paths : m.paths.Keeps fun name path => path.name = name
  videos : m.videos.Keeps fun name video => video.name = name
  banks : m.banks.Keeps fun name banks => banks ≠ [] ∧ ∀ bank ∈ banks, bank.name = name
  effects : m.effects.Keeps fun name effect => effect.name = name
  musics : m.musics.Keeps fun name music => music.name = name

/-- The maps that a program can come by: it starts with an empty one, adds animations, and reads
catalogs, be they good or bad. -/
inductive Reachable : ResourceMap → Prop
  | new : Reachable empty
  | addAnimation {m} (name : String) (mapping : AnimationMapping) (h : Reachable m) :
    Reachable (m.addAnimation name mapping)
  | extend {m} (file text : String) (h : Reachable m) : Reachable (m.extend file text).1

/-- The entry of a file may be made before it is known whether the archive is new: none is left
without an archive, since in an empty list there is nothing to find. -/
theorem addHolding_eq_made (m : ResourceMap) (dataSet file : String) (holding : Holding) :
    let known := m.holdings dataSet file
    let made := m.files.set (dataSet, file) known
    m.addHolding dataSet file holding =
      { m with files :=
          if known.any (fun h => h.archive == holding.archive) then made
          else made.set (dataSet, file) (known ++ [holding]) } := by
  intro known made
  by_cases hk : known.any (fun h => h.archive == holding.archive) = true
  · have hget : m.files.get? (dataSet, file) = some known := by
      cases hf : m.files.get? (dataSet, file) with
      | none => simp [known, holdings, hf] at hk
      | some archives => simp [known, holdings, hf]
    have hmade : made = m.files := congrArg Table.mk (Table.setIn_of_getIn hget)
    rw [if_pos hk, hmade]
    exact if_pos hk
  · have hmade : made.set (dataSet, file) (known ++ [holding]) =
        m.files.set (dataSet, file) (known ++ [holding]) :=
      congrArg Table.mk (Table.setIn_setIn _ _ _ _)
    rw [if_neg hk, hmade]
    exact if_neg hk

namespace WellKept

variable {m : ResourceMap}

theorem empty : ResourceMap.empty.WellKept :=
  ⟨Table.keeps_empty, Table.keeps_empty, Table.keeps_empty, Table.keeps_empty, Table.keeps_empty,
    Table.keeps_empty, Table.keeps_empty⟩

theorem distinct (h : m.WellKept) (dataSet file : String) :
    (m.holdings dataSet file).Pairwise fun a b => a.archive ≠ b.archive := by
  rw [holdings]
  cases hget : m.files.get? (dataSet, file) with
  | none => exact List.Pairwise.nil
  | some archives => exact (h.files.get hget).2

theorem named (h : m.WellKept) (name : String) : ∀ bank ∈ m.banksNamed name, bank.name = name := by
  rw [banksNamed]
  cases hget : m.banks.get? name with
  | none => simp
  | some banks => exact (h.banks.get hget).2

theorem addAnimation (h : m.WellKept) (name : String) (mapping : AnimationMapping) :
    (m.addAnimation name mapping).WellKept :=
  { h with animations := h.animations.set trivial }

/-- An archive is only added behind others of different names. -/
theorem addHolding (h : m.WellKept) (dataSet file : String) (holding : Holding) :
    (m.addHolding dataSet file holding).WellKept := by
  rw [ResourceMap.addHolding]
  split
  · exact h
  · next hnew =>
    have hlisted : (m.holdings dataSet file ++ [holding]).Pairwise
        fun a b => a.archive ≠ b.archive := by
      apply List.pairwise_append.mpr
      refine ⟨h.distinct dataSet file, List.pairwise_singleton _ _, ?_⟩
      intro known hknown added hadded hsame
      obtain rfl := List.mem_singleton.mp hadded
      apply hnew
      rw [List.any_eq_true]
      exact ⟨known, hknown, beq_iff_eq.mpr hsame⟩
    exact { h with files := h.files.set ⟨by simp, hlisted⟩ }

theorem addArchive (h : m.WellKept) (dataSet : String) (archive : Holding × List String) :
    (ResourceMap.addArchive dataSet m archive).WellKept := by
  apply List.foldlRecOn _ _ h
  intro m hm file _
  exact hm.addHolding dataSet file archive.1

theorem addPath (h : m.WellKept) (mapping : PathMapping) : (m.addPath mapping).WellKept :=
  { h with paths := h.paths.set rfl }

theorem addVideo (h : m.WellKept) (mapping : VideoMapping) : (m.addVideo mapping).WellKept :=
  { h with videos := h.videos.set rfl }

theorem addBank (h : m.WellKept) (mapping : BankMapping) : (m.addBank mapping).WellKept := by
  have hnamed : ∀ bank ∈ m.banksNamed mapping.name ++ [mapping], bank.name = mapping.name := by
    intro bank hm
    rcases List.mem_append.mp hm with hm | hm
    · exact h.named mapping.name bank hm
    · rw [List.mem_singleton.mp hm]
  exact { h with banks := h.banks.set ⟨by simp, hnamed⟩ }

theorem addEffect (h : m.WellKept) (mapping : EffectMapping) : (m.addEffect mapping).WellKept :=
  { h with effects := h.effects.set rfl }

theorem addMusic (h : m.WellKept) (mapping : MusicMapping) : (m.addMusic mapping).WellKept :=
  { h with musics := h.musics.set rfl }

/-- Each kind of record adds to its own table, one declaration after the other. -/
theorem add (h : m.WellKept) (record : MapRecord) : (m.add record).WellKept := by
  cases record with
  | animations named =>
    apply List.foldlRecOn _ _ h
    intro m hm entry _
    exact hm.addAnimation entry.1 entry.2
  | files dataSet archives =>
    apply List.foldlRecOn _ _ h
    intro m hm archive _
    exact hm.addArchive dataSet archive
  | paths mappings =>
    apply List.foldlRecOn _ _ h
    intro m hm mapping _
    exact hm.addPath mapping
  | videos mappings =>
    apply List.foldlRecOn _ _ h
    intro m hm mapping _
    exact hm.addVideo mapping
  | banks mappings =>
    apply List.foldlRecOn _ _ h
    intro m hm mapping _
    exact hm.addBank mapping
  | effects mappings =>
    apply List.foldlRecOn _ _ h
    intro m hm mapping _
    exact hm.addEffect mapping
  | musics mappings =>
    apply List.foldlRecOn _ _ h
    intro m hm mapping _
    exact hm.addMusic mapping
  | unknown => exact h

/-- Where a malformed record ends the run, the map is what the records before it made of it. -/
theorem addRecords (h : m.WellKept) (index : Nat) (objects : List (List (String × Json))) :
    (m.addRecords index objects).1.WellKept := by
  induction objects generalizing m index with
  | nil => exact h
  | cons members objects ih =>
    rw [ResourceMap.addRecords]
    split
    · next record _ => exact ih (h.add record) (index + 1)
    · exact h

theorem extend (h : m.WellKept) (file text : String) : (m.extend file text).1.WellKept := by
  rw [ResourceMap.extend]
  split
  · exact h
  · exact h.addRecords 0 _

theorem of_reachable (h : Reachable m) : m.WellKept := by
  induction h with
  | new => exact empty
  | addAnimation name mapping _ ih => exact ih.addAnimation name mapping
  | extend file text _ ih => exact ih.extend file text

end WellKept

section
variable {m : ResourceMap}

/-- Among archives of different names there is at most one to be found. -/
theorem filter_archive {archives : List Holding}
    (h : archives.Pairwise fun a b => a.archive ≠ b.archive) (archive : String) :
    archives.filter (fun holding => holding.archive == archive) =
      (archives.find? fun holding => holding.archive == archive).toList := by
  induction archives with
  | nil => rfl
  | cons holding archives ih =>
    obtain ⟨hfirst, hrest⟩ := List.pairwise_cons.mp h
    by_cases ha : holding.archive = archive
    · subst ha
      have hothers : archives.filter (fun other => other.archive == holding.archive) = [] := by
        rw [List.filter_eq_nil_iff]
        intro other hm hsame
        exact hfirst other hm (beq_iff_eq.mp hsame).symm
      simp [hothers]
    · simp [ha, ih hrest]

theorem lookup_holdingsByDataSet (m : ResourceMap) (dataSet file : String) :
    (m.holdingsByDataSet file).lookup dataSet = m.files.get? (dataSet, file) := by
  rw [holdingsByDataSet, Table.get?]
  induction m.files.entries with
  | nil => rfl
  | cons entry entries ih =>
    obtain ⟨⟨entrySet, entryFile⟩, archives⟩ := entry
    by_cases hf : entryFile = file
    · by_cases hd : entrySet = dataSet
      · simp [Table.getIn, hf, hd]
      · have hne : (dataSet == entrySet) = false := beq_eq_false_iff_ne.mpr (Ne.symm hd)
        simp [Table.getIn, hf, hd, List.lookup_cons, hne, ih]
    · simp [Table.getIn, hf, ih]

theorem nodup_holdingsByDataSet (h : m.files.keys.Nodup) (file : String) :
    ((m.holdingsByDataSet file).map Prod.fst).Nodup := by
  rw [holdingsByDataSet]
  rw [Table.keys] at h
  generalize m.files.entries = entries at h
  induction entries with
  | nil => exact List.nodup_nil
  | cons entry entries ih =>
    obtain ⟨⟨entrySet, entryFile⟩, archives⟩ := entry
    rw [List.map_cons, List.nodup_cons] at h
    obtain ⟨hfirst, hrest⟩ := h
    by_cases hf : entryFile = file
    · subst hf
      simp only [List.filterMap_cons, ↓reduceIte, List.map_cons, List.nodup_cons]
      refine ⟨?_, ih hrest⟩
      intro hm
      obtain ⟨found, hfound, rfl⟩ := List.mem_map.mp hm
      obtain ⟨other, hother, hsome⟩ := List.mem_filterMap.mp hfound
      split at hsome
      · next hfile =>
        obtain rfl := Option.some.inj hsome
        apply hfirst
        exact List.mem_map.mpr ⟨other, hother, Prod.ext rfl hfile⟩
      · cases hsome
    · simpa [hf] using ih hrest

end

/-- Of every map that a program can come by the same holds: what stands under a name has that name,
an archive is listed once for a file and found by its name, and an animation is found with just the
archives that are told for its file. -/
theorem reachable_map_well_kept {m : ResourceMap} (h : Reachable m) :
    m.WellKept ∧
      (∀ dataSet archive file, (m.holdings dataSet file).filter (fun holding =>
        holding.archive == archive) = (m.holding? dataSet archive file).toList) ∧
      ∀ name, (m.find? name).map Prod.fst = m.animation? name ∧
        ∀ mapping found, m.find? name = some (mapping, found) →
          (found.map Prod.fst).Nodup ∧
            ∀ dataSet, (found.lookup dataSet).getD [] = m.holdings dataSet mapping.file := by
  have hkept := WellKept.of_reachable h
  refine ⟨hkept, ?_, ?_⟩
  · intro dataSet archive file
    exact filter_archive (hkept.distinct dataSet file) archive
  · intro name
    constructor
    · rw [find?, Option.map_map]
      exact Option.map_id_apply
    · intro mapping found hfound
      obtain ⟨animation, _, hpair⟩ := Option.map_eq_some_iff.mp hfound
      obtain ⟨rfl, rfl⟩ := Prod.mk.inj hpair
      refine ⟨nodup_holdingsByDataSet hkept.files.once animation.file, ?_⟩
      intro dataSet
      rw [lookup_holdingsByDataSet, holdings]

/-- A walk, an archive that names its file twice, and a record that does not say where its
animations are. -/
def keptText : String :=
  "[" ++ walkText "7" ++ ",\x7b\"data_set_name\":\"game\",\"is_psx\":false," ++
    "\"lvls\":[[\"R1.LVL\",[\"ABE.BAN\",\"ABE.BAN\"]]]\x7d,\x7b\"anims\":[]\x7d]"

def keptMembers : List (Option String × Json) :=
  [(some (.ofList "data_set_name".toList), .string (.ofList "game".toList)),
    (some (.ofList "is_psx".toList), .bool false),
    (some (.ofList "lvls".toList), .array [.array [.string (.ofList "R1.LVL".toList),
      .array [.string (.ofList "ABE.BAN".toList), .string (.ofList "ABE.BAN".toList)]]])]

def keptHolding : Holding := ⟨"R1.LVL", false, false, false⟩

def keptRecords : List MapRecord :=
  [walkRecord 7, .files "game" [(keptHolding, ["ABE.BAN", "ABE.BAN"])]]

set_option maxRecDepth 2000 in
theorem extend_kept : empty.extend "map" keptText =
    (keptRecords.foldl add empty, .error (.config "map" (.record 2 (.missing "file")))) := by
  have harray : Json.ArrayOf keptText
      ([walkMembers 7, keptMembers, filelessMembers].map Json.named) :=
    .intro (by rfl) (by decide +kernel)
  have hread : ReadAs ([walkMembers 7, keptMembers].map Json.named) keptRecords :=
    .cons (by decide +kernel) (.cons (by decide +kernel) .nil)
  have hbad : MapRecord.ofMembers (Json.named filelessMembers) = .error (.missing "file") := by
    decide +kernel
  exact extend_malformed harray hread hbad empty "map"

/-- A catalog that ends in a fault leaves the walk, with its archive found once. -/
theorem reachable_map_well_kept_walk :
    Reachable (empty.extend "map" keptText).1 ∧ (empty.extend "map" keptText).1.WellKept ∧
      (empty.extend "map" keptText).1.find? "walk" =
        some (⟨"ABE.BAN", 7, 1⟩, [("game", [keptHolding])]) ∧
      (empty.extend "map" keptText).1.holdings "game" "ABE.BAN" = [keptHolding] := by
  have hreach : Reachable (empty.extend "map" keptText).1 := .extend "map" keptText .new
  obtain ⟨hkept, -, hfind⟩ := reachable_map_well_kept hreach
  have hfound : (empty.extend "map" keptText).1.find? "walk" =
      some (⟨"ABE.BAN", 7, 1⟩, [("game", [keptHolding])]) := by
    rw [extend_kept]
    decide +kernel
  obtain ⟨-, hlookup⟩ := (hfind "walk").2 _ _ hfound
  exact ⟨hreach, hkept, hfound, (hlookup "game").symm⟩

end ResourceMap
end LayeredAssets
