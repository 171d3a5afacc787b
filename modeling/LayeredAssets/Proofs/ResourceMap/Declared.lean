import LayeredAssets.Proofs.Table
import LayeredAssets.ResourceMap

namespace LayeredAssets

/-- Steps that change one part of a state change that part and nothing else. -/
theorem foldl_part {σ τ β : Type} (get : σ → τ) (put : σ → τ → σ) (f : τ → β → τ)
    (hget : ∀ s t, get (put s t) = t) (hput : ∀ s t t', put (put s t) t' = put s t')
    (hself : ∀ s, put s (get s) = s) (bs : List β) (s : σ) :
    bs.foldl (fun s b => put s (f (get s) b)) s = put s (bs.foldl f (get s)) := by
  induction bs generalizing s with
  | nil => exact (hself s).symm
  | cons b bs ih => rw [List.foldl_cons, ih, hget, hput, List.foldl_cons]

/-- What records declare, kind by kind, in the order in which it stands in them. -/
structure Declared where
  animations : List (String × AnimationMapping)
  /-- A data set, an archive of it, and the files which that keeps. -/
  archives : List (String × Holding × List String)
  paths : List PathMapping
  videos : List VideoMapping
  banks : List BankMapping
  effects : List EffectMapping
  musics : List MusicMapping

namespace Declared

def nothing : Declared := ⟨[], [], [], [], [], [], []⟩

def ofRecord : MapRecord → Declared
  | .animations named => { nothing with animations := named }
  | .files dataSet archives => { nothing with archives := archives.map (dataSet, ·) }
  | .paths mappings => { nothing with paths := mappings }
  | .videos mappings => { nothing with videos := mappings }
  | .banks mappings => { nothing with banks := mappings }
  | .effects mappings => { nothing with effects := mappings }
  | .musics mappings => { nothing with musics := mappings }
  | .unknown => nothing

def ofRecords (records : List MapRecord) : Declared where
  animations := records.flatMap fun r => (ofRecord r).animations
  archives := records.flatMap fun r => (ofRecord r).archives
  paths := records.flatMap fun r => (ofRecord r).paths
  videos := records.flatMap fun r => (ofRecord r).videos
  banks := records.flatMap fun r => (ofRecord r).banks
  effects := records.flatMap fun r => (ofRecord r).effects
  musics := records.flatMap fun r => (ofRecord r).musics

/-- The archives that are declared to keep a file, as often as they are. -/
def keeping (d : Declared) (dataSet file : String) : List Holding :=
  (d.archives.filter fun a => a.1 == dataSet && a.2.2.contains file).map fun a => a.2.1

end Declared

namespace ResourceMap

def sameArchive (a b : Holding) : Bool := a.archive == b.archive

/-- Known archives stay as they are, and of the others each is taken once, as it came first. -/
def withNew (known added : List Holding) : List Holding :=
  known ++ (added.filter fun h => !known.any (sameArchive · h)).eraseDupsBy sameArchive

/-- Everything that can be looked up after something was declared: the last mapping of a name
replaces those before, archives and banks are added to those before. -/
structure Merged (m : ResourceMap) (d : Declared) (m' : ResourceMap) : Prop where
  animation : ∀ name, m'.animation? name =
    ((lastNamed Prod.fst name d.animations).map Prod.snd).or (m.animation? name)
  holdings : ∀ dataSet file, m'.holdings dataSet file =
    withNew (m.holdings dataSet file) (d.keeping dataSet file)
  path : ∀ name, m'.path? name = (lastNamed PathMapping.name name d.paths).or (m.path? name)
  video : ∀ name, m'.video? name = (lastNamed VideoMapping.name name d.videos).or (m.video? name)
  banks : ∀ name, m'.banksNamed name =
    m.banksNamed name ++ d.banks.filter fun bank => bank.name == name
  effect : ∀ name, m'.effect? name =
    (lastNamed EffectMapping.name name d.effects).or (m.effect? name)
  music : ∀ name, m'.music? name = (lastNamed MusicMapping.name name d.musics).or (m.music? name)

def keepNew (known : List Holding) (holding : Holding) : List Holding :=
  if known.any (sameArchive · holding) then known else known ++ [holding]

def holdIn (holding : Holding) (t : Table (String × String) (List Holding))
    (key : String × String) : Table (String × String) (List Holding) :=
  let known := (t.get? key).getD []
  if known.any (sameArchive · holding) then t else t.set key (known ++ [holding])

def holdAll (t : Table (String × String) (List Holding)) (archive : String × Holding × List String) :
    Table (String × String) (List Holding) :=
  archive.2.2.foldl (fun t file => holdIn archive.2.1 t (archive.1, file)) t

def bankIn (t : Table String (List BankMapping)) (bank : BankMapping) :
    Table String (List BankMapping) :=
  t.set bank.name ((t.get? bank.name).getD [] ++ [bank])

/-- Every kind has its own table. -/
def declare (m : ResourceMap) (d : Declared) : ResourceMap where
  animations := m.animations.setAll Prod.fst Prod.snd d.animations
  files := d.archives.foldl holdAll m.files
  paths := m.paths.setAll PathMapping.name id d.paths
  videos := m.videos.setAll VideoMapping.name id d.videos
  banks := d.banks.foldl bankIn m.banks
  effects := m.effects.setAll EffectMapping.name id d.effects
  musics := m.musics.setAll MusicMapping.name id d.musics

theorem addHolding_eq (m : ResourceMap) (dataSet file : String) (holding : Holding) :
    m.addHolding dataSet file holding =
      { m with files := holdIn holding m.files (dataSet, file) } := by
  by_cases hk : (m.holdings dataSet file).any (sameArchive · holding) = true
  · have hin : holdIn holding m.files (dataSet, file) = m.files := if_pos hk
    rw [hin]
    exact if_pos hk
  · have hin : holdIn holding m.files (dataSet, file) =
        m.files.set (dataSet, file) (m.holdings dataSet file ++ [holding]) := if_neg hk
    rw [hin]
    exact if_neg hk

theorem addArchive_eq (dataSet : String) (m : ResourceMap) (archive : Holding × List String) :
    addArchive dataSet m archive = { m with files := holdAll m.files (dataSet, archive) } := by
  simp only [addArchive, addHolding_eq]
  exact foldl_part ResourceMap.files (fun m t => { m with files := t })
    (fun t file => holdIn archive.1 t (dataSet, file)) (fun _ _ => rfl) (fun _ _ _ => rfl)
    (fun _ => rfl) archive.2 m

/-- A record only touches the table of its kind. -/
theorem add_eq_declare (m : ResourceMap) (record : MapRecord) :
    m.add record = m.declare (.ofRecord record) := by
  cases record with
  | animations named =>
    exact foldl_part ResourceMap.animations (fun m t => { m with animations := t })
      (fun t entry => t.set entry.1 entry.2) (fun _ _ => rfl) (fun _ _ _ => rfl) (fun _ => rfl)
      named m
  | files dataSet archives =>
    simp only [add]
    rw [funext₂ (addArchive_eq dataSet)]
    have h := foldl_part ResourceMap.files (fun m t => { m with files := t })
      (fun t archive => holdAll t (dataSet, archive)) (fun _ _ => rfl) (fun _ _ _ => rfl)
      (fun _ => rfl) archives m
    rw [h, ← List.foldl_map (f := (dataSet, ·)) (g := holdAll)]
    rfl
  | paths mappings =>
    exact foldl_part ResourceMap.paths (fun m t => { m with paths := t })
      (fun t path => t.set path.name path) (fun _ _ => rfl) (fun _ _ _ => rfl) (fun _ => rfl)
      mappings m
  | videos mappings =>
    exact foldl_part ResourceMap.videos (fun m t => { m with videos := t })
      (fun t video => t.set video.name video) (fun _ _ => rfl) (fun _ _ _ => rfl) (fun _ => rfl)
      mappings m
  | banks mappings =>
    exact foldl_part ResourceMap.banks (fun m t => { m with banks := t }) bankIn (fun _ _ => rfl)
      (fun _ _ _ => rfl) (fun _ => rfl) mappings m
  | effects mappings =>
    exact foldl_part ResourceMap.effects (fun m t => { m with effects := t })
      (fun t effect => t.set effect.name effect) (fun _ _ => rfl) (fun _ _ _ => rfl)
      (fun _ => rfl) mappings m
  | musics mappings =>
    exact foldl_part ResourceMap.musics (fun m t => { m with musics := t })
      (fun t music => t.set music.name music) (fun _ _ => rfl) (fun _ _ _ => rfl) (fun _ => rfl)
      mappings m
  | unknown => rfl

theorem foldl_add_eq_declare (m : ResourceMap) (records : List MapRecord) :
    records.foldl add m = m.declare (.ofRecords records) := by
  induction records generalizing m with
  | nil => rfl
  | cons record records ih =>
    rw [List.foldl_cons, ih, add_eq_declare]
    simp only [declare, Declared.ofRecords, List.flatMap_cons, List.foldl_append,
      Table.setAll_append]

section
variable {known : List Holding} {holding : Holding}

theorem sameArchive_comm (a b : Holding) : sameArchive a b = sameArchive b a := Bool.beq_comm

theorem keepNew_of_known (h : known.any (sameArchive · holding) = true) :
    keepNew known holding = known := if_pos h

theorem keepNew_of_new (h : ¬ known.any (sameArchive · holding) = true) :
    keepNew known holding = known ++ [holding] := if_neg h

theorem keepNew_self (known : List Holding) (holding : Holding) :
    keepNew (keepNew known holding) holding = keepNew known holding := by
  by_cases hk : known.any (sameArchive · holding) = true
  · rw [keepNew_of_known hk, keepNew_of_known hk]
  · rw [keepNew_of_new hk]
    exact keepNew_of_known (by simp [sameArchive])

/-- Taking one after the other, each unless its archive is known by then. -/
theorem foldl_keepNew (known added : List Holding) :
    added.foldl keepNew known = withNew known added := by
  induction added generalizing known with
  | nil => exact (List.append_nil known).symm
  | cons holding added ih =>
    rw [List.foldl_cons, ih]
    by_cases hk : known.any (sameArchive · holding) = true
    · rw [keepNew_of_known hk, withNew, withNew, List.filter_cons_of_neg (by simp [hk])]
    · -- what is new next to all of them is what is new next to the known and is not this one
      have hfilter : (added.filter fun h => !(known ++ [holding]).any (sameArchive · h)) =
          (added.filter fun h => !known.any (sameArchive · h)).filter
            fun h => decide (sameArchive h holding = false) := by
        rw [List.filter_filter]
        apply List.filter_congr
        intro other _
        rw [List.any_append, List.any_cons, List.any_nil, Bool.or_false, sameArchive_comm holding]
        cases known.any (sameArchive · other) <;> cases sameArchive other holding <;> rfl
      rw [keepNew_of_new hk, withNew, withNew, hfilter, List.filter_cons_of_pos (by simp [hk]),
        List.eraseDupsBy_cons, List.append_assoc]
      rfl

end

/-- Only what is known of that file changes. -/
theorem getD_holdIn (holding : Holding) (t : Table (String × String) (List Holding))
    (key k : String × String) : ((holdIn holding t key).get? k).getD [] =
      if key = k then keepNew ((t.get? k).getD []) holding else (t.get? k).getD [] := by
  by_cases hk : ((t.get? key).getD []).any (sameArchive · holding) = true
  · have hin : holdIn holding t key = t := if_pos hk
    rw [hin]
    split
    · next he =>
      subst he
      exact (keepNew_of_known hk).symm
    · rfl
  · have hin : holdIn holding t key = t.set key ((t.get? key).getD [] ++ [holding]) := if_neg hk
    rw [hin, Table.get?_set]
    split
    · next he =>
      subst he
      exact (keepNew_of_new hk).symm
    · rfl

/-- A file that an archive names more than once is kept there once. -/
theorem getD_holdAll (t : Table (String × String) (List Holding))
    (archive : String × Holding × List String) (dataSet file : String) :
    ((holdAll t archive).get? (dataSet, file)).getD [] =
      if archive.1 == dataSet && archive.2.2.contains file then
        keepNew ((t.get? (dataSet, file)).getD []) archive.2.1
      else (t.get? (dataSet, file)).getD [] := by
  obtain ⟨own, holding, files⟩ := archive
  simp only [holdAll]
  induction files generalizing t with
  | nil => simp
  | cons name files ih =>
    rw [List.foldl_cons, ih, getD_holdIn]
    by_cases hown : own = dataSet
    · subst hown
      by_cases hname : name = file
      · subst hname
        simp [keepNew_self]
      · simp [hname, Ne.symm hname]
    · simp [hown]

theorem getD_foldl_holdAll (archives : List (String × Holding × List String))
    (t : Table (String × String) (List Holding)) (dataSet file : String) :
    ((archives.foldl holdAll t).get? (dataSet, file)).getD [] =
      ((archives.filter fun a => a.1 == dataSet && a.2.2.contains file).map fun a => a.2.1).foldl
        keepNew ((t.get? (dataSet, file)).getD []) := by
  induction archives generalizing t with
  | nil => rfl
  | cons archive archives ih =>
    rw [List.foldl_cons, ih, getD_holdAll, List.filter_cons]
    split
    · rw [List.map_cons, List.foldl_cons]
    · rfl

theorem getD_foldl_bankIn (banks : List BankMapping) (t : Table String (List BankMapping))
    (name : String) : ((banks.foldl bankIn t).get? name).getD [] =
      (t.get? name).getD [] ++ banks.filter fun bank => bank.name == name := by
  induction banks generalizing t with
  | nil => exact (List.append_nil _).symm
  | cons bank banks ih =>
    rw [List.foldl_cons, ih, bankIn, Table.get?_set]
    by_cases hname : bank.name = name
    · rw [if_pos hname, List.filter_cons_of_pos (by simpa using hname), hname]
      exact List.append_assoc _ [bank] _
    · rw [if_neg hname, List.filter_cons_of_neg (by simpa using hname)]

theorem merged_declare (m : ResourceMap) (d : Declared) : Merged m d (m.declare d) where
  animation := m.animations.get?_setAll Prod.fst Prod.snd d.animations
  holdings dataSet file := by
    rw [← foldl_keepNew]
    exact getD_foldl_holdAll d.archives m.files dataSet file
  path := m.paths.get?_setAll_id PathMapping.name d.paths
  video := m.videos.get?_setAll_id VideoMapping.name d.videos
  banks := getD_foldl_bankIn d.banks m.banks
  effect := m.effects.get?_setAll_id EffectMapping.name d.effects
  music := m.musics.get?_setAll_id MusicMapping.name d.musics

theorem merged_foldl_add (m : ResourceMap) (records : List MapRecord) :
    Merged m (.ofRecords records) (records.foldl add m) := by
  rw [foldl_add_eq_declare]
  exact merged_declare m (.ofRecords records)

end ResourceMap
end LayeredAssets
