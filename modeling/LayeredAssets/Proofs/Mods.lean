import LayeredAssets.Proofs.View
import LayeredAssets.SearchList
import LayeredAssets.Settings

namespace LayeredAssets

open Backend (Answers baseOf folder)

/-- What a name expands to is normal, whatever was configured. -/
theorem NamedPaths.normal_of_expand {named : NamedPaths} {source path : String} {looks : Nat}
    {text : List Char} (h : named.expand source looks text = .ok path) :
    Path.normalizeAfter false path.toList = path.toList := by
  induction looks generalizing text with
  | zero => cases h
  | succ looks ih =>
    unfold expand at h
    split at h
    · obtain rfl := Except.ok.inj h
      rw [Path.normalize, String.toList_ofList]
      exact Path.normalizeAfter_normalizeAfter false _
    · cases h
    · split at h
      · cases h
      · exact ih h

theorem NamedPaths.normal_of_resolve {named : NamedPaths} {source path : String}
    (h : named.resolve source = .ok path) :
    Path.normalizeAfter false path.toList = path.toList :=
  normal_of_expand (Except.mapError_eq_ok_iff.mp h)

theorem Json.Document.reader_of_readAs {α : Type} {reader : Json.Reader α} {text : String} {a : α}
    (h : readAs reader text = .ok a) : reader (ofText text).root = .ok a := by
  unfold readAs at h
  dsimp only at h
  split at h
  · cases h
  · next a' ha =>
    split at h
    · cases h
    · rw [ha, Except.ok.inj h]

namespace Definition

section
variable {host : Host} {b : Backend} {file text name root : String} {isMod : Bool}
  {container : String} {d : Definition}

/-- No text says whether it is a mod, or where it lies. -/
theorem of_reader {j : Json} (h : reader isMod container j = .ok d) :
    d.isMod = isMod ∧ d.container = container := by
  obtain ⟨cells, -, h⟩ := Except.bind_eq_ok_iff.mp h
  obtain ⟨name, -, h⟩ := Except.bind_eq_ok_iff.mp h
  obtain ⟨description, -, h⟩ := Except.bind_eq_ok_iff.mp h
  obtain ⟨author, -, h⟩ := Except.bind_eq_ok_iff.mp h
  obtain ⟨initialLevel, -, h⟩ := Except.bind_eq_ok_iff.mp h
  obtain ⟨dataSet, -, h⟩ := Except.bind_eq_ok_iff.mp h
  obtain ⟨hidden, -, h⟩ := Except.bind_eq_ok_iff.mp h
  obtain ⟨required, -, h⟩ := Except.bind_eq_ok_iff.mp h
  obtain rfl := Except.ok.inj h
  exact ⟨rfl, rfl⟩

theorem of_load (h : load host b file isMod = .ok d) :
    d.isMod = isMod ∧ d.container = b.place := by
  obtain ⟨text, -, ht⟩ := Except.bind_eq_ok_iff.mp h
  exact of_reader (Json.Document.reader_of_readAs (Except.mapError_eq_ok_iff.mp ht))

theorem of_loadMod? (h : loadMod? host b name = some d) :
    (b.limit name).isFile host modFile = true ∧ d.isMod = true ∧
      d.container = (b.limit name).place := by
  unfold loadMod? at h
  dsimp only at h
  split at h
  · next hfile =>
    obtain ⟨hm, hc⟩ := of_load (Except.toOption_eq_some_iff.mp h)
    exact ⟨hfile, hm, hc⟩
  · cases h

theorem mem_loadMods {definitions : List Definition} (h : loadMods host b = .ok definitions)
    (hd : d ∈ definitions) : ∃ names, b.enumerate host "" "*" = .ok names ∧
      ∃ name ∈ names, loadMod? host b name = some d := by
  obtain ⟨names, hn, hr⟩ := Except.bind_eq_ok_iff.mp h
  obtain rfl := Except.ok.inj hr
  exact ⟨names, hn, List.mem_filterMap.mp hd⟩

/-- Every definition that can be read is among those that are loaded. -/
theorem exists_loadMods {names : List String}
    (hn : host.names (Backend.location root "") = .ok names) (hm : name ∈ names)
    (hmatch : Wildcard.isMatch name "*" = true) (hd : loadMod? host (folder root) name = some d) :
    ∃ definitions, loadMods host (folder root) = .ok definitions ∧ d ∈ definitions := by
  have hlisted : (folder root).enumerate host "" "*" =
      .ok (Text.sorted (names.filter (fun name => Wildcard.isMatch name "*"))) := by
    rw [Backend.enumerate_folder, hn]
  have hname : name ∈ Text.sorted (names.filter (fun name => Wildcard.isMatch name "*")) :=
    List.mem_mergeSort.mpr (List.mem_filter.mpr ⟨hm, hmatch⟩)
  have hloaded := congrArg (fun listed =>
    listed.map (List.filterMap (loadMod? host (folder root)))) hlisted
  exact ⟨_, hloaded, List.mem_filterMap.mpr ⟨name, hname, hd⟩⟩

/-- A file that a view finds lies below the folder that the view names as its place. -/
theorem isFolder_of_view (hne : root ≠ "") (hf : host.isFolder root = true)
    (hfile : ((folder root).limit name).isFile host modFile = true) :
    host.isFolder (Path.join root (baseOf name)) = true := by
  by_cases hstay : baseOf name = "" ∨ baseOf name = "."
  · obtain ⟨place, hl, hn⟩ := Host.isFolder_iff.mp hf
    exact Host.isFolder_iff.mpr ⟨place, (Host.locate_join_stay hne hf hstay).trans hl, hn⟩
  · obtain ⟨hb, hdot⟩ := not_or.mp hstay
    have hmod : Path.relative modFile ≠ "" := by decide
    have hbase := Backend.plain_baseOf name
    have hlast := Backend.getLast?_baseOf name
    rw [Backend.isFile_limit, Backend.isFile_folder,
      ← Backend.location_handedOn hne hbase hlast hdot (Or.inr hmod)] at hfile
    obtain ⟨place, hl⟩ := Host.locate_of_isFile hfile
    exact Host.isFolder_of_locate_join (Path.join_ne_empty hb) hl

end
end Definition

namespace PathTable

section
variable {host : Host} {d : Definition} {path : Option String}

/-- Whether it was told where it lies or not, an entry of a mod is opened where its definition was
read from. -/
theorem activate_mod (table : PathTable) (hm : d.isMod = true)
    (single : table.catalog.isMeta d.dataSet = false)
    (placed : path = none ∨ path = some d.container)
    (hf : host.isFolder d.container = true) :
    table.activate host [⟨d.dataSet, path, d⟩] =
      .ok [⟨d.dataSet, true, folder d.container⟩] := by
  have hmod : Priority.isMod ⟨d.dataSet, path, d⟩ = true := hm
  have hwanted : table.wanted? ⟨d.dataSet, path, d⟩ =
      some (⟨d.dataSet, path, d⟩, d.container) := by
    rw [wanted?, single, bound?, hmod]
    rcases placed with rfl | rfl
    · rfl
    · rfl
  have hopen : Backend.ofDataPath host d.container = .ok (folder d.container) := by
    rw [Backend.ofDataPath, hf]
    exact Backend.ofFolder_eq_ok_iff.mpr ⟨hf, rfl⟩
  rw [activate, List.filterMap_cons_some hwanted, List.filterMap_nil, List.mapM_cons,
    List.mapM_nil, openEntry, hopen, ← hmod]
  rfl

end

/-- A mod that was loaded is activated as the folder that its definition was read through, and
answers as that view for as long as the folder is there. Only a view that lost a dot tells another
path where a file is missing. -/
theorem loaded_mod_answers_as_view (host : Host) (named : NamedPaths) (configured root : String)
    (mods : Backend) (definitions : List Definition) (d : Definition) (table : PathTable)
    (path : Option String) (resolved : named.resolve configured = .ok root)
    (opened : Backend.ofFolder host root = .ok mods)
    (loaded : Definition.loadMods host mods = .ok definitions) (listed : d ∈ definitions)
    (single : table.catalog.isMeta d.dataSet = false)
    (placed : path = none ∨ path = some d.container) :
    table.activate host [⟨d.dataSet, path, d⟩] =
        .ok [⟨d.dataSet, true, folder d.container⟩] ∧
      host.isFolder d.container = true ∧
      (∃ names, mods.enumerate host "" "*" = .ok names ∧
        ∃ name ∈ names, Definition.loadMod? host mods name = some d) ∧
      ∀ name, Definition.loadMod? host mods name = some d →
        ∀ later : Host, later.isFolder d.container = true → ∀ file,
          Answers later (folder d.container) (mods.limit name) file
              (.toldOf (Backend.location d.container file)) ∧
            (mods.limit name ≠ .view mods "." →
              Answers later (folder d.container) (mods.limit name) file id) := by
  obtain ⟨hf, rfl⟩ := Backend.ofFolder_eq_ok_iff.mp opened
  have hne := Host.ne_empty_of_isFolder hf
  have hroot := NamedPaths.normal_of_resolve resolved
  have hplace : ∀ name, Definition.loadMod? host (folder root) name = some d →
      d.container = Path.join root (baseOf name) := by
    intro name hname
    rw [(Definition.of_loadMod? hname).2.2]
    exact Path.normalize_eq_join hroot hne (Backend.plain_baseOf name)
  obtain ⟨names, hnames, name, hm, hname⟩ := Definition.mem_loadMods loaded listed
  obtain ⟨hfile, hmod, -⟩ := Definition.of_loadMod? hname
  have hcontainer : host.isFolder d.container = true := by
    rw [hplace name hname]
    exact Definition.isFolder_of_view hne hf hfile
  refine ⟨activate_mod table hmod single placed hcontainer, hcontainer,
    ⟨names, hnames, name, hm, hname⟩, ?_⟩
  intro name hname later hlater file
  rw [hplace name hname] at hlater ⊢
  refine ⟨Backend.folder_answers_view hne name hlater file, ?_⟩
  intro hview
  have hdot : baseOf name ≠ "." := by
    intro he
    exact hview (congrArg (Backend.view (folder root)) he)
  exact Backend.folder_answers_view_alike hne name hlater hdot file

def standardNames : NamedPaths :=
  ⟨.ofList [(Settings.gameFolderName, "."), (Settings.userFolderName, ".")]⟩

/-- Two folders for mods. The second one's name, a backslash and a dot, leads back to where it
lies, so the definition there is read through it. -/
def modHost : Host :=
  let text := Bytes.ofText "[\"Plus\", \"\", \"\", \"\", \"Plus\"]"
  ⟨[(["Mods"], .folder), (["Mods", "plus"], .folder),
    (["Mods", "plus", "GameDefinition.json"], .file text), (["Mods", "\\."], .folder),
    (["Mods", "GameDefinition.json"], .file text)], []⟩

def modIn (container : String) : Definition :=
  { Definition.bare "Plus" "Plus" [] true with container := container }

theorem standardMods : standardNames.resolve Settings.standard.mods = .ok "./Mods" := by
  rfl

theorem modNames : modHost.names (Backend.location "./Mods" "") =
    .ok ["plus", "\\.", "GameDefinition.json"] := by
  rfl

theorem loadMod_plus : Definition.loadMod? modHost (folder "./Mods") "plus" =
    some (modIn "./Mods/plus") := by
  decide +kernel

theorem loadMod_dotted : Definition.loadMod? modHost (folder "./Mods") "\\." =
    some (modIn "./Mods/.") := by
  decide +kernel

theorem modsFolder : Backend.ofFolder modHost "./Mods" = .ok (folder "./Mods") :=
  Backend.ofFolder_eq_ok_iff.mpr ⟨by decide +kernel, rfl⟩

/-- Nothing is known to lie anywhere. -/
def bareTable : PathTable := ⟨.empty, .empty⟩

theorem loaded_mod_answers_as_view_plus : ∃ definitions,
    Definition.loadMods modHost (folder "./Mods") = .ok definitions ∧
      modIn "./Mods/plus" ∈ definitions ∧
      bareTable.activate modHost [⟨"Plus", none, modIn "./Mods/plus"⟩] =
        .ok [⟨"Plus", true, folder "./Mods/plus"⟩] ∧
      ∀ file,
        Answers modHost (folder "./Mods/plus") ((folder "./Mods").limit "plus") file id := by
  obtain ⟨definitions, hloaded, hd⟩ :=
    Definition.exists_loadMods modNames (by simp) (by decide +kernel) loadMod_plus
  obtain ⟨hactive, hfolder, -, hanswers⟩ :=
    loaded_mod_answers_as_view modHost standardNames Settings.standard.mods "./Mods"
      (folder "./Mods") definitions (modIn "./Mods/plus") bareTable none standardMods modsFolder
      hloaded hd rfl (Or.inl rfl)
  refine ⟨definitions, hloaded, hd, hactive, ?_⟩
  intro file
  apply (hanswers "plus" loadMod_plus modHost hfolder file).2
  intro hview
  have hdot : baseOf "plus" = "." := (Backend.view.inj hview).2
  exact absurd hdot (by decide +kernel)

/-- The view drops the dot that it is limited to, and the folder keeps it in what it tells. -/
theorem dotted_mod_tells_another_place :
    ¬ ∀ (host : Host) (named : NamedPaths) (configured root : String) (mods : Backend)
      (definitions : List Definition) (d : Definition) (table : PathTable) (path : Option String),
      named.resolve configured = .ok root → Backend.ofFolder host root = .ok mods →
      Definition.loadMods host mods = .ok definitions → d ∈ definitions →
      table.catalog.isMeta d.dataSet = false → path = none ∨ path = some d.container →
      ∃ b, table.activate host [⟨d.dataSet, path, d⟩] = .ok [⟨d.dataSet, true, b⟩] ∧
        ∀ name, Definition.loadMod? host mods name = some d →
          ∀ file, Answers host b (mods.limit name) file id := by
  intro hall
  obtain ⟨definitions, hloaded, hd⟩ :=
    Definition.exists_loadMods modNames (by simp) (by decide +kernel) loadMod_dotted
  obtain ⟨b, hactive, hanswers⟩ :=
    hall modHost standardNames Settings.standard.mods "./Mods" (folder "./Mods") definitions
      (modIn "./Mods/.") bareTable none standardMods modsFolder hloaded hd rfl (Or.inl rfl)
  have hfolder : modHost.isFolder (modIn "./Mods/.").container = true := by decide +kernel
  obtain rfl : b = folder "./Mods/." := by
    rw [activate_mod bareTable rfl rfl (Or.inl rfl) hfolder] at hactive
    cases hactive
    rfl
  have hopen := (hanswers "\\." loadMod_dotted "nope").openFile
  have hown : (folder "./Mods/.").openFile modHost "nope" =
      .error (.fileNotFound "./Mods/./nope") := by
    rfl
  have hview : ((folder "./Mods").limit "\\.").openFile modHost "nope" =
      .error (.fileNotFound "./Mods/nope") := by
    rfl
  rw [hown, hview] at hopen
  exact absurd hopen (by simp [Except.mapError])

end PathTable
end LayeredAssets
