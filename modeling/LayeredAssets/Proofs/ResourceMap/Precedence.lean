import LayeredAssets.Proofs.ResourceMap.Merging

namespace LayeredAssets

/-- What is declared and looked up: a resource by its name, a bank in one data set, or a file in one
archive of a data set. -/
inductive Subject
  | animation (name : String)
  | path (name : String)
  | video (name : String)
  | effect (name : String)
  | music (name : String)
  | bank (name dataSet : String)
  | file (dataSet archive name : String)

/-- Banks and the archives of a file are listed. Everything else is one thing under its name. -/
def Subject.isListed : Subject → Bool
  | .bank _ _ => true
  | .file _ _ _ => true
  | _ => false

/-- What may be said of a subject. -/
inductive Declaration
  | animation (mapping : AnimationMapping)
  | path (mapping : PathMapping)
  | video (mapping : VideoMapping)
  | effect (mapping : EffectMapping)
  | music (mapping : MusicMapping)
  | bank (mapping : BankMapping)
  | file (holding : Holding)
  deriving DecidableEq

/-- All that records say of a subject, in their order. -/
def Declared.about (d : Declared) : Subject → List Declaration
  | .animation name => (d.animations.filter fun a => a.1 == name).map fun a => .animation a.2
  | .path name => (d.paths.filter fun p => p.name == name).map .path
  | .video name => (d.videos.filter fun v => v.name == name).map .video
  | .effect name => (d.effects.filter fun e => e.name == name).map .effect
  | .music name => (d.musics.filter fun m => m.name == name).map .music
  | .bank name dataSet =>
    ((d.banks.filter fun b => b.name == name).filter fun b => b.dataSet == dataSet).map .bank
  | .file dataSet archive name =>
    ((d.keeping dataSet name).filter fun h => h.archive == archive).map .file

namespace ResourceMap

/-- What a map tells of a subject. Of the banks of a name in a data set the first one counts. -/
def answer (m : ResourceMap) : Subject → Option Declaration
  | .animation name => (m.animation? name).map .animation
  | .path name => (m.path? name).map .path
  | .video name => (m.video? name).map .video
  | .effect name => (m.effect? name).map .effect
  | .music name => (m.music? name).map .music
  | .bank name dataSet => ((m.banksNamed name).find? fun b => b.dataSet == dataSet).map .bank
  | .file dataSet archive name => (m.holding? dataSet archive name).map .file

/-- What is declared last is what was there first, if it is listed at all. -/
def Undisputed (m : ResourceMap) (d : Declared) (s : Subject) : Prop :=
  s.isListed = true → d.about s ≠ [] → (m.answer s).or (d.about s).head? = (d.about s).getLast?

theorem map_lastNamed {α β : Type} (f : α → β) (name : α → String) (wanted : String)
    (declared : List α) : (lastNamed name wanted declared).map f =
      ((declared.filter fun a => name a == wanted).map f).getLast? := by
  rw [lastNamed, List.getLast?_map]

theorem find?_keepNew (known : List Holding) (holding : Holding) (archive : String) :
    (keepNew known holding).find? (fun h => h.archive == archive) =
      (known.find? fun h => h.archive == archive).or
        ([holding].find? fun h => h.archive == archive) := by
  by_cases hk : known.any (sameArchive · holding) = true
  · rw [keepNew_of_known hk]
    by_cases ha : holding.archive = archive
    · obtain ⟨h, hm, hs⟩ := List.any_eq_true.mp hk
      have hfound : (known.find? fun h => h.archive == archive).isSome = true :=
        List.find?_isSome.mpr ⟨h, hm, ha ▸ hs⟩
      rw [Option.or_of_isSome hfound]
    · rw [List.find?_singleton, if_neg (by simpa using ha), Option.or_none]
  · rw [keepNew_of_new hk, List.find?_append]

/-- Whatever is added, an archive that is known stays as it is. -/
theorem find?_withNew (known added : List Holding) (archive : String) :
    (withNew known added).find? (fun h => h.archive == archive) =
      (known.find? fun h => h.archive == archive).or
        (added.find? fun h => h.archive == archive) := by
  rw [← foldl_keepNew]
  induction added generalizing known with
  | nil => rw [List.foldl_nil, List.find?_nil, Option.or_none]
  | cons holding added ih =>
    rw [List.foldl_cons, ih, find?_keepNew, Option.or_assoc, ← List.find?_append]
    rfl

theorem filter_keepNew {known : List Holding} {holding : Holding} {archive : String}
    (h : ¬ (holding.archive == archive) = true) :
    (keepNew known holding).filter (fun h => h.archive == archive) =
      known.filter fun h => h.archive == archive := by
  by_cases hk : known.any (sameArchive · holding) = true
  · rw [keepNew_of_known hk]
  · rw [keepNew_of_new hk, List.filter_append,
      List.filter_cons_of_neg (p := fun h : Holding => h.archive == archive) h, List.filter_nil,
      List.append_nil]

/-- An archive that is not among the added ones is listed as it was. -/
theorem filter_withNew {known added : List Holding} {archive : String}
    (h : ∀ holding ∈ added, ¬ (holding.archive == archive) = true) :
    (withNew known added).filter (fun h => h.archive == archive) =
      known.filter fun h => h.archive == archive := by
  rw [← foldl_keepNew]
  induction added generalizing known with
  | nil => rfl
  | cons holding added ih =>
    obtain ⟨hfirst, hrest⟩ := List.forall_mem_cons.mp h
    rw [List.foldl_cons, ih hrest, filter_keepNew hfirst]

namespace Merged

variable {m m' : ResourceMap} {d : Declared} {s : Subject}

/-- Of what is not listed the last declaration counts. -/
theorem answer_named (h : Merged m d m') (hs : s.isListed = false) :
    m'.answer s = (d.about s).getLast?.or (m.answer s) := by
  cases s with
  | animation name =>
    rw [answer, h.animation, Option.map_or, Option.map_map, map_lastNamed]
    rfl
  | path name =>
    rw [answer, h.path, Option.map_or, map_lastNamed]
    rfl
  | video name =>
    rw [answer, h.video, Option.map_or, map_lastNamed]
    rfl
  | effect name =>
    rw [answer, h.effect, Option.map_or, map_lastNamed]
    rfl
  | music name =>
    rw [answer, h.music, Option.map_or, map_lastNamed]
    rfl
  | bank name dataSet => cases hs
  | file dataSet archive name => cases hs

/-- Of what is listed the first declaration counts, and what the map has comes before. -/
theorem answer_listed (h : Merged m d m') (hs : s.isListed = true) :
    m'.answer s = (m.answer s).or (d.about s).head? := by
  cases s with
  | bank name dataSet =>
    rw [answer, h.banks, List.find?_append, Option.map_or, answer, Declared.about, List.head?_map,
      List.head?_filter]
  | file dataSet archive name =>
    rw [answer, holding?, h.holdings, find?_withNew, Option.map_or, answer, holding?,
      Declared.about, List.head?_map, List.head?_filter]
  | _ => cases hs

theorem answer_undeclared (h : Merged m d m') (hd : d.about s = []) :
    m'.answer s = m.answer s := by
  cases hs : s.isListed with
  | false => rw [h.answer_named hs, hd, List.getLast?_nil, Option.none_or]
  | true => rw [h.answer_listed hs, hd, List.head?_nil, Option.or_none]

/-- The last declaration counts wherever there is no other before it in a list. -/
theorem answer_eq_last_iff (h : Merged m d m') :
    m'.answer s = (d.about s).getLast?.or (m.answer s) ↔ Undisputed m d s := by
  cases hs : s.isListed with
  | false =>
    constructor
    · intro _ hl
      rw [hs] at hl
      cases hl
    · intro _
      exact h.answer_named hs
  | true =>
    rw [h.answer_listed hs]
    by_cases hd : d.about s = []
    · rw [hd, List.head?_nil, List.getLast?_nil, Option.or_none, Option.none_or]
      exact iff_of_true rfl fun _ hne => absurd hd hne
    · have hlast : (d.about s).getLast?.isSome = true := by simpa using hd
      rw [Option.or_of_isSome hlast]
      exact ⟨fun he _ _ => he, fun hu => hu hs hd⟩

/-- Banks that are not declared are listed as they were, in the data set that they are in. -/
theorem banks_undeclared (h : Merged m d m') {name dataSet : String}
    (hd : d.about (.bank name dataSet) = []) :
    (m'.banksNamed name).filter (fun b => b.dataSet == dataSet) =
      (m.banksNamed name).filter fun b => b.dataSet == dataSet := by
  rw [h.banks, List.filter_append, List.map_eq_nil_iff.mp hd, List.append_nil]

theorem holdings_undeclared (h : Merged m d m') {dataSet archive name : String}
    (hd : d.about (.file dataSet archive name) = []) :
    (m'.holdings dataSet name).filter (fun holding => holding.archive == archive) =
      (m.holdings dataSet name).filter fun holding => holding.archive == archive := by
  rw [h.holdings, filter_withNew (List.filter_eq_nil_iff.mp (List.map_eq_nil_iff.mp hd))]

end Merged

open Json (ArrayOf texts)

/-- A catalog that goes into a map answers for what it declares, the last declaration before all
others, and leaves everything else as it was. But where banks and the archives of a file are
listed, what comes first stays: there a catalog is heard only if nothing else was declared before. -/
theorem later_declaration_answers (m : ResourceMap) (file text : String)
    {objects : List (List (String × Json))} {records : List MapRecord}
    (array : ArrayOf text objects) (read : ReadAs objects records) :
    let d := Declared.ofRecords records
    let m' := (m.extend file text).1
    (m.extend file text).2 = .ok () ∧
      (∀ s, m'.answer s = (d.about s).getLast?.or (m.answer s) ↔ Undisputed m d s) ∧
      (∀ s, s.isListed = true → m'.answer s = (m.answer s).or (d.about s).head?) ∧
      (∀ s, d.about s = [] → m'.answer s = m.answer s) ∧
      (∀ name dataSet, d.about (.bank name dataSet) = [] →
        (m'.banksNamed name).filter (fun b => b.dataSet == dataSet) =
          (m.banksNamed name).filter fun b => b.dataSet == dataSet) ∧
      ∀ dataSet archive name, d.about (.file dataSet archive name) = [] →
        (m'.holdings dataSet name).filter (fun holding => holding.archive == archive) =
          (m.holdings dataSet name).filter fun holding => holding.archive == archive := by
  intro d m'
  have hextend := extend_of_read array read m file
  have hm : Merged m d m' := by
    change Merged m d (m.extend file text).1
    rw [hextend]
    exact merged_foldl_add m records
  refine ⟨by rw [hextend], fun s => hm.answer_eq_last_iff, fun s => hm.answer_listed,
    fun s => hm.answer_undeclared, fun name dataSet => hm.banks_undeclared,
    fun dataSet archive name => hm.holdings_undeclared⟩

def bandText (dataSet archive : String) : String :=
  "[\x7b\"sound_banks\":[[\"band\",\"" ++ dataSet ++ "\",\"" ++ archive ++
    "\",\"BAND.VH\",\"BAND.VB\"]]\x7d]"

def headerText (isPsx : String) : String :=
  "[\x7b\"data_set_name\":\"game\",\"is_psx\":" ++ isPsx ++
    ",\"lvls\":[[\"R1.LVL\",[\"BAND.VH\"]]]\x7d]"

def bandMembers (dataSet archive : String) : List (Option String × Json) :=
  [(some (.ofList "sound_banks".toList),
    .array [texts ["band", dataSet, archive, "BAND.VH", "BAND.VB"]])]

def headerMembers (isPsx : Bool) : List (Option String × Json) :=
  [(some (.ofList "data_set_name".toList), .string (.ofList "game".toList)),
    (some (.ofList "is_psx".toList), .bool isPsx),
    (some (.ofList "lvls".toList),
      .array [.array [.string (.ofList "R1.LVL".toList), texts ["BAND.VH"]]])]

def band (dataSet archive : String) : BankMapping :=
  ⟨"band", dataSet, archive, "BAND.VH", "BAND.VB"⟩

def headerIn (isPsx : Bool) : Holding := ⟨"R1.LVL", isPsx, false, false⟩

def bandRecord (dataSet archive : String) : MapRecord := .banks [band dataSet archive]

def headerRecord (isPsx : Bool) : MapRecord := .files "game" [(headerIn isPsx, ["BAND.VH"])]

/-- A map of the game with its walk and its band. -/
def bandMap : ResourceMap :=
  [walkRecord 7, bandRecord "game" "R1.LVL", headerRecord false].foldl add empty

/-- The walk changes, and another data set gets the band that the game has. -/
theorem later_declaration_answers_band :
    (bandMap.extend "patch" ("[" ++ walkText "8" ++ "]")).1.answer (.animation "walk") =
        some (.animation ⟨"ABE.BAN", 8, 1⟩) ∧
      (bandMap.extend "patch" (bandText "more" "R2.LVL")).1.answer (.bank "band" "more") =
        some (.bank (band "more" "R2.LVL")) ∧
      (bandMap.extend "patch" (bandText "more" "R2.LVL")).1.answer (.bank "band" "game") =
        some (.bank (band "game" "R1.LVL")) := by
  have hwalk : ArrayOf ("[" ++ walkText "8" ++ "]") ([walkMembers 8].map Json.named) :=
    .intro (by rfl) (by decide +kernel)
  have hband : ArrayOf (bandText "more" "R2.LVL") ([bandMembers "more" "R2.LVL"].map Json.named) :=
    .intro (by rfl) (by decide +kernel)
  have hwalkRead : ReadAs ([walkMembers 8].map Json.named) [walkRecord 8] :=
    .cons (by decide +kernel) .nil
  have hbandRead : ReadAs ([bandMembers "more" "R2.LVL"].map Json.named)
      [bandRecord "more" "R2.LVL"] := .cons (by decide +kernel) .nil
  obtain ⟨-, hlast, -⟩ := later_declaration_answers bandMap "patch" _ hwalk hwalkRead
  obtain ⟨-, hadded, -, hkept, -⟩ := later_declaration_answers bandMap "patch" _ hband hbandRead
  refine ⟨(hlast (.animation "walk")).mpr (by rintro ⟨⟩), ?_, ?_⟩
  · exact (hadded (.bank "band" "more")).mpr fun _ _ => by decide +kernel
  · exact (hkept (.bank "band" "game") (by decide +kernel)).trans (by decide +kernel)

/-- The last declaration of a subject answers for it, whatever the map had. -/
def HeardLast (s : Subject) : Prop :=
  ∀ (m : ResourceMap) (file text : String) (objects : List (List (String × Json)))
    (records : List MapRecord), ArrayOf text objects → ReadAs objects records →
      (m.extend file text).1.answer s =
        ((Declared.ofRecords records).about s).getLast?.or (m.answer s)

/-- A patch that puts the band elsewhere, and one that makes its header anew, change nothing. -/
theorem redeclared_stays_unheard :
    ¬ HeardLast (.bank "band" "game") ∧ ¬ HeardLast (.file "game" "R1.LVL" "BAND.VH") := by
  constructor
  · intro h
    have hband : ArrayOf (bandText "game" "R2.LVL")
        ([bandMembers "game" "R2.LVL"].map Json.named) := .intro (by rfl) (by decide +kernel)
    have hheard := h bandMap "patch" _ _ [bandRecord "game" "R2.LVL"] hband
      (.cons (by decide +kernel) .nil)
    exact absurd hheard (by decide +kernel)
  · intro h
    have hheader : ArrayOf (headerText "true") ([headerMembers true].map Json.named) :=
      .intro (by rfl) (by decide +kernel)
    have hheard := h bandMap "patch" _ _ [headerRecord true] hheader
      (.cons (by decide +kernel) .nil)
    exact absurd hheard (by decide +kernel)

end ResourceMap
end LayeredAssets
