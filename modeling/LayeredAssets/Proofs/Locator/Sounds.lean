import LayeredAssets.Proofs.Locator.Opening
import LayeredAssets.Proofs.Locator.Priority

namespace LayeredAssets

/-- Where the only candidate settles a search, the search finds what it settles with. -/
theorem Verdict.pick_of_only {α β : Type} {appraise : β → Verdict α} {candidates : List β} {c : β}
    {found : α} (hm : c ∈ candidates) (only : ∀ b ∈ candidates, b = c)
    (hc : appraise c = .settle found) : pick appraise candidates = some found := by
  cases candidates with
  | nil => cases hm
  | cons first rest =>
    obtain rfl := only first List.mem_cons_self
    rw [pick, hc]

namespace Locator

/-- What a sound bank is made of is there: its archive opens, keeps the header by its declaration,
and has the header and the body. -/
structure BankFiles (l : Locator) (host : Host) (s : ActiveSet) (mapping : BankMapping)
    (holding : Holding) (header body : SubFile) : Prop where
  declared : l.map.holding? s.name mapping.archive mapping.header = some holding
  contains : ∃ archive, l.Opened host s mapping.archive archive ∧
    archive.file? mapping.header = some header ∧ archive.file? mapping.body = some body

/-- The archive does not open, is not declared to keep the header, or lacks one of the files. -/
inductive BankPassed (l : Locator) (host : Host) (s : ActiveSet) (mapping : BankMapping) :
    Prop where
  | closed (closed : l.Closed host s mapping.archive)
  | undeclared (absent : l.map.holding? s.name mapping.archive mapping.header = none)
  | headerless {archive : Archive} (opened : l.Opened host s mapping.archive archive)
      (lacks : archive.file? mapping.header = none)
  | bodiless {archive : Archive} (opened : l.Opened host s mapping.archive archive)
      (lacks : archive.file? mapping.body = none)

/-- The bank is made of the first chunks of its files. Where one of them has none, there is no bank,
whatever lies behind. -/
inductive BankSettled (l : Locator) (host : Host) (name : String) (s : ActiveSet)
    (mapping : BankMapping) : Option SoundBank → Prop where
  | full {holding : Holding} {header body : SubFile} {first second : Chunk}
      {samples : Option Stream} (files : l.BankFiles host s mapping holding header body)
      (headed : header.at? 0 = some first) (embodied : body.at? 0 = some second)
      (streams : ∀ stream, samples = some stream ↔ Streams host s.backend samplesFile stream) :
      BankSettled l host name s mapping (some {
        name := name
        dataSet := s.name
        archiveName := mapping.archive
        isPsx := holding.isPsx
        header := first
        body := second
        samples := samples })
  | empty {holding : Holding} {header body : SubFile}
      (files : l.BankFiles host s mapping holding header body)
      (void : header.at? 0 = none ∨ body.at? 0 = none) : BankSettled l host name s mapping none

/-- The music is in the game that it is declared for, and its bank is in one of the games. -/
inductive MusicPlays (l : Locator) (host : Host) (bank? : String → Option SoundBank)
    (name : String) : Music → Prop where
  | found {mapping : MusicMapping} {s : ActiveSet} {archive : Archive} {file : SubFile}
      {sequence : Chunk} {bank : SoundBank} (mapped : l.map.music? name = some mapping)
      (isActive : s ∈ l.active) (isGame : s.isMod = false) (owns : s.name = mapping.dataSet)
      (opened : l.Opened host s mapping.archive archive)
      (contains : archive.file? mapping.file = some file)
      (banked : bank? mapping.bank = some bank) (chunk : file.at? mapping.index = some sequence) :
      MusicPlays l host bank? name {
        name := name
        dataSet := s.name
        archiveName := mapping.archive
        file := mapping.file
        sequence := sequence
        bank := bank }

/-- A video that opens is found, with the game's own subtitles for it, if there are any. -/
inductive VideoSettled (host : Host) (gameFiles : Option Backend) (name : String) (s : ActiveSet)
    (location : VideoLocation) : Option Video → Prop where
  | found {stream : Stream} {subtitles : Option Stream}
      (opens : Streams host s.backend location.file stream)
      (subtitled : ∀ text, subtitles = some text ↔
        ∃ b, gameFiles = some b ∧ Streams host b (subtitlesFile name) text) :
      VideoSettled host gameFiles name s location (some {
        name := name
        dataSet := s.name
        file := location.file
        stream := stream
        startSector := location.startSector
        endSector := location.endSector
        subtitles := subtitles })

section
variable {l : Locator} {host : Host} {name : String} {s : ActiveSet} {mapping : BankMapping}

theorem BankPassed.appraise (h : l.BankPassed host s mapping) :
    l.appraiseBank host name (s, mapping) = .passOver := by
  unfold appraiseBank
  dsimp only
  cases h with
  | closed closed => rw [closed.archive?]
  | undeclared absent =>
    cases l.archive? host s mapping.archive with
    | none => rfl
    | some archive =>
      dsimp only
      rw [absent]
  | headerless opened lacks =>
    rw [opened.archive?]
    dsimp only
    rw [lacks]
    cases l.map.holding? s.name mapping.archive mapping.header <;> rfl
  | @bodiless archive opened lacks =>
    rw [opened.archive?]
    dsimp only
    rw [lacks]
    cases l.map.holding? s.name mapping.archive mapping.header with
    | none => rfl
    | some holding => cases archive.file? mapping.header <;> rfl

theorem BankSettled.appraise {outcome : Option SoundBank}
    (h : l.BankSettled host name s mapping outcome) :
    l.appraiseBank host name (s, mapping) = outcome.elim .refuse .settle := by
  unfold appraiseBank
  dsimp only
  cases h with
  | @full holding header body first second samples files headed embodied streams =>
    obtain ⟨archive, opened, hheader, hbody⟩ := files.contains
    have hsamples : stream? host s.backend samplesFile = samples := by
      ext stream
      exact stream?_eq_some_iff.trans (streams stream).symm
    rw [opened.archive?]
    dsimp only
    rw [files.declared, hheader, hbody]
    dsimp only
    rw [headed, embodied, hsamples]
    rfl
  | @empty holding header body files void =>
    obtain ⟨archive, opened, hheader, hbody⟩ := files.contains
    rw [opened.archive?]
    dsimp only
    rw [files.declared, hheader, hbody]
    dsimp only
    obtain hv | hv := void
    · rw [hv]
      rfl
    · rw [hv]
      cases header.at? 0 <;> rfl

theorem bankPassed_or_settled (l : Locator) (host : Host) (name : String) (s : ActiveSet)
    (mapping : BankMapping) :
    l.BankPassed host s mapping ∨ ∃ outcome, l.BankSettled host name s mapping outcome := by
  obtain hclosed | ⟨archive, hopened⟩ := closed_or_opened l host s mapping.archive
  · exact Or.inl (.closed hclosed)
  cases hd : l.map.holding? s.name mapping.archive mapping.header with
  | none => exact Or.inl (.undeclared hd)
  | some holding =>
    cases hh : archive.file? mapping.header with
    | none => exact Or.inl (.headerless hopened hh)
    | some header =>
      cases hb : archive.file? mapping.body with
      | none => exact Or.inl (.bodiless hopened hb)
      | some body =>
        have files : l.BankFiles host s mapping holding header body :=
          ⟨hd, archive, hopened, hh, hb⟩
        cases hfirst : header.at? 0 with
        | none => exact Or.inr ⟨none, .empty files (Or.inl hfirst)⟩
        | some first =>
          cases hsecond : body.at? 0 with
          | none => exact Or.inr ⟨none, .empty files (Or.inr hsecond)⟩
          | some second =>
            exact Or.inr ⟨_, .full files hfirst hsecond fun _ => stream?_eq_some_iff⟩

theorem uncachedBank_eq_iff (outcome : Option SoundBank) : l.uncachedBank host name = outcome ↔
    Verdict.Decides (fun c => l.BankPassed host c.1 c.2)
      (fun c => l.BankSettled host name c.1 c.2) (l.bankCandidates name) outcome := by
  unfold uncachedBank
  exact Verdict.pick_eq_iff_decides (fun c _ h => h.appraise) (fun c _ outcome h => h.appraise)
    (fun c _ => bankPassed_or_settled l host name c.1 c.2) outcome

theorem MusicPlays.of_appraise {mapping : MusicMapping} {s : ActiveSet} {music : Music}
    (mapped : l.map.music? name = some mapping)
    (hs : s ∈ l.builtIn.filter fun s => s.name == mapping.dataSet)
    (h : l.appraiseMusic host name mapping s = .settle music) :
    l.MusicPlays host (l.uncachedBank host) name music := by
  obtain ⟨hbuilt, howns⟩ := List.mem_filter.mp hs
  obtain ⟨hactive, hgame⟩ := List.mem_filter.mp hbuilt
  unfold appraiseMusic at h
  split at h
  · cases h
  · next archive ha =>
    split at h
    · cases h
    · next file hf =>
      split at h
      · cases h
      · next bank hb =>
        split at h
        · cases h
        · next sequence hi =>
          cases h
          exact .found mapped hactive (by simpa using hgame) (by simpa using howns)
            (archive?_eq_some_iff.mp ha) hf hb hi

/-- One data set at most has the name that the music is declared for. -/
theorem uncachedMusic_eq_some_iff (distinct : (l.active.map ActiveSet.name).Nodup) (music : Music) :
    l.uncachedMusic host name = some music ↔
      l.MusicPlays host (l.uncachedBank host) name music := by
  constructor
  · intro h
    unfold uncachedMusic at h
    split at h
    · cases h
    · next mapping mapped =>
      obtain ⟨s, hm, hs⟩ := Verdict.pick_eq_some h
      exact .of_appraise mapped hm hs
  · intro h
    cases h with
    | @found mapping s archive file sequence bank mapped isActive isGame owns opened contains
        banked chunk =>
      unfold uncachedMusic
      rw [mapped]
      apply Verdict.pick_of_only (c := s)
      · exact List.mem_filter.mpr
          ⟨List.mem_filter.mpr ⟨isActive, by simp [isGame]⟩, by simp [owns]⟩
      · intro other hm
        obtain ⟨hbuilt, howns⟩ := List.mem_filter.mp hm
        exact set_eq distinct (builtIn_mem hbuilt) isActive
          ((beq_iff_eq.mp howns).trans owns.symm)
      · unfold appraiseMusic
        rw [opened.archive?]
        dsimp only
        rw [contains, banked]
        dsimp only
        rw [chunk]

theorem subtitles?_eq_some_iff {text : Stream} : l.subtitles? host name = some text ↔
    ∃ b, l.gameFiles = some b ∧ Streams host b (subtitlesFile name) text := by
  unfold subtitles?
  rw [Option.bind_eq_some_iff]
  exact exists_congr fun b => and_congr_right fun _ => stream?_eq_some_iff

theorem VideoSettled.appraise {location : VideoLocation} {outcome : Option Video}
    (h : VideoSettled host l.gameFiles name s location outcome) :
    l.appraiseVideo host name (s, location) = outcome.elim .refuse .settle := by
  cases h with
  | @found stream subtitles opens subtitled =>
    have hsubtitles : l.subtitles? host name = subtitles := by
      ext text
      exact subtitles?_eq_some_iff.trans (subtitled text).symm
    unfold appraiseVideo
    dsimp only
    rw [stream?_eq_some_iff.mpr opens, hsubtitles]
    rfl

theorem pickVideo_eq_iff {candidates : List (ActiveSet × VideoLocation)} (outcome : Option Video) :
    Verdict.pick (l.appraiseVideo host name) candidates = outcome ↔
      Verdict.Decides (fun c => ∀ stream, ¬ Streams host c.1.backend c.2.file stream)
        (fun c => VideoSettled host l.gameFiles name c.1 c.2) candidates outcome := by
  refine Verdict.pick_eq_iff_decides ?_ (fun c _ outcome h => h.appraise) ?_ outcome
  · intro c _ hnone
    unfold appraiseVideo
    dsimp only
    rw [stream?_eq_none_iff.mpr hnone]
  · intro c _
    cases hs : stream? host c.1.backend c.2.file with
    | none => exact Or.inl (stream?_eq_none_iff.mp hs)
    | some stream =>
      exact Or.inr ⟨_, .found (stream?_eq_some_iff.mp hs) fun _ => subtitles?_eq_some_iff⟩

end

/-- The first mapping of a bank that the games have all files of decides, even if a file is empty.
Music is found if all of it is there, and a video in the first place from which it opens. -/
theorem first_playable_decides (loader : String → Stream → Except Fault Archive)
    (map : ResourceMap) (table : PathTable) (gameFiles : Option Backend) (host : Host)
    (active : List ActiveSet) (distinct : (active.map ActiveSet.name).Nodup) (name : String) :
    let l := (make loader map table gameFiles).setActive active
    let games := active.filter fun s => !s.isMod
    let bank? := fun name => (l.locateBank host name).2
    let mappings (s : ActiveSet) := (map.banksNamed name).filter fun m => m.dataSet == s.name
    let locations (s : ActiveSet) (m : VideoMapping) :=
      m.locations.filter fun location => location.dataSet == s.name
    (∀ outcome, bank? name = outcome ↔
      Verdict.Decides (fun c => l.BankPassed host c.1 c.2)
        (fun c => l.BankSettled host name c.1 c.2)
        (games.flatMap fun s => (mappings s).map (s, ·)) outcome) ∧
      (∀ music, (l.locateMusic host name).2 = some music ↔ l.MusicPlays host bank? name music) ∧
      (map.video? name = none → (l.locateVideo host name).2 = none) ∧
      ∀ mapping, map.video? name = some mapping → ∀ outcome,
        (l.locateVideo host name).2 = outcome ↔
          Verdict.Decides (fun c => ∀ stream, ¬ Streams host c.1.backend c.2.file stream)
            (fun c => VideoSettled host gameFiles name c.1 c.2)
            (games.flatMap fun s => (locations s mapping).map (s, ·)) outcome := by
  intro l games bank? mappings locations
  have hl : Serves active l host l := .fresh distinct rfl rfl
  have hbank : bank? = l.uncachedBank host := funext fun name => (hl.locateBank name).2
  have hvideo : (l.locateVideo host name).2 = l.uncachedVideo host name := (hl.locateVideo name).2
  refine ⟨?_, ?_, ?_, ?_⟩
  · rw [hbank]
    exact uncachedBank_eq_iff
  · intro music
    rw [(hl.locateMusic name).2, hbank]
    exact uncachedMusic_eq_some_iff distinct music
  · intro unmapped
    change l.map.video? name = none at unmapped
    rw [hvideo, uncachedVideo, unmapped]
  · intro mapping mapped outcome
    change l.map.video? name = some mapping at mapped
    rw [hvideo, uncachedVideo, mapped]
    exact pickVideo_eq_iff outcome

def songGame : ActiveSet := ⟨"game", false, .folder "a"⟩

def songHeader : SubFile := .ofChunks [⟨2, .bits, [0xaa]⟩]

def songBody : SubFile := .ofChunks [⟨3, .bits, [0xaa]⟩]

def songBank : SoundBank where
  name := "band"
  dataSet := "game"
  archiveName := "R1.LVL"
  isPsx := true
  header := ⟨2, .bits, [0xaa]⟩
  body := ⟨3, .bits, [0xaa]⟩
  samples := none

theorem first_playable_decides_song : ([songGame].map ActiveSet.name).Nodup ∧
    ((songLocator [songGame]).locateBank twinHost "band").2 = some songBank ∧
      ((songLocator [songGame]).locateMusic twinHost "song").2 =
        some ⟨"song", "game", "R1.LVL", "SONG.BSQ", ⟨1, .bits, [0xaa]⟩, songBank⟩ := by
  have hd : ([songGame].map ActiveSet.name).Nodup := by decide
  have opened : (songLocator [songGame]).Opened twinHost songGame "R1.LVL"
      (songArchive [0xaa]) := ⟨rfl, .file [0xaa] 0, rfl, rfl⟩
  have files : (songLocator [songGame]).BankFiles twinHost songGame
      ⟨"band", "game", "R1.LVL", "BAND.VH", "BAND.VB"⟩ ⟨"R1.LVL", true, false, false⟩
      songHeader songBody := ⟨rfl, songArchive [0xaa], opened, rfl, rfl⟩
  have headed : songHeader.at? 0 = some ⟨2, .bits, [0xaa]⟩ := rfl
  have embodied : songBody.at? 0 = some ⟨3, .bits, [0xaa]⟩ := rfl
  have mapped : songMap.music? "song" = some ⟨"song", "game", "R1.LVL", "SONG.BSQ", 0, "band"⟩ :=
    rfl
  obtain ⟨hdecides, _⟩ := first_playable_decides songLoader songMap ⟨.empty, .empty⟩ none twinHost
    [songGame] hd "band"
  obtain ⟨_, hplays, _⟩ := first_playable_decides songLoader songMap ⟨.empty, .empty⟩ none twinHost
    [songGame] hd "song"
  have settled : BankSettled _ _ "band" _ _ _ :=
    .full files headed embodied fun _ => stream?_eq_some_iff
  have hbank : ((songLocator [songGame]).locateBank twinHost "band").2 = some songBank :=
    (hdecides _).mpr (.ended settled)
  have plays : (songLocator [songGame]).MusicPlays twinHost
      (fun name => ((songLocator [songGame]).locateBank twinHost name).2) "song" _ :=
    .found mapped List.mem_cons_self rfl rfl opened rfl hbank rfl
  exact ⟨hd, hbank, (hplays _).mpr plays⟩

end Locator
end LayeredAssets
