import LayeredAssets.Proofs.Locator.Answers

namespace LayeredAssets

/-- What the owner of a locator does when the data sets may change too. -/
inductive Turn
  | move (move : Move)
  | activate (active : List ActiveSet)
  | prioritise (priorities : List Priority)

/-- A chunk, and the data set and the archive that an answer says it is from. -/
structure Taken where
  dataSet : String
  archiveName : String
  chunk : Chunk
  deriving DecidableEq

def GameCamera.taken (camera : GameCamera) : List Taken :=
  (camera.bits :: camera.foreground.toList).map (⟨camera.dataSet, camera.archiveName, ·⟩)

def Camera.taken : Camera → List Taken
  | .game camera => camera.taken
  | .replacement _ _ => []
  | .delta _ _ base => base.taken

def SoundBank.taken (bank : SoundBank) : List Taken :=
  [bank.header, bank.body].map (⟨bank.dataSet, bank.archiveName, ·⟩)

/-- All the chunks in an answer. -/
def Answer.taken : Answer → List Taken
  | animation found => found.toList.map fun a => ⟨a.dataSet, a.archiveName, a.chunk⟩
  | path found => found.toList.map fun p => ⟨p.dataSet, p.archiveName, p.chunk⟩
  | camera found => found.toList.flatMap Camera.taken
  | bank found => found.toList.flatMap SoundBank.taken
  | effect found => found.toList.flatMap fun e => e.bank.taken
  | music found => found.toList.flatMap fun m =>
    ⟨m.dataSet, m.archiveName, m.sequence⟩ :: m.bank.taken
  | video _ => []

namespace Verdict

theorem pick_eq_some {α β : Type} {appraise : β → Verdict α} {candidates : List β} {found : α}
    (h : pick appraise candidates = some found) :
    ∃ candidate ∈ candidates, appraise candidate = .settle found := by
  induction candidates with
  | nil => cases h
  | cons candidate rest ih =>
    rw [pick] at h
    split at h
    · obtain ⟨c, hm, hc⟩ := ih h
      exact ⟨c, List.mem_cons_of_mem _ hm, hc⟩
    · next hs =>
      cases h
      exact ⟨candidate, List.mem_cons_self, hs⟩
    · cases h

end Verdict

namespace Locator

/-- The chunk is in the archive, as the active data set of that name has it. -/
def Supplies (l : Locator) (host : Host) (taken : Taken) : Prop :=
  ∃ s ∈ l.active, s.name = taken.dataSet ∧ ∃ archive,
    l.load host s taken.archiveName = .ok archive ∧
      ∃ file sub, archive.file? file = some sub ∧ sub.Contains taken.chunk

/-- The data sets that a turn makes active. A list that cannot be activated is none. -/
def activated? (l : Locator) (host : Host) : Turn → Option (List ActiveSet)
  | .move _ => none
  | .activate active => some active
  | .prioritise priorities => (l.table.activate host priorities).toOption

def turn (l : Locator) (host : Host) : Turn → Locator × Option Answer
  | .move move => l.move host move
  | .activate active => (l.setActive active, none)
  | .prioritise priorities =>
    match l.setPriorities host priorities with
    | .ok l => (l, none)
    | .error _ => (l, none)

/-- The answers in the course of some turns, each with the locator that gave it. -/
def course (l : Locator) (host : Host) : List Turn → List (Locator × Answer)
  | [] => []
  | turn :: rest =>
    (l.turn host turn).2.toList.map (l, ·) ++ (l.turn host turn).1.course host rest

/-- Names tell the data sets apart in each list that becomes active. -/
def Distinct (l : Locator) (host : Host) : List Turn → Prop
  | [] => True
  | turn :: rest =>
    (∀ active ∈ l.activated? host turn, (active.map ActiveSet.name).Nodup) ∧
      (l.turn host turn).1.Distinct host rest

/-- Something of a data set of this name is held. -/
def Holds (l : Locator) (dataSet : String) : Prop :=
  ∃ entry ∈ l.cache.handles.entries, entry.2.key.dataSet = dataSet

instance (l : Locator) (dataSet : String) : Decidable (l.Holds dataSet) :=
  inferInstanceAs (Decidable (∃ entry ∈ l.cache.handles.entries, entry.2.key.dataSet = dataSet))

/-- As these data sets become active, none takes over the name of a known one with another backend
of which something is still held. -/
def Yields (l : Locator) (known active : List ActiveSet) : Prop :=
  ∀ s ∈ active, ∀ t ∈ known, s.name = t.name → l.Holds t.name → s.backend = t.backend

/-- What each name stood for last, once these data sets are active. -/
def remember (known active : List ActiveSet) : List ActiveSet :=
  active ++ known.filter (fun t => active.all (fun s => s.name != t.name))

def known (l : Locator) (host : Host) (before : List ActiveSet) (turn : Turn) : List ActiveSet :=
  (l.activated? host turn).elim before (remember before)

/-- Nothing of a data set outlives its name being given to another backend. -/
def Settled (l : Locator) (host : Host) (before : List ActiveSet) : List Turn → Prop
  | [] => True
  | turn :: rest =>
    (∀ active ∈ l.activated? host turn, l.Yields before active) ∧
      (l.turn host turn).1.Settled host (l.known host before turn) rest

section
variable {l : Locator} {host : Host} {s : ActiveSet} {name : String}

/-- A chunk of a file of an archive that an active data set has. -/
theorem supplies_of_file (hs : s ∈ l.active) {file : String} {archive : Archive} {sub : SubFile}
    {chunk : Chunk} (ha : l.archive? host s name = some archive)
    (hf : archive.file? file = some sub) (hc : sub.Contains chunk) :
    l.Supplies host ⟨s.name, name, chunk⟩ :=
  ⟨s, hs, rfl, archive, archive?_eq_some ha, file, sub, hf, hc⟩

theorem appraiseAnimation_supplies {mapping : AnimationMapping} {holding : Holding}
    {found : AnimationContents} (hs : s ∈ l.active)
    (h : l.appraiseAnimation host name mapping (s, holding) = .settle found) :
    l.Supplies host ⟨found.dataSet, found.archiveName, found.chunk⟩ := by
  unfold appraiseAnimation at h
  dsimp only at h
  split at h
  · cases h
  · next archive ha =>
    split at h
    · cases h
    · next file hf =>
      split at h
      · cases h
      · next chunk hc =>
        cases h
        exact supplies_of_file hs ha hf (.byId hc)

theorem uncachedAnimation_supplies {found : AnimationContents}
    (h : l.uncachedAnimation host name = some found) :
    l.Supplies host ⟨found.dataSet, found.archiveName, found.chunk⟩ := by
  unfold uncachedAnimation at h
  split at h
  · cases h
  · obtain ⟨candidate, hm, hc⟩ := Verdict.pick_eq_some h
    exact appraiseAnimation_supplies (builtIn_mem (keepers_mem hm)) hc

theorem uncachedAnimationIn_supplies {dataSet : String} {found : AnimationContents}
    (h : l.uncachedAnimationIn host name dataSet = some found) :
    l.Supplies host ⟨found.dataSet, found.archiveName, found.chunk⟩ := by
  unfold uncachedAnimationIn at h
  split at h
  · next s mapping hs _ =>
    obtain ⟨candidate, hm, hc⟩ := Verdict.pick_eq_some h
    refine appraiseAnimation_supplies ?_ hc
    rw [List.mem_singleton.mp (keepers_mem hm)]
    exact List.mem_of_find?_eq_some hs
  · cases h

theorem uncachedPath_supplies {found : LevelPath} (h : l.uncachedPath host name = some found) :
    l.Supplies host ⟨found.dataSet, found.archiveName, found.chunk⟩ := by
  unfold uncachedPath at h
  split at h
  · cases h
  · obtain ⟨candidate, hm, hc⟩ := Verdict.pick_eq_some h
    unfold appraisePath at hc
    split at hc
    · cases hc
    · next archive ha =>
      split at hc
      · cases hc
      · next file hf =>
        split at hc
        · cases hc
        · next chunk hi =>
          cases hc
          exact supplies_of_file (pathCandidates_mem hm) ha hf (.byId hi)

theorem appraiseGameCamera_supplies {holding : Holding} {found : GameCamera} (hs : s ∈ l.active)
    (h : l.appraiseGameCamera host name (s, holding) = .settle found) :
    ∀ taken ∈ found.taken, l.Supplies host taken := by
  unfold appraiseGameCamera at h
  dsimp only at h
  split at h
  · cases h
  · next archive ha =>
    split at h
    · cases h
    · next file hf =>
      split at h
      · cases h
      · next bits hb =>
        cases h
        intro taken ht
        obtain ⟨chunk, hc, rfl⟩ := List.mem_map.mp ht
        refine supplies_of_file hs ha hf ?_
        obtain rfl | hc := List.mem_cons.mp hc
        · exact .byKind hb
        · exact .byKind (Option.mem_toList.mp hc)

theorem uncachedGameCamera_supplies {found : GameCamera}
    (h : l.uncachedGameCamera host name = some found) :
    ∀ taken ∈ found.taken, l.Supplies host taken := by
  obtain ⟨candidate, hm, hc⟩ := Verdict.pick_eq_some h
  exact appraiseGameCamera_supplies (builtIn_mem (keepers_mem hm)) hc

theorem appraiseMod_supplies {found : Camera} (h : l.appraiseMod host name s = .settle found) :
    ∀ taken ∈ found.taken, l.Supplies host taken := by
  unfold appraiseMod at h
  split at h
  · cases h
    intro taken ht
    cases ht
  · dsimp only at h
    split at h
    · split at h
      · cases h
      · next base hb =>
        split at h
        · cases h
          exact uncachedGameCamera_supplies hb
        · cases h
    · cases h

theorem uncachedCamera_supplies {found : Camera} (h : l.uncachedCamera host name = some found) :
    ∀ taken ∈ found.taken, l.Supplies host taken := by
  obtain ⟨candidate, hm, hc⟩ := Verdict.pick_eq_some h
  cases candidate with
  | mod s => exact appraiseMod_supplies hc
  | archived s holding =>
    cases hv : l.appraiseGameCamera host name (s, holding) with
    | passOver =>
      simp only [appraiseCamera, hv, Verdict.map] at hc
      cases hc
    | refuse =>
      simp only [appraiseCamera, hv, Verdict.map] at hc
      cases hc
    | settle camera =>
      simp only [appraiseCamera, hv, Verdict.map] at hc
      cases hc
      exact appraiseGameCamera_supplies (archivedCandidates_mem hm) hv

theorem uncachedBank_supplies {found : SoundBank} (h : l.uncachedBank host name = some found) :
    ∀ taken ∈ found.taken, l.Supplies host taken := by
  obtain ⟨⟨s, mapping⟩, hm, hc⟩ := Verdict.pick_eq_some h
  have hs : s ∈ l.active := bankCandidates_mem hm
  unfold appraiseBank at hc
  dsimp only at hc
  split at hc
  · cases hc
  · next archive ha =>
    split at hc
    · next holding header body _ hh hb =>
      split at hc
      · next headerChunk bodyChunk hhead hbody =>
        cases hc
        intro taken ht
        obtain ⟨chunk, hchunk, rfl⟩ := List.mem_map.mp ht
        obtain rfl | hchunk := List.mem_cons.mp hchunk
        · exact supplies_of_file hs ha hh (.byPlace hhead)
        · rw [List.mem_singleton.mp hchunk]
          exact supplies_of_file hs ha hb (.byPlace hbody)
      · cases hc
    · cases hc

theorem uncachedEffect_supplies {found : SoundEffect}
    (h : l.uncachedEffect host name = some found) :
    ∀ taken ∈ found.bank.taken, l.Supplies host taken := by
  unfold uncachedEffect at h
  split at h
  · cases h
  · split at h
    · obtain ⟨bank, hb, rfl⟩ := Option.map_eq_some_iff.mp h
      exact uncachedBank_supplies hb
    · cases h

theorem uncachedMusic_supplies {found : Music} (h : l.uncachedMusic host name = some found) :
    l.Supplies host ⟨found.dataSet, found.archiveName, found.sequence⟩ ∧
      ∀ taken ∈ found.bank.taken, l.Supplies host taken := by
  unfold uncachedMusic at h
  split at h
  · cases h
  · obtain ⟨s, hm, hc⟩ := Verdict.pick_eq_some h
    have hs : s ∈ l.active := builtIn_mem (List.mem_filter.mp hm).1
    unfold appraiseMusic at hc
    split at hc
    · cases hc
    · next archive ha =>
      split at hc
      · cases hc
      · next file hf =>
        split at hc
        · cases hc
        · next bank hb =>
          split at hc
          · cases hc
          · next sequence hi =>
            cases hc
            exact ⟨supplies_of_file hs ha hf (.byPlace hi), uncachedBank_supplies hb⟩

/-- A search that loads every archive anew finds what the active data sets have. -/
theorem uncached_supplies (query : Query) :
    ∀ taken ∈ (l.uncached host query).taken, l.Supplies host taken := by
  intro taken ht
  cases query with
  | animation name =>
    obtain ⟨found, hf, rfl⟩ := List.mem_map.mp ht
    exact uncachedAnimation_supplies (Option.mem_toList.mp hf)
  | animationIn name dataSet =>
    obtain ⟨found, hf, rfl⟩ := List.mem_map.mp ht
    exact uncachedAnimationIn_supplies (Option.mem_toList.mp hf)
  | path name =>
    obtain ⟨found, hf, rfl⟩ := List.mem_map.mp ht
    exact uncachedPath_supplies (Option.mem_toList.mp hf)
  | camera name =>
    obtain ⟨found, hf, ht⟩ := List.mem_flatMap.mp ht
    exact uncachedCamera_supplies (Option.mem_toList.mp hf) taken ht
  | bank name =>
    obtain ⟨found, hf, ht⟩ := List.mem_flatMap.mp ht
    exact uncachedBank_supplies (Option.mem_toList.mp hf) taken ht
  | effect name =>
    obtain ⟨found, hf, ht⟩ := List.mem_flatMap.mp ht
    exact uncachedEffect_supplies (Option.mem_toList.mp hf) taken ht
  | music name =>
    obtain ⟨found, hf, ht⟩ := List.mem_flatMap.mp ht
    obtain ⟨hsequence, hbank⟩ := uncachedMusic_supplies (Option.mem_toList.mp hf)
    obtain rfl | ht := List.mem_cons.mp ht
    · exact hsequence
    · exact hbank taken ht
  | video name => cases ht

theorem mem_course_ask (l : Locator) (host : Host) (query : Query) (rest : List Turn) :
    (l, (l.ask host query).2) ∈ l.course host (.move (.ask query) :: rest) :=
  List.mem_append_left _ List.mem_cons_self

theorem course_tail {turn : Turn} {rest : List Turn} {asked : Locator × Answer}
    (h : asked ∈ (l.turn host turn).1.course host rest) :
    asked ∈ l.course host (turn :: rest) := List.mem_append_right _ h

theorem turn_cases (l : Locator) (host : Host) (turn : Turn) : (∃ move, turn = .move move) ∨
    l.turn host turn = ((l.activated? host turn).elim l l.setActive, none) := by
  cases turn with
  | move move => exact Or.inl ⟨move, rfl⟩
  | activate active => exact Or.inr rfl
  | prioritise priorities =>
    refine Or.inr ?_
    simp only [Locator.turn, activated?, setPriorities]
    cases l.table.activate host priorities <;> rfl

theorem holds_of_key {handle : Nat} {key : CacheKey} (h : l.cache.key? handle = some key) :
    l.Holds key.dataSet := by
  obtain ⟨held, hg, rfl⟩ := Option.map_eq_some_iff.mp h
  exact ⟨(handle, held), Table.mem_entries_of_get? hg, rfl⟩

theorem load_congr {l' : Locator} {s' : ActiveSet} (hl : l'.loader = l.loader)
    (hb : s'.backend = s.backend) (name : String) :
    l'.load host s' name = l.load host s name := by
  unfold load
  rw [hl, hb]

/-- What a data set has stays genuine as long as its name stays with its backend. -/
theorem Genuine.transfer {l' : Locator} {key : CacheKey} {content : Content}
    (h : l.Genuine host key content) (hl : l'.loader = l.loader)
    (hs : ∀ s ∈ l.active, s.name = key.dataSet →
      ∃ s' ∈ l'.active, s'.name = s.name ∧ s'.backend = s.backend) :
    l'.Genuine host key content := by
  cases h with
  | archive ha hload =>
    obtain ⟨s', hs', hn, hb⟩ := hs _ ha rfl
    rw [← hn]
    exact .archive hs' ((load_congr hl hb _).trans hload)
  | chunk ha hload hf hc =>
    obtain ⟨s', hs', hn, hb⟩ := hs _ ha rfl
    rw [← hn]
    exact .chunk hs' ((load_congr hl hb _).trans hload) hf hc

end

section
variable {before active : List ActiveSet}

theorem nodup_remember (hb : (before.map ActiveSet.name).Nodup)
    (ha : (active.map ActiveSet.name).Nodup) :
    ((remember before active).map ActiveSet.name).Nodup := by
  rw [remember, List.map_append]
  refine List.nodup_append'.mpr ⟨ha, hb.sublist (List.filter_sublist.map _), ?_⟩
  intro name hactive hfilter
  obtain ⟨s, hs, rfl⟩ := List.mem_map.mp hactive
  obtain ⟨t, ht, hn⟩ := List.mem_map.mp hfilter
  have hne := List.all_eq_true.mp (List.mem_filter.mp ht).2 s hs
  exact bne_iff_ne.mp hne hn.symm

/-- A known data set stays known under its name, unless an active one takes that over. -/
theorem mem_remember (active : List ActiveSet) {t : ActiveSet} (ht : t ∈ before) :
    t ∈ remember before active ∨ ∃ s ∈ active, s.name = t.name := by
  by_cases h : ∃ s ∈ active, s.name = t.name
  · exact Or.inr h
  · refine Or.inl (List.mem_append_right _ (List.mem_filter.mpr ⟨ht, ?_⟩))
    exact List.all_eq_true.mpr fun s hs => bne_iff_ne.mpr fun hn => h ⟨s, hs, hn⟩

end

namespace Serves

variable {known : List ActiveSet} {base l : Locator} {host : Host}

theorem supplies (h : Serves known base host l) {taken : Taken}
    (ht : base.Supplies host taken) : l.Supplies host taken := by
  obtain ⟨s, hs, hn, archive, hload, hfile⟩ := ht
  exact ⟨s, h.active_eq ▸ hs, hn, archive, h.load_eq.trans hload, hfile⟩

theorem activate (h : Serves known base host l) {active : List ActiveSet}
    (hd : (active.map ActiveSet.name).Nodup) (hy : l.Yields known active) :
    Serves (remember known active) (l.setActive active) host (l.setActive active) where
  distinct := nodup_remember h.distinct hd
  included := List.subset_append_left active _
  setup := rfl
  keeps := by
    -- What nobody holds may be of another backend: the cache looks for it in vain.
    refine h.keeps.imp fun {handle key content} hk hg => ?_
    refine hg.transfer (by rw [h.setup]; rfl) fun t ht hn => ?_
    obtain hm | ⟨s, hs, hst⟩ := mem_remember active ht
    · exact ⟨t, hm, rfl, rfl⟩
    · exact ⟨s, List.mem_append_left _ hs, hst, hy s hs t ht hst (hn ▸ holds_of_key hk)⟩

/-- A turn leaves nothing shared but what the known data sets hold, and its answer is from the
active ones. -/
theorem turn (h : Serves known base host l) (turn : Turn)
    (hd : ∀ active ∈ l.activated? host turn, (active.map ActiveSet.name).Nodup)
    (hy : ∀ active ∈ l.activated? host turn, l.Yields known active) :
    (∃ base, Serves (l.known host known turn) base host (l.turn host turn).1) ∧
      ∀ answer ∈ (l.turn host turn).2, ∀ taken ∈ answer.taken, l.Supplies host taken := by
  obtain ⟨move, rfl⟩ | hturn := turn_cases l host turn
  · obtain ⟨hl, hv⟩ := h.move move
    refine ⟨⟨base, hl⟩, ?_⟩
    intro answer hm taken ht
    obtain ⟨query, _, rfl⟩ := Option.map_eq_some_iff.mp (hv.symm.trans hm)
    exact h.supplies (uncached_supplies query taken ht)
  · rw [hturn, Locator.known]
    refine ⟨?_, by intro answer hm; cases hm⟩
    cases ha : l.activated? host turn with
    | none => exact ⟨base, h⟩
    | some active => exact ⟨_, h.activate (hd active ha) (hy active ha)⟩

theorem course (h : Serves known base host l) {turns : List Turn} (hd : l.Distinct host turns)
    (hs : l.Settled host known turns) :
    ∀ asked ∈ l.course host turns, ∀ taken ∈ asked.2.taken, asked.1.Supplies host taken := by
  -- A turn may leave another locator to serve like, and other data sets known.
  induction turns generalizing known base l with
  | nil =>
    intro asked ha
    cases ha
  | cons turn rest ih =>
    obtain ⟨⟨base', hl⟩, hanswer⟩ := h.turn turn hd.1 hs.1
    intro asked ha
    obtain hm | hm := List.mem_append.mp ha
    · obtain ⟨answer, hmem, rfl⟩ := List.mem_map.mp hm
      exact hanswer answer (Option.mem_toList.mp hmem)
    · exact ih hl hd.2 hs.2 asked hm

end Serves

/-- Every chunk is from the archive as the data set has it that is active under the name in the
answer, whatever was active before, provided that nothing of a data set is held any more when
another backend takes over its name. What is still held then is given out under that name. -/
theorem chunks_from_active_archives (loader : String → Stream → Except Fault Archive)
    (map : ResourceMap) (table : PathTable) (gameFiles : Option Backend) (host : Host)
    (turns : List Turn) (distinct : (make loader map table gameFiles).Distinct host turns)
    (settled : (make loader map table gameFiles).Settled host [] turns) :
    ∀ asked ∈ (make loader map table gameFiles).course host turns,
      ∀ taken ∈ asked.2.taken, asked.1.Supplies host taken := by
  have hfresh : Serves [] (make loader map table gameFiles) host
      (make loader map table gameFiles) := .fresh List.nodup_nil rfl rfl
  exact hfresh.course distinct settled

/-- The game lies in two folders, with another chunk in each. -/
def twinHost : Host :=
  ⟨[(["a"], .folder), (["a", "R1.LVL"], .file [0xaa]), (["b"], .folder),
    (["b", "R1.LVL"], .file [0xbb])], []⟩

def gameIn (root : String) : List ActiveSet := [⟨"game", false, .folder root⟩]

def twinLocator : Locator := make walkLoader walkMap ⟨.empty, .empty⟩ none

def walkChunk (byte : UInt8) : Taken := ⟨"game", "R1.LVL", ⟨7, .bits, [byte]⟩⟩

/-- All is let go before the name goes to the other folder. -/
def calmTurns : List Turn :=
  [.activate (gameIn "a"), .move (.ask (.animation "walk")), .move (.release 0),
    .move (.release 1), .activate (gameIn "b"), .move (.ask (.animation "walk"))]

theorem chunks_from_active_archives_twins :
    twinLocator.Distinct twinHost calmTurns ∧ twinLocator.Settled twinHost [] calmTurns ∧
      (twinLocator.course twinHost calmTurns).map (fun asked => asked.2.taken) =
        [[walkChunk 0xaa], [walkChunk 0xbb]] ∧
      ∀ asked ∈ twinLocator.course twinHost calmTurns,
        ∀ taken ∈ asked.2.taken, asked.1.Supplies twinHost taken := by
  have hnone : ∀ {P : List ActiveSet → Prop}, ∀ active ∈ (none : Option (List ActiveSet)),
      P active := by
    rintro P active ⟨⟩
  have hdistinct : twinLocator.Distinct twinHost calmTurns := by
    refine ⟨?_, hnone, hnone, hnone, ?_, hnone, trivial⟩
    · rintro active ⟨⟩
      decide
    · rintro active ⟨⟩
      decide
  have hsettled : twinLocator.Settled twinHost [] calmTurns := by
    refine ⟨?_, hnone, hnone, hnone, ?_, hnone, trivial⟩
    · intro active _ s _ t ht
      cases ht
    · intro active _ s _ t ht _ hheld
      obtain rfl := List.mem_singleton.mp ht
      exact absurd hheld (by decide +kernel)
  refine ⟨hdistinct, hsettled, by decide +kernel, ?_⟩
  exact chunks_from_active_archives walkLoader walkMap ⟨.empty, .empty⟩ none twinHost calmTurns
    hdistinct hsettled

def hastyTurns : List Turn :=
  [.activate (gameIn "a"), .move (.ask (.animation "walk")), .activate (gameIn "b"),
    .move (.ask (.animation "walk"))]

/-- What is held is from the first folder, while the second one has its name. -/
def takenOver : Locator :=
  ((twinLocator.setActive (gameIn "a")).ask twinHost (.animation "walk")).1.setActive (gameIn "b")

/-- A result that is still held is given out under its name, although another folder is active. -/
theorem held_chunk_outlives_data_set :
    ¬ ∀ turns, twinLocator.Distinct twinHost turns →
      ∀ asked ∈ twinLocator.course twinHost turns,
        ∀ taken ∈ asked.2.taken, asked.1.Supplies twinHost taken := by
  intro h
  have hdistinct : twinLocator.Distinct twinHost hastyTurns := by
    refine ⟨?_, by rintro active ⟨⟩, ?_, by rintro active ⟨⟩, trivial⟩
    · rintro active ⟨⟩
      decide
    · rintro active ⟨⟩
      decide
  have hasked : (takenOver, (takenOver.ask twinHost (.animation "walk")).2) ∈
      twinLocator.course twinHost hastyTurns :=
    course_tail (course_tail (course_tail (mem_course_ask takenOver twinHost _ [])))
  have hstale : walkChunk 0xaa ∈ (takenOver.ask twinHost (.animation "walk")).2.taken := by
    decide +kernel
  obtain ⟨s, hs, _, archive, hload, name, sub, hsub, hchunk⟩ :=
    h hastyTurns hdistinct _ hasked _ hstale
  obtain rfl := List.mem_singleton.mp hs
  have hfirst : Serves (gameIn "a") (twinLocator.setActive (gameIn "a")) twinHost
      (twinLocator.setActive (gameIn "a")) := .fresh (List.nodup_singleton _) rfl rfl
  have hother : takenOver.load twinHost ⟨"game", false, .folder "b"⟩ "R1.LVL" =
      .ok (walkArchive [0xbb]) := (hfirst.ask (.animation "walk")).1.load_eq.trans rfl
  obtain rfl := Except.ok.inj (hother.symm.trans hload)
  obtain ⟨file, hfile, rfl⟩ := Archive.exists_of_file? hsub
  obtain rfl := List.mem_singleton.mp hfile
  have hbyte := List.mem_singleton.mp (SubFile.mem_of_contains hchunk)
  exact absurd (congrArg Chunk.bytes hbyte) (by decide)

end Locator
end LayeredAssets
