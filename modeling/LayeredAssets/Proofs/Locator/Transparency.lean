import LayeredAssets.Proofs.Locator.Serving

namespace LayeredAssets.Locator

theorem keepers_mem {l : Locator} {sets : List ActiveSet} {file : String} {s : ActiveSet}
    {holding : Holding} (h : (s, holding) ∈ l.keepers sets file) : s ∈ sets := by
  obtain ⟨s', hs, hm⟩ := List.mem_flatMap.mp h
  obtain ⟨holding', _, he⟩ := List.mem_map.mp hm
  exact (Prod.mk.inj he).1 ▸ hs

theorem builtIn_mem {l : Locator} {s : ActiveSet} (h : s ∈ l.builtIn) : s ∈ l.active :=
  (List.mem_filter.mp h).1

theorem pathCandidates_mem {l : Locator} {mapping : PathMapping} {candidate : PathCandidate}
    (h : candidate ∈ l.pathCandidates mapping) : candidate.set ∈ l.active := by
  obtain ⟨s, hs, hm⟩ := List.mem_flatMap.mp h
  split at hm
  · cases hm
  · obtain ⟨holding, _, rfl⟩ := List.mem_map.mp hm
    exact builtIn_mem hs

theorem bankCandidates_mem {l : Locator} {name : String} {candidate : ActiveSet × BankMapping}
    (h : candidate ∈ l.bankCandidates name) : candidate.1 ∈ l.active := by
  obtain ⟨s, hs, hm⟩ := List.mem_flatMap.mp h
  obtain ⟨mapping, _, rfl⟩ := List.mem_map.mp hm
  exact builtIn_mem hs

theorem archivedCandidates_mem {l : Locator} {name : String} {s : ActiveSet} {holding : Holding}
    (h : .archived s holding ∈ l.cameraCandidates name) : s ∈ l.active := by
  obtain ⟨s', hs, hm⟩ := List.mem_flatMap.mp h
  split at hm
  · simp at hm
  · obtain ⟨holding', _, he⟩ := List.mem_map.mp hm
    cases he
    exact hs

namespace Serves

variable {known : List ActiveSet} {base l : Locator} {host : Host} {s : ActiveSet} {name : String}

theorem builtIn_eq (h : Serves known base host l) : l.builtIn = base.builtIn := by rw [h.setup]; rfl

theorem keepers_eq (h : Serves known base host l) (sets : List ActiveSet) (file : String) :
    l.keepers sets file = base.keepers sets file := by
  rw [h.setup]
  rfl

/-- A chunk that is shared is the one that its file has. -/
theorem obtainChunk (h : Serves known base host l) (hs : s ∈ base.active) {archive : Archive}
    {file : String} {sub : SubFile} (id : UInt32) (hl : base.load host s name = .ok archive)
    (hf : archive.file? file = some sub) :
    Serves known base host (l.obtainChunk s.name name file sub id).1 ∧
      (l.obtainChunk s.name name file sub id).2.map Held.value = sub.withId? id ∧
      (∀ held, (l.obtainChunk s.name name file sub id).2 = some held →
        (l.obtainChunk s.name name file sub id).1.cache.key? held.handle =
          some (.ofChunk s.name name file id)) ∧
      ∀ {handle k}, l.cache.key? handle = some k →
        (l.obtainChunk s.name name file sub id).1.cache.key? handle = some k := by
  have hchunk : (chunkOf file sub id).toOption = sub.withId? id := by
    unfold chunkOf
    cases sub.withId? id <;> rfl
  rw [← hchunk]
  exact h.obtain .chunk (chunk_ok_iff h.distinct (h.known_of_active hs) hl hf) l.loads

theorem judgeAnimation (h : Serves known base host l) (mapping : AnimationMapping)
    (holding : Holding) (hs : s ∈ base.active) :
    Serves known base host (judgeAnimation host name mapping l (s, holding)).1 ∧
      (judgeAnimation host name mapping l (s, holding)).2.map
          (Animation.contents (judgeAnimation host name mapping l (s, holding)).1.cache) =
        base.appraiseAnimation host name mapping (s, holding) := by
  obtain ⟨ho, hv, hk⟩ := h.openArchive hs holding.archive
  unfold Locator.judgeAnimation appraiseAnimation
  dsimp only
  rw [← hv]
  generalize l.openArchive host s holding.archive = opened at ho hv hk ⊢
  obtain ⟨l', _ | archive⟩ := opened
  · exact ⟨ho, rfl⟩
  · have hload := archive?_eq_some hv.symm
    dsimp only [Option.map_some]
    cases hf : archive.value.file? mapping.file with
    | none => exact ⟨ho.release archive.handle, rfl⟩
    | some file =>
      obtain ⟨hc, hchunk, hnew, hold⟩ := ho.obtainChunk hs mapping.id hload hf
      dsimp only
      rw [← hchunk]
      generalize l'.obtainChunk s.name holding.archive mapping.file file mapping.id = obtained
        at hc hnew hold ⊢
      obtain ⟨l'', _ | chunk⟩ := obtained
      · exact ⟨hc.release archive.handle, rfl⟩
      · refine ⟨hc, ?_⟩
        simp only [Verdict.map, Animation.contents, hold (hk archive rfl), hnew chunk rfl,
          Option.map_some]

theorem locateAnimation (h : Serves known base host l) (name : String) :
    Serves known base host (l.locateAnimation host name).1 ∧
      (l.locateAnimation host name).2.map
          (Animation.contents (l.locateAnimation host name).1.cache) =
        base.uncachedAnimation host name := by
  unfold Locator.locateAnimation uncachedAnimation
  rw [h.map_eq, h.builtIn_eq]
  cases base.map.animation? name with
  | none => exact ⟨h, rfl⟩
  | some mapping =>
    dsimp only
    rw [h.keepers_eq]
    exact Verdict.first_eq_pick (base.appraiseAnimation host name mapping)
      (fun l => Animation.contents l.cache) (fun l hl candidate hm =>
        hl.judgeAnimation mapping candidate.2 (builtIn_mem (keepers_mem hm))) h

theorem locateAnimationIn (h : Serves known base host l) (name dataSet : String) :
    Serves known base host (l.locateAnimationIn host name dataSet).1 ∧
      (l.locateAnimationIn host name dataSet).2.map
          (Animation.contents (l.locateAnimationIn host name dataSet).1.cache) =
        base.uncachedAnimationIn host name dataSet := by
  unfold Locator.locateAnimationIn uncachedAnimationIn
  rw [h.map_eq, h.active_eq]
  cases hfind : base.active.find? (fun s => s.name == dataSet) with
  | none => exact ⟨h, rfl⟩
  | some s =>
    cases base.map.animation? name with
    | none => exact ⟨h, rfl⟩
    | some mapping =>
      dsimp only
      rw [h.keepers_eq]
      refine Verdict.first_eq_pick (base.appraiseAnimation host name mapping)
        (fun l => Animation.contents l.cache)
        (fun l hl candidate hm => hl.judgeAnimation mapping candidate.2 ?_) h
      rw [List.mem_singleton.mp (keepers_mem hm)]
      exact List.mem_of_find?_eq_some hfind

theorem judgePath (h : Serves known base host l) (mapping : PathMapping) {candidate : PathCandidate}
    (hs : candidate.set ∈ base.active) :
    Serves known base host (judgePath host name mapping l candidate).1 ∧
      (judgePath host name mapping l candidate).2 =
        base.appraisePath host name mapping candidate := by
  refine h.withArchive hs candidate.holding.archive fun l archive hl => ?_
  cases archive.file? candidate.file with
  | none => exact ⟨hl, rfl⟩
  | some file =>
    dsimp only
    cases file.withId? mapping.id with
    | none => exact ⟨hl, rfl⟩
    | some chunk => exact ⟨hl, rfl⟩

theorem locatePath (h : Serves known base host l) (name : String) :
    Serves known base host (l.locatePath host name).1 ∧
      (l.locatePath host name).2 = base.uncachedPath host name := by
  unfold Locator.locatePath uncachedPath
  rw [h.map_eq]
  cases base.map.path? name with
  | none => exact ⟨h, rfl⟩
  | some mapping =>
    have hc : l.pathCandidates mapping = base.pathCandidates mapping := by
      rw [h.setup]
      rfl
    dsimp only
    rw [hc]
    exact Verdict.first_eq_pick_self
      (fun l hl candidate hm => hl.judgePath mapping (pathCandidates_mem hm)) h

theorem judgeGameCamera (h : Serves known base host l) (name : String) (holding : Holding)
    (hs : s ∈ base.active) :
    Serves known base host (judgeGameCamera host name l (s, holding)).1 ∧
      (judgeGameCamera host name l (s, holding)).2 =
        base.appraiseGameCamera host name (s, holding) := by
  refine h.withArchive hs holding.archive fun l archive hl => ?_
  cases archive.file? name with
  | none => exact ⟨hl, rfl⟩
  | some file =>
    dsimp only
    cases file.withKind? .bits with
    | none => exact ⟨hl, rfl⟩
    | some bits => exact ⟨hl, rfl⟩

theorem locateGameCamera (h : Serves known base host l) (name : String) :
    Serves known base host (l.locateGameCamera host name).1 ∧
      (l.locateGameCamera host name).2 = base.uncachedGameCamera host name := by
  unfold Locator.locateGameCamera uncachedGameCamera
  rw [h.builtIn_eq, h.keepers_eq]
  exact Verdict.first_eq_pick_self
    (fun l hl candidate hm =>
      hl.judgeGameCamera name candidate.2 (builtIn_mem (keepers_mem hm))) h

theorem judgeMod (h : Serves known base host l) (name : String) (s : ActiveSet) :
    Serves known base host (judgeMod host name l s).1 ∧
      (judgeMod host name l s).2 = base.appraiseMod host name s := by
  unfold Locator.judgeMod appraiseMod
  cases stream? host s.backend (name ++ ".png") with
  | some image => exact ⟨h, rfl⟩
  | none =>
    dsimp only
    split
    · obtain ⟨hl, hv⟩ := h.locateGameCamera name
      rw [← hv]
      generalize l.locateGameCamera host name = located at hl ⊢
      obtain ⟨l', _ | camera⟩ := located
      · exact ⟨hl, rfl⟩
      · dsimp only
        cases s.backend.openFile host (name ++ ".cam.bmp.png") with
        | ok delta => exact ⟨hl, rfl⟩
        | error fault => exact ⟨hl, rfl⟩
    · exact ⟨h, rfl⟩

theorem judgeCamera (h : Serves known base host l) {candidate : CameraCandidate}
    (hc : candidate ∈ base.cameraCandidates name) :
    Serves known base host (judgeCamera host name l candidate).1 ∧
      (judgeCamera host name l candidate).2 = base.appraiseCamera host name candidate := by
  cases candidate with
  | mod s => exact h.judgeMod name s
  | archived s holding =>
    obtain ⟨hl, hv⟩ := h.judgeGameCamera name holding (archivedCandidates_mem hc)
    unfold Locator.judgeCamera appraiseCamera
    dsimp only
    rw [← hv]
    generalize Locator.judgeGameCamera host name l (s, holding) = judged at hl ⊢
    obtain ⟨l', _ | camera | _⟩ := judged
    · exact ⟨hl, rfl⟩
    · exact ⟨hl, rfl⟩
    · exact ⟨hl, rfl⟩

theorem locateCamera (h : Serves known base host l) (name : String) :
    Serves known base host (l.locateCamera host name).1 ∧
      (l.locateCamera host name).2 = base.uncachedCamera host name := by
  have hc : l.cameraCandidates name = base.cameraCandidates name := by
    rw [h.setup]
    rfl
  unfold Locator.locateCamera uncachedCamera
  rw [hc]
  exact Verdict.first_eq_pick_self (fun l hl candidate hm => hl.judgeCamera hm) h

theorem judgeBank (h : Serves known base host l) {mapping : BankMapping} (hs : s ∈ base.active) :
    Serves known base host (judgeBank host name l (s, mapping)).1 ∧
      (judgeBank host name l (s, mapping)).2 =
        base.appraiseBank host name (s, mapping) := by
  refine h.withArchive hs mapping.archive fun l archive hl => ?_
  rw [hl.map_eq]
  cases base.map.holding? s.name mapping.archive mapping.header with
  | none => exact ⟨hl, rfl⟩
  | some holding =>
    cases archive.file? mapping.header with
    | none => exact ⟨hl, rfl⟩
    | some header =>
      cases archive.file? mapping.body with
      | none => exact ⟨hl, rfl⟩
      | some body =>
        dsimp only
        cases header.at? 0 with
        | none => exact ⟨hl, rfl⟩
        | some header =>
          cases body.at? 0 with
          | none => exact ⟨hl, rfl⟩
          | some body => exact ⟨hl, rfl⟩

theorem locateBank (h : Serves known base host l) (name : String) :
    Serves known base host (l.locateBank host name).1 ∧
      (l.locateBank host name).2 = base.uncachedBank host name := by
  have hc : l.bankCandidates name = base.bankCandidates name := by
    rw [h.setup]
    rfl
  unfold Locator.locateBank uncachedBank
  rw [hc]
  exact Verdict.first_eq_pick_self
    (fun l hl candidate hm => hl.judgeBank (bankCandidates_mem hm)) h

theorem locateEffect (h : Serves known base host l) (name : String) :
    Serves known base host (l.locateEffect host name).1 ∧
      (l.locateEffect host name).2 = base.uncachedEffect host name := by
  unfold Locator.locateEffect uncachedEffect
  rw [h.map_eq, h.builtIn_eq]
  cases base.map.effect? name with
  | none => exact ⟨h, rfl⟩
  | some mapping =>
    dsimp only
    split
    · obtain ⟨hl, hv⟩ := h.locateBank mapping.bank
      rw [← hv]
      generalize l.locateBank host mapping.bank = located at hl ⊢
      obtain ⟨l', _ | bank⟩ := located
      · exact ⟨hl, rfl⟩
      · exact ⟨hl, rfl⟩
    · exact ⟨h, rfl⟩

theorem judgeMusic (h : Serves known base host l) (mapping : MusicMapping)
    (hs : s ∈ base.active) :
    Serves known base host (judgeMusic host name mapping l s).1 ∧
      (judgeMusic host name mapping l s).2 = base.appraiseMusic host name mapping s := by
  refine h.withArchive hs mapping.archive fun l archive hl => ?_
  cases archive.file? mapping.file with
  | none => exact ⟨hl, rfl⟩
  | some file =>
    obtain ⟨hl', hv⟩ := hl.locateBank mapping.bank
    rw [← hv]
    dsimp only
    generalize l.locateBank host mapping.bank = located at hl' ⊢
    obtain ⟨l', _ | bank⟩ := located
    · exact ⟨hl', rfl⟩
    · dsimp only
      cases file.at? mapping.index with
      | none => exact ⟨hl', rfl⟩
      | some sequence => exact ⟨hl', rfl⟩

theorem locateMusic (h : Serves known base host l) (name : String) :
    Serves known base host (l.locateMusic host name).1 ∧
      (l.locateMusic host name).2 = base.uncachedMusic host name := by
  unfold Locator.locateMusic uncachedMusic
  rw [h.map_eq, h.builtIn_eq]
  cases base.map.music? name with
  | none => exact ⟨h, rfl⟩
  | some mapping =>
    exact Verdict.first_eq_pick_self
      (fun l hl s hm => hl.judgeMusic mapping (builtIn_mem (List.mem_filter.mp hm).1)) h

theorem locateVideo (h : Serves known base host l) (name : String) :
    Serves known base host (l.locateVideo host name).1 ∧
      (l.locateVideo host name).2 = base.uncachedVideo host name := by
  have hc : ∀ mapping, l.videoCandidates mapping = base.videoCandidates mapping := by
    intro mapping
    rw [h.setup]
    rfl
  unfold Locator.locateVideo uncachedVideo
  rw [h.map_eq]
  cases base.map.video? name with
  | none => exact ⟨h, rfl⟩
  | some mapping =>
    dsimp only
    rw [hc]
    refine Verdict.first_eq_pick_self (fun l hl candidate _ => ?_) h
    obtain ⟨s, location⟩ := candidate
    unfold Locator.judgeVideo appraiseVideo subtitles?
    rw [hl.gameFiles_eq]
    dsimp only
    cases stream? host s.backend location.file with
    | none => exact ⟨hl, rfl⟩
    | some stream => exact ⟨hl, rfl⟩

end Serves
end LayeredAssets.Locator
