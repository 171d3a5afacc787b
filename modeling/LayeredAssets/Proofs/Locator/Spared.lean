import LayeredAssets.Proofs.Locator.Deeds

namespace LayeredAssets

/-- A search whose steps do not tell `s` from `f s` does not either. -/
theorem Verdict.first_comm {σ β α : Type} {I : σ → Prop} {f : σ → σ}
    {judge : σ → β → σ × Verdict α} {candidates : List β}
    (hj : ∀ s, I s → ∀ b ∈ candidates,
      I (judge s b).1 ∧ judge (f s) b = (f (judge s b).1, (judge s b).2))
    {s : σ} (hs : I s) :
    I (first judge s candidates).1 ∧
      first judge (f s) candidates =
        (f (first judge s candidates).1, (first judge s candidates).2) := by
  induction candidates generalizing s with
  | nil => exact ⟨hs, rfl⟩
  | cons b rest ih =>
    obtain ⟨hi, he⟩ := hj s hs b List.mem_cons_self
    rw [first, first, he]
    generalize judge s b = judged at hi ⊢
    obtain ⟨s', _ | found | _⟩ := judged
    · exact ih (fun s hs b hb => hj s hs b (List.mem_cons_of_mem _ hb)) hi
    · exact ⟨hi, rfl⟩
    · exact ⟨hi, rfl⟩

namespace Locator
open Cache

/-- The same locator with another loader. -/
def loading (l : Locator) (loader : String → Stream → Except Fault Archive) : Locator :=
  { l with loader := loader }

section
variable (l : Locator) (loader : String → Stream → Except Fault Archive)

@[simp] theorem map_loading : (l.loading loader).map = l.map := rfl

@[simp] theorem active_loading : (l.loading loader).active = l.active := rfl

end

/-- Opening an archive that somebody holds goes the same way with any loader. -/
theorem openArchive_held {l : Locator} (h : l.cache.Orderly) (host : Host) {s : ActiveSet}
    {name : String} {id : Nat} (hk : l.cache.key? id = some (.ofArchive s.name name)) :
    (l.openArchive host s name).1.loads = l.loads ∧
      ∀ loader, (l.loading loader).openArchive host s name =
        ((l.openArchive host s name).1.loading loader, (l.openArchive host s name).2) := by
  obtain ⟨registered, hacc, _⟩ := h.keeps.accounted
  obtain ⟨handle, hg, hkey⟩ := Option.map_eq_some_iff.mp hk
  have hkind : Kind.archive = handle.key.kind := by rw [hkey]; rfl
  obtain ⟨v, hl⟩ := h.sole.liveAs? hacc hg hkind
  rw [hkey] at hl
  unfold openArchive loading
  dsimp only
  split
  · simp [obtain_of_live hl]
  · simp

/-- The other loader may do anything with the archives that somebody had a handle for at first, but
what else the active data sets have it loads as the locator's own does. What was held at first is
held still. -/
structure Spares (base : Locator) (host : Host) (loader : String → Stream → Except Fault Archive)
    (l : Locator) : Prop where
  active : l.active = base.active
  loads : ∀ s ∈ base.active, ∀ name,
    (∀ id, base.cache.key? id ≠ some (.ofArchive s.name name)) →
      (l.loading loader).load host s name = l.load host s name
  orderly : l.cache.Orderly
  kept : ∀ {id key}, base.cache.key? id = some key → l.cache.key? id = some key

/-- A search that goes the same way with the other loader. -/
def Oblivious (base : Locator) (host : Host) (loader : String → Stream → Except Fault Archive)
    {α : Type} (search : Locator → Locator × α) : Prop :=
  ∀ l, Spares base host loader l → Spares base host loader (search l).1 ∧
    search (l.loading loader) = ((search l).1.loading loader, (search l).2)

namespace Spares

variable {base l : Locator} {host : Host} {loader : String → Stream → Except Fault Archive}

theorem withCache (h : Spares base host loader l) {c : Cache} (hc : c.Orderly)
    (hk : ∀ {id key}, l.cache.key? id = some key → base.cache.key? id = some key →
      c.key? id = some key) (loads : Nat) :
    Spares base host loader { l with cache := c, loads := loads } where
  active := h.active
  loads := h.loads
  orderly := hc
  kept := fun ho => hk (h.kept ho) ho

theorem fresh (h : Spares base host loader l) {id : Nat} (hnone : l.cache.key? id = none) :
    base.cache.key? id = none := by
  cases ho : base.cache.key? id with
  | none => rfl
  | some key =>
    rw [h.kept ho] at hnone
    cases hnone

/-- Either the archive is held, or both loaders give the same. -/
theorem openArchive (h : Spares base host loader l) {s : ActiveSet} (hs : s ∈ base.active)
    (name : String) :
    Spares base host loader (l.openArchive host s name).1 ∧
      (l.loading loader).openArchive host s name =
        ((l.openArchive host s name).1.loading loader, (l.openArchive host s name).2) ∧
      ∀ held, (l.openArchive host s name).2 = some held → base.cache.key? held.handle = none := by
  obtain ⟨ho, hg⟩ := openArchive_spec h.orderly host s name
  refine ⟨?_, ?_, ?_⟩
  · rw [openArchive_setup]
    exact h.withCache ho (fun hl _ => (hg.key?_iff _ _).mpr (Or.inr hl)) _
  · by_cases hheld : ∃ id, base.cache.key? id = some (.ofArchive s.name name)
    · obtain ⟨id, hk⟩ := hheld
      exact (openArchive_held h.orderly host (h.kept hk)).2 loader
    · have hload := h.loads s hs name (not_exists.mp hheld)
      unfold Locator.openArchive
      rw [hload]
      unfold loading
      dsimp only
      split <;> rfl
  · intro held hheld
    apply h.fresh
    apply hg.fresh (held.handle, .ofArchive s.name name)
    simp [hheld]

theorem obtainChunk (h : Spares base host loader l) (dataSet archive file : String)
    (sub : SubFile) (id : UInt32) :
    Spares base host loader (l.obtainChunk dataSet archive file sub id).1 := by
  obtain ⟨ho, hg⟩ := obtainChunk_spec h.orderly dataSet archive file sub id
  exact h.withCache ho (fun hl _ => (hg.key?_iff _ _).mpr (Or.inr hl)) l.loads

theorem release (h : Spares base host loader l) {id : Nat} (hnone : base.cache.key? id = none) :
    Spares base host loader (l.release id) := by
  refine h.withCache (h.orderly.drop id) ?_ l.loads
  intro i key hl ho
  have hne : id ≠ i := by
    rintro rfl
    rw [hnone] at ho
    cases ho
  rw [h.orderly.key?_drop, if_neg hne]
  exact hl

end Spares

namespace Oblivious

variable {base : Locator} {host : Host} {loader : String → Stream → Except Fault Archive}
  {name : String}

theorem answer {α : Type} (found : α) : Oblivious base host loader fun l => (l, found) :=
  fun _ h => ⟨h, rfl⟩

theorem withArchive {α : Type} {judge : Locator → Archive → Locator × Verdict α}
    (hj : ∀ archive, Oblivious base host loader fun l => judge l archive) {s : ActiveSet}
    (hs : s ∈ base.active) (name : String) :
    Oblivious base host loader fun l => l.withArchive host s name judge := by
  intro l h
  obtain ⟨ho, he, hfresh⟩ := h.openArchive hs name
  unfold Locator.withArchive
  dsimp only
  rw [he]
  generalize l.openArchive host s name = opened at ho hfresh ⊢
  obtain ⟨l', _ | held⟩ := opened
  · exact ⟨ho, rfl⟩
  · obtain ⟨hv, hsame⟩ := hj held.value l' ho
    dsimp only at hsame ⊢
    rw [hsame]
    exact ⟨hv.release (hfresh held rfl), rfl⟩

theorem first {α β : Type} {judge : Locator → β → Locator × Verdict α}
    {candidates : List β}
    (hj : ∀ candidate ∈ candidates, Oblivious base host loader fun l => judge l candidate) :
    Oblivious base host loader fun l => Verdict.first judge l candidates :=
  fun _ h => Verdict.first_comm (fun l hl candidate hm => hj candidate hm l hl) h

theorem judgeAnimation (mapping : AnimationMapping) {s : ActiveSet} (hs : s ∈ base.active)
    (holding : Holding) :
    Oblivious base host loader fun l => judgeAnimation host name mapping l (s, holding) := by
  intro l h
  obtain ⟨ho, he, hfresh⟩ := h.openArchive hs holding.archive
  unfold Locator.judgeAnimation
  dsimp only
  rw [he]
  generalize l.openArchive host s holding.archive = opened at ho hfresh ⊢
  obtain ⟨l', _ | archive⟩ := opened
  · exact ⟨ho, rfl⟩
  · have hnone := hfresh archive rfl
    dsimp only
    cases archive.value.file? mapping.file with
    | none => exact ⟨ho.release hnone, rfl⟩
    | some file =>
      have hc := ho.obtainChunk s.name holding.archive mapping.file file mapping.id
      have hsame : (l'.loading loader).obtainChunk s.name holding.archive mapping.file file
        mapping.id =
        ((l'.obtainChunk s.name holding.archive mapping.file file mapping.id).1.loading loader,
          (l'.obtainChunk s.name holding.archive mapping.file file mapping.id).2) := rfl
      dsimp only
      rw [hsame]
      generalize l'.obtainChunk s.name holding.archive mapping.file file mapping.id = obtained
        at hc ⊢
      obtain ⟨l'', _ | chunk⟩ := obtained
      · exact ⟨hc.release hnone, rfl⟩
      · exact ⟨hc, rfl⟩

theorem locateAnimation (name : String) :
    Oblivious base host loader fun l => l.locateAnimation host name := by
  intro l h
  unfold Locator.locateAnimation
  dsimp only [map_loading]
  cases l.map.animation? name with
  | none => exact ⟨h, rfl⟩
  | some mapping =>
    exact first (fun candidate hm => judgeAnimation mapping
      (h.active ▸ builtIn_mem (keepers_mem hm)) candidate.2) l h

theorem locateAnimationIn (name dataSet : String) :
    Oblivious base host loader fun l => l.locateAnimationIn host name dataSet := by
  intro l h
  unfold Locator.locateAnimationIn
  dsimp only [map_loading, active_loading]
  cases hfind : l.active.find? (fun s => s.name == dataSet) with
  | none => exact ⟨h, rfl⟩
  | some s =>
    have hs : s ∈ base.active := h.active ▸ List.mem_of_find?_eq_some hfind
    cases l.map.animation? name with
    | none => exact ⟨h, rfl⟩
    | some mapping =>
      refine first (fun candidate hm => judgeAnimation mapping ?_ candidate.2) l h
      rw [List.mem_singleton.mp (keepers_mem hm)]
      exact hs

theorem judgePath (mapping : PathMapping) {candidate : PathCandidate}
    (hs : candidate.set ∈ base.active) :
    Oblivious base host loader fun l => judgePath host name mapping l candidate := by
  refine withArchive (fun archive => ?_) hs candidate.holding.archive
  cases archive.file? candidate.file with
  | none => exact answer _
  | some file =>
    dsimp only
    cases file.withId? mapping.id with
    | none => exact answer _
    | some chunk => exact answer _

theorem locatePath (name : String) :
    Oblivious base host loader fun l => l.locatePath host name := by
  intro l h
  unfold Locator.locatePath
  dsimp only [map_loading]
  cases l.map.path? name with
  | none => exact ⟨h, rfl⟩
  | some mapping =>
    exact first (fun candidate hm => judgePath mapping (h.active ▸ pathCandidates_mem hm)) l h

theorem judgeGameCamera {s : ActiveSet} (hs : s ∈ base.active) (holding : Holding) :
    Oblivious base host loader fun l => judgeGameCamera host name l (s, holding) := by
  refine withArchive (fun archive => ?_) hs holding.archive
  cases archive.file? name with
  | none => exact answer _
  | some file =>
    dsimp only
    cases file.withKind? .bits with
    | none => exact answer _
    | some bits => exact answer _

theorem locateGameCamera (name : String) :
    Oblivious base host loader fun l => l.locateGameCamera host name :=
  fun l h => first (fun candidate hm =>
    judgeGameCamera (h.active ▸ builtIn_mem (keepers_mem hm)) candidate.2) l h

theorem judgeMod (s : ActiveSet) :
    Oblivious base host loader fun l => judgeMod host name l s := by
  intro l h
  unfold Locator.judgeMod
  dsimp only
  cases stream? host s.backend (name ++ ".png") with
  | some image => exact ⟨h, rfl⟩
  | none =>
    dsimp only
    split
    · obtain ⟨hg, he⟩ := locateGameCamera name l h
      dsimp only at hg he
      rw [he]
      generalize l.locateGameCamera host name = located at hg ⊢
      obtain ⟨l', _ | camera⟩ := located
      · exact ⟨hg, rfl⟩
      · dsimp only
        cases s.backend.openFile host (name ++ ".cam.bmp.png") with
        | ok delta => exact ⟨hg, rfl⟩
        | error fault => exact ⟨hg, rfl⟩
    · exact ⟨h, rfl⟩

theorem judgeCamera {candidate : CameraCandidate}
    (hc : ∀ s holding, candidate = .archived s holding → s ∈ base.active) :
    Oblivious base host loader fun l => judgeCamera host name l candidate := by
  intro l h
  cases candidate with
  | mod s => exact judgeMod s l h
  | archived s holding =>
    obtain ⟨hg, he⟩ := judgeGameCamera (hc s holding rfl) holding l h
    unfold Locator.judgeCamera
    dsimp only at hg he ⊢
    rw [he]
    generalize Locator.judgeGameCamera host name l (s, holding) = judged at hg ⊢
    obtain ⟨l', _ | camera | _⟩ := judged
    · exact ⟨hg, rfl⟩
    · exact ⟨hg, rfl⟩
    · exact ⟨hg, rfl⟩

theorem locateCamera (name : String) :
    Oblivious base host loader fun l => l.locateCamera host name :=
  fun l h => first (fun _ hm => judgeCamera fun _ _ hc =>
    h.active ▸ archivedCandidates_mem (hc ▸ hm)) l h

theorem judgeBank {s : ActiveSet} (hs : s ∈ base.active) (mapping : BankMapping) :
    Oblivious base host loader fun l => judgeBank host name l (s, mapping) := by
  refine withArchive (fun archive l h => ?_) hs mapping.archive
  dsimp only [map_loading]
  split
  · split
    · exact ⟨h, rfl⟩
    · exact ⟨h, rfl⟩
  · exact ⟨h, rfl⟩

theorem locateBank (name : String) :
    Oblivious base host loader fun l => l.locateBank host name :=
  fun l h => first (fun candidate hm =>
    judgeBank (h.active ▸ bankCandidates_mem hm) candidate.2) l h

theorem locateEffect (name : String) :
    Oblivious base host loader fun l => l.locateEffect host name := by
  intro l h
  unfold Locator.locateEffect
  dsimp only [map_loading]
  cases l.map.effect? name with
  | none => exact ⟨h, rfl⟩
  | some mapping =>
    dsimp only
    have hiff : (l.loading loader).builtIn.any (fun s => s.name == mapping.dataSet) = true ↔
        l.builtIn.any (fun s => s.name == mapping.dataSet) = true := Iff.rfl
    by_cases hany : l.builtIn.any (fun s => s.name == mapping.dataSet) = true
    · rw [if_pos hany, if_pos (hiff.mpr hany)]
      obtain ⟨hb, he⟩ := locateBank mapping.bank l h
      dsimp only at hb he
      rw [he]
      generalize l.locateBank host mapping.bank = located at hb ⊢
      obtain ⟨l', _ | bank⟩ := located
      · exact ⟨hb, rfl⟩
      · exact ⟨hb, rfl⟩
    · rw [if_neg hany, if_neg (hiff.not.mpr hany)]
      exact ⟨h, rfl⟩

theorem judgeMusic (mapping : MusicMapping) {s : ActiveSet} (hs : s ∈ base.active) :
    Oblivious base host loader fun l => judgeMusic host name mapping l s := by
  refine withArchive (fun archive l h => ?_) hs mapping.archive
  cases archive.file? mapping.file with
  | none => exact ⟨h, rfl⟩
  | some file =>
    obtain ⟨hb, he⟩ := locateBank mapping.bank l h
    dsimp only at hb he ⊢
    rw [he]
    generalize l.locateBank host mapping.bank = located at hb ⊢
    obtain ⟨l', _ | bank⟩ := located
    · exact ⟨hb, rfl⟩
    · dsimp only
      cases file.at? mapping.index with
      | none => exact ⟨hb, rfl⟩
      | some sequence => exact ⟨hb, rfl⟩

theorem locateMusic (name : String) :
    Oblivious base host loader fun l => l.locateMusic host name := by
  intro l h
  unfold Locator.locateMusic
  dsimp only [map_loading]
  cases l.map.music? name with
  | none => exact ⟨h, rfl⟩
  | some mapping =>
    exact first (fun s hm => judgeMusic mapping
      (h.active ▸ builtIn_mem (List.mem_filter.mp hm).1)) l h

theorem judgeVideo (candidate : ActiveSet × VideoLocation) :
    Oblivious base host loader fun l => judgeVideo host name l candidate := by
  intro l h
  unfold Locator.judgeVideo
  dsimp only
  cases stream? host candidate.1.backend candidate.2.file with
  | none => exact ⟨h, rfl⟩
  | some stream => exact ⟨h, rfl⟩

theorem locateVideo (name : String) :
    Oblivious base host loader fun l => l.locateVideo host name := by
  intro l h
  unfold Locator.locateVideo
  dsimp only [map_loading]
  cases l.map.video? name with
  | none => exact ⟨h, rfl⟩
  | some mapping => exact first (fun candidate _ => judgeVideo candidate) l h

/-- What is made of a result and of the cache that it was found with does not matter. -/
theorem map {α β : Type} {search : Locator → Locator × α}
    (hs : Oblivious base host loader search) (f : Cache → α → β) :
    Oblivious base host loader fun l => ((search l).1, f (search l).1.cache (search l).2) := by
  intro l h
  obtain ⟨hl, he⟩ := hs l h
  refine ⟨hl, ?_⟩
  dsimp only
  rw [he]
  rfl

/-- No search looks at how an archive loads that was held before. -/
theorem ask (query : Query) : Oblivious base host loader fun l => l.ask host query := by
  cases query with
  | animation name =>
    exact (locateAnimation name).map fun c found =>
      Answer.animation (found.map (Animation.contents c))
  | animationIn name dataSet =>
    exact (locateAnimationIn name dataSet).map fun c found =>
      Answer.animation (found.map (Animation.contents c))
  | path name => exact (locatePath name).map fun _ => Answer.path
  | camera name => exact (locateCamera name).map fun _ => Answer.camera
  | bank name => exact (locateBank name).map fun _ => Answer.bank
  | effect name => exact (locateEffect name).map fun _ => Answer.effect
  | music name => exact (locateMusic name).map fun _ => Answer.music
  | video name => exact (locateVideo name).map fun _ => Answer.video

end Oblivious
end Locator
end LayeredAssets
