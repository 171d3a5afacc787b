import LayeredAssets.Proofs.Cache.Handles
import LayeredAssets.Proofs.Locator.Provenance

namespace LayeredAssets

/-- What searches are made of, and what their owner does besides. -/
inductive Deed
  | opened (s : ActiveSet) (name : String)
  | chunk (dataSet archive file : String) (sub : SubFile) (id : UInt32)
  | released (handle : Nat)
  | shared (handle : Nat)
  | activated (active : List ActiveSet)

/-- The handles in an animation, with the keys of what they are for. -/
def Animation.handles (animation : Animation) : List (Nat × CacheKey) :=
  [(animation.archive.handle, .ofArchive animation.dataSet animation.archiveName),
    (animation.chunk.handle,
      .ofChunk animation.dataSet animation.archiveName animation.file animation.id)]

def Verdict.found? {α : Type} : Verdict α → Option α
  | settle found => some found
  | passOver | refuse => none

namespace Locator

def deed (l : Locator) (host : Host) : Deed → Locator
  | .opened s name => (l.openArchive host s name).1
  | .chunk dataSet archive file sub id =>
    (l.obtainChunk dataSet archive file sub id).1
  | .released handle => l.release handle
  | .shared handle => { l with cache := (l.cache.share handle).1 }
  | .activated active => l.setActive active

def after (l : Locator) (host : Host) (turns : List Turn) : Locator :=
  turns.foldl (fun l turn => (l.turn host turn).1) l

/-- One deed after the other leads from `l` to the other locator. -/
inductive Reaches (host : Host) (l : Locator) : Locator → Prop where
  | here : Reaches host l l
  | step {m : Locator} (before : Reaches host l m) (deed : Deed) :
      Reaches host l (m.deed host deed)

/-- The handles that a search gives out. Only animations have any. -/
def given (l : Locator) (host : Host) : Query → List (Nat × CacheKey)
  | .animation name => (l.locateAnimation host name).2.toList.flatMap Animation.handles
  | .animationIn name dataSet =>
    (l.locateAnimationIn host name dataSet).2.toList.flatMap Animation.handles
  | .path _ | .camera _ | .bank _ | .effect _ | .music _ | .video _ => []

theorem openArchive_setup (l : Locator) (host : Host) (s : ActiveSet) (name : String) :
    (l.openArchive host s name).1 =
      { l with
        cache := (l.openArchive host s name).1.cache
        loads := (l.openArchive host s name).1.loads } := by
  unfold openArchive
  split <;> rfl

theorem openArchive_spec {l : Locator} (h : l.cache.Orderly) (host : Host) (s : ActiveSet)
    (name : String) : (l.openArchive host s name).1.cache.Orderly ∧
      l.cache.Gives ((l.openArchive host s name).2.toList.map
        fun held => (held.handle, .ofArchive s.name name)) (l.openArchive host s name).1.cache := by
  unfold openArchive
  split
  · exact h.obtain_spec (.ofArchive s.name name) .archive rfl (l.load host s name)
  · exact ⟨h, .refl l.cache⟩

theorem obtainChunk_spec {l : Locator} (h : l.cache.Orderly) (dataSet archive file : String)
    (sub : SubFile) (id : UInt32) :
    (l.obtainChunk dataSet archive file sub id).1.cache.Orderly ∧
      l.cache.Gives ((l.obtainChunk dataSet archive file sub id).2.toList.map
          fun held => (held.handle, .ofChunk dataSet archive file id))
        (l.obtainChunk dataSet archive file sub id).1.cache :=
  h.obtain_spec (.ofChunk dataSet archive file id) .chunk rfl (chunkOf file sub id)

theorem deed_orderly {l : Locator} (h : l.cache.Orderly) (host : Host) (deed : Deed) :
    (l.deed host deed).cache.Orderly := by
  cases deed with
  | opened s name => exact (openArchive_spec h host s name).1
  | chunk dataSet archive file sub id => exact (obtainChunk_spec h dataSet archive file sub id).1
  | released handle => exact h.drop handle
  | shared handle => exact h.share handle
  | activated active => exact h

namespace Reaches

variable {host : Host} {l m n : Locator}

theorem trans (hm : Reaches host l m) (hn : Reaches host m n) : Reaches host l n := by
  induction hn with
  | here => exact hm
  | step _ deed ih => exact ih.step deed

theorem orderly (hm : Reaches host l m) (h : l.cache.Orderly) : m.cache.Orderly := by
  induction hm with
  | here => exact h
  | step _ deed ih => exact deed_orderly ih host deed

theorem loader_eq (hm : Reaches host l m) : m.loader = l.loader := by
  induction hm with
  | here => rfl
  | @step m _ deed ih =>
    rw [← ih]
    cases deed with
    | opened s name =>
      change (m.openArchive host s name).1.loader = m.loader
      rw [openArchive_setup]
    | chunk | released | shared | activated => rfl

end Reaches

/-- Deeds lead from `l` to `l'`, and nothing became of the handles but that those given came in. -/
structure Leaves (host : Host) (l : Locator) (given : List (Nat × CacheKey)) (l' : Locator) :
    Prop where
  reaches : Reaches host l l'
  gives : l.cache.Orderly → l.cache.Gives given l'.cache

namespace Leaves

variable {host : Host} {l l' l'' : Locator} {given more : List (Nat × CacheKey)}

theorem refl (host : Host) (l : Locator) : Leaves host l [] l := ⟨.here, fun _ => .refl l.cache⟩

theorem trans (h : Leaves host l given l') (h' : Leaves host l' more l'') :
    Leaves host l (given ++ more) l'' where
  reaches := h.reaches.trans h'.reaches
  gives := fun ho => (h.gives ho).trans (h'.gives (h.reaches.orderly ho))

theorem openArchive (host : Host) (l : Locator) (s : ActiveSet) (name : String) :
    Leaves host l ((l.openArchive host s name).2.toList.map
      fun held => (held.handle, .ofArchive s.name name)) (l.openArchive host s name).1 where
  reaches := Reaches.here.step (.opened s name)
  gives := fun ho => (openArchive_spec ho host s name).2

theorem obtainChunk (host : Host) (l : Locator) (dataSet archive file : String) (sub : SubFile)
    (id : UInt32) :
    Leaves host l ((l.obtainChunk dataSet archive file sub id).2.toList.map
        fun held => (held.handle, .ofChunk dataSet archive file id))
      (l.obtainChunk dataSet archive file sub id).1 where
  reaches := Reaches.here.step (.chunk dataSet archive file sub id)
  gives := fun ho => (obtainChunk_spec ho dataSet archive file sub id).2

/-- A handle that was taken is let go again. -/
theorem release {id : Nat} {key : CacheKey} (h : Leaves host l [(id, key)] l') :
    Leaves host l [] (l'.release id) where
  reaches := h.reaches.step (.released id)
  gives := fun ho => (h.reaches.orderly ho).drop_gives (h.gives ho)

theorem withArchive {α : Type} {judge : Locator → Archive → Locator × Verdict α}
    (hj : ∀ l archive, Leaves host l [] (judge l archive).1) (l : Locator) (s : ActiveSet)
    (name : String) : Leaves host l [] (l.withArchive host s name judge).1 := by
  have ho := openArchive host l s name
  unfold Locator.withArchive
  generalize l.openArchive host s name = opened at ho ⊢
  obtain ⟨l', _ | held⟩ := opened
  · exact ho
  · exact (ho.trans (hj l' held.value)).release

/-- A search leaves what the candidate leaves that ends it: the ones before leave nothing. -/
theorem first {α β : Type} {judge : Locator → β → Locator × Verdict α}
    (handles : α → List (Nat × CacheKey))
    (hj : ∀ l candidate, Leaves host l ((judge l candidate).2.found?.toList.flatMap handles)
      (judge l candidate).1) (l : Locator) (candidates : List β) :
    Leaves host l ((Verdict.first judge l candidates).2.toList.flatMap handles)
      (Verdict.first judge l candidates).1 := by
  induction candidates generalizing l with
  | nil => exact refl host l
  | cons candidate rest ih =>
    have hc := hj l candidate
    rw [Verdict.first]
    generalize judge l candidate = judged at hc ⊢
    obtain ⟨l', _ | found | _⟩ := judged
    · exact hc.trans (ih l')
    · exact hc
    · exact hc

theorem first_bare {α β : Type} {judge : Locator → β → Locator × Verdict α}
    (hj : ∀ l candidate, Leaves host l [] (judge l candidate).1) (l : Locator)
    (candidates : List β) : Leaves host l [] (Verdict.first judge l candidates).1 := by
  have hnone : ∀ found : Option α,
      found.toList.flatMap (fun _ => ([] : List (Nat × CacheKey))) = [] := by simp
  have h := first (fun _ : α => []) (fun l candidate => by rw [hnone]; exact hj l candidate) l
    candidates
  rwa [hnone] at h

end Leaves

section
variable {host : Host} {l : Locator} {name : String}

theorem judgeAnimation_leaves (mapping : AnimationMapping) (l : Locator)
    (candidate : ActiveSet × Holding) :
    Leaves host l ((judgeAnimation host name mapping l candidate).2.found?.toList.flatMap
      Animation.handles) (judgeAnimation host name mapping l candidate).1 := by
  obtain ⟨s, holding⟩ := candidate
  have ho := Leaves.openArchive host l s holding.archive
  unfold judgeAnimation
  dsimp only
  generalize l.openArchive host s holding.archive = opened at ho ⊢
  obtain ⟨l', _ | archive⟩ := opened
  · exact ho
  · dsimp only
    cases archive.value.file? mapping.file with
    | none => exact ho.release
    | some file =>
      have hc := ho.trans
        (Leaves.obtainChunk host l' s.name holding.archive mapping.file file mapping.id)
      dsimp only
      generalize l'.obtainChunk s.name holding.archive mapping.file file mapping.id = obtained
        at hc ⊢
      obtain ⟨l'', _ | chunk⟩ := obtained
      · exact hc.release
      · exact hc

theorem locateAnimation_leaves (host : Host) (l : Locator) (name : String) :
    Leaves host l ((l.locateAnimation host name).2.toList.flatMap Animation.handles)
      (l.locateAnimation host name).1 := by
  unfold locateAnimation
  cases l.map.animation? name with
  | none => exact .refl host l
  | some mapping => exact .first _ (judgeAnimation_leaves mapping) l _

theorem locateAnimationIn_leaves (host : Host) (l : Locator) (name dataSet : String) :
    Leaves host l ((l.locateAnimationIn host name dataSet).2.toList.flatMap Animation.handles)
      (l.locateAnimationIn host name dataSet).1 := by
  unfold locateAnimationIn
  cases l.active.find? (fun s => s.name == dataSet) with
  | none => exact .refl host l
  | some s =>
    cases l.map.animation? name with
    | none => exact .refl host l
    | some mapping => exact .first _ (judgeAnimation_leaves mapping) l _

theorem judgePath_leaves (mapping : PathMapping) (l : Locator) (candidate : PathCandidate) :
    Leaves host l [] (judgePath host name mapping l candidate).1 := by
  refine .withArchive (fun l archive => ?_) l candidate.set candidate.holding.archive
  cases archive.file? candidate.file with
  | none => exact .refl host l
  | some file =>
    dsimp only
    cases file.withId? mapping.id with
    | none => exact .refl host l
    | some chunk => exact .refl host l

theorem locatePath_leaves (host : Host) (l : Locator) (name : String) :
    Leaves host l [] (l.locatePath host name).1 := by
  unfold locatePath
  cases l.map.path? name with
  | none => exact .refl host l
  | some mapping => exact .first_bare (judgePath_leaves mapping) l _

theorem judgeGameCamera_leaves (l : Locator) (candidate : ActiveSet × Holding) :
    Leaves host l [] (judgeGameCamera host name l candidate).1 := by
  refine .withArchive (fun l archive => ?_) l candidate.1 candidate.2.archive
  cases archive.file? name with
  | none => exact .refl host l
  | some file =>
    dsimp only
    cases file.withKind? .bits with
    | none => exact .refl host l
    | some bits => exact .refl host l

theorem locateGameCamera_leaves (host : Host) (l : Locator) (name : String) :
    Leaves host l [] (l.locateGameCamera host name).1 :=
  .first_bare judgeGameCamera_leaves l _

theorem judgeMod_leaves (l : Locator) (s : ActiveSet) :
    Leaves host l [] (judgeMod host name l s).1 := by
  unfold judgeMod
  cases stream? host s.backend (name ++ ".png") with
  | some image => exact .refl host l
  | none =>
    dsimp only
    split
    · have hg := locateGameCamera_leaves host l name
      generalize l.locateGameCamera host name = located at hg ⊢
      obtain ⟨l', _ | camera⟩ := located
      · exact hg
      · dsimp only
        cases s.backend.openFile host (name ++ ".cam.bmp.png") with
        | ok delta => exact hg
        | error fault => exact hg
    · exact .refl host l

theorem judgeCamera_leaves (l : Locator) (candidate : CameraCandidate) :
    Leaves host l [] (judgeCamera host name l candidate).1 := by
  cases candidate with
  | mod s => exact judgeMod_leaves l s
  | archived s holding =>
    have hg : Leaves host l [] (judgeGameCamera host name l (s, holding)).1 :=
      judgeGameCamera_leaves l (s, holding)
    unfold judgeCamera
    dsimp only
    generalize judgeGameCamera host name l (s, holding) = judged at hg ⊢
    obtain ⟨l', _ | camera | _⟩ := judged
    · exact hg
    · exact hg
    · exact hg

theorem locateCamera_leaves (host : Host) (l : Locator) (name : String) :
    Leaves host l [] (l.locateCamera host name).1 :=
  .first_bare judgeCamera_leaves l _

theorem judgeBank_leaves (l : Locator) (candidate : ActiveSet × BankMapping) :
    Leaves host l [] (judgeBank host name l candidate).1 := by
  refine .withArchive (fun l archive => ?_) l candidate.1 candidate.2.archive
  split
  · split
    · exact .refl host l
    · exact .refl host l
  · exact .refl host l

theorem locateBank_leaves (host : Host) (l : Locator) (name : String) :
    Leaves host l [] (l.locateBank host name).1 :=
  .first_bare judgeBank_leaves l _

theorem locateEffect_leaves (host : Host) (l : Locator) (name : String) :
    Leaves host l [] (l.locateEffect host name).1 := by
  unfold locateEffect
  cases l.map.effect? name with
  | none => exact .refl host l
  | some mapping =>
    dsimp only
    split
    · have hb := locateBank_leaves host l mapping.bank
      generalize l.locateBank host mapping.bank = located at hb ⊢
      obtain ⟨l', _ | bank⟩ := located
      · exact hb
      · exact hb
    · exact .refl host l

theorem judgeMusic_leaves (mapping : MusicMapping) (l : Locator) (s : ActiveSet) :
    Leaves host l [] (judgeMusic host name mapping l s).1 := by
  refine .withArchive (fun l archive => ?_) l s mapping.archive
  cases archive.file? mapping.file with
  | none => exact .refl host l
  | some file =>
    have hb := locateBank_leaves host l mapping.bank
    dsimp only
    generalize l.locateBank host mapping.bank = located at hb ⊢
    obtain ⟨l', _ | bank⟩ := located
    · exact hb
    · dsimp only
      cases file.at? mapping.index with
      | none => exact hb
      | some sequence => exact hb

theorem locateMusic_leaves (host : Host) (l : Locator) (name : String) :
    Leaves host l [] (l.locateMusic host name).1 := by
  unfold locateMusic
  cases l.map.music? name with
  | none => exact .refl host l
  | some mapping => exact .first_bare (judgeMusic_leaves mapping) l _

theorem judgeVideo_leaves (l : Locator) (candidate : ActiveSet × VideoLocation) :
    Leaves host l [] (judgeVideo host name l candidate).1 := by
  unfold judgeVideo
  dsimp only
  cases stream? host candidate.1.backend candidate.2.file with
  | none => exact .refl host l
  | some stream => exact .refl host l

theorem locateVideo_leaves (host : Host) (l : Locator) (name : String) :
    Leaves host l [] (l.locateVideo host name).1 := by
  unfold locateVideo
  cases l.map.video? name with
  | none => exact .refl host l
  | some mapping => exact .first_bare judgeVideo_leaves l _

/-- Whatever is asked for, only the handles that are given out are left. -/
theorem ask_leaves (host : Host) (l : Locator) (query : Query) :
    Leaves host l (l.given host query) (l.ask host query).1 := by
  cases query with
  | animation name => exact locateAnimation_leaves host l name
  | animationIn name dataSet => exact locateAnimationIn_leaves host l name dataSet
  | path name => exact locatePath_leaves host l name
  | camera name => exact locateCamera_leaves host l name
  | bank name => exact locateBank_leaves host l name
  | effect name => exact locateEffect_leaves host l name
  | music name => exact locateMusic_leaves host l name
  | video name => exact locateVideo_leaves host l name

theorem move_reaches (host : Host) (l : Locator) (move : Move) :
    Reaches host l (l.move host move).1 := by
  cases move with
  | ask query => exact (ask_leaves host l query).reaches
  | share handle => exact Reaches.here.step (.shared handle)
  | release handle => exact Reaches.here.step (.released handle)
  | releaseAnimation animation =>
    exact (Reaches.here.step (.released animation.archive.handle)).step
      (.released animation.chunk.handle)

theorem turn_reaches (host : Host) (l : Locator) (turn : Turn) :
    Reaches host l (l.turn host turn).1 := by
  obtain ⟨move, rfl⟩ | hturn := turn_cases l host turn
  · exact move_reaches host l move
  · rw [hturn]
    cases l.activated? host turn with
    | none => exact .here
    | some active => exact Reaches.here.step (.activated active)

theorem after_reaches (host : Host) (l : Locator) (turns : List Turn) :
    Reaches host l (l.after host turns) := by
  induction turns generalizing l with
  | nil => exact .here
  | cons turn rest ih => exact (turn_reaches host l turn).trans (ih _)

end
end Locator
end LayeredAssets
