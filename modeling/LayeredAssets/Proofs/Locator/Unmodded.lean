import LayeredAssets.Proofs.Locator.Blind

namespace LayeredAssets

/-- What no mod has a say in. A camera may be a mod's, and so may a data set that is asked for by
its name. -/
def Query.skipsMods : Query → Bool
  | .animationIn _ _ => false
  | .camera _ => false
  | _ => true

namespace Locator

/-- The same locator with the data sets of the games alone. -/
def withoutMods (l : Locator) : Locator := l.setActive l.builtIn

/-- What is left of a locator after some moves. -/
def afterMoves (l : Locator) (host : Host) (moves : List Move) : Locator :=
  moves.foldl (fun l move => (l.move host move).1) l

/-- A search that goes the same way without the mods. -/
def Unmodded {α : Type} (search : Locator → Locator × α) : Prop :=
  ∀ l, search l.withoutMods = ((search l).1.withoutMods, (search l).2)

section
variable (l : Locator)

@[simp] theorem map_withoutMods : l.withoutMods.map = l.map := rfl

theorem withoutMods_setActive (active : List ActiveSet) :
    (l.setActive active).withoutMods = l.setActive (active.filter (fun s => !s.isMod)) := rfl

@[simp] theorem builtIn_withoutMods : l.withoutMods.builtIn = l.builtIn := by
  change (l.active.filter _).filter _ = l.active.filter _
  rw [List.filter_filter]
  congr 1
  funext s
  exact Bool.and_self _

theorem pathCandidates_withoutMods (mapping : PathMapping) :
    l.withoutMods.pathCandidates mapping = l.pathCandidates mapping := by
  unfold pathCandidates
  rw [builtIn_withoutMods, map_withoutMods]

theorem bankCandidates_withoutMods (name : String) :
    l.withoutMods.bankCandidates name = l.bankCandidates name := by
  unfold bankCandidates
  rw [builtIn_withoutMods, map_withoutMods]

theorem videoCandidates_withoutMods (mapping : VideoMapping) :
    l.withoutMods.videoCandidates mapping = l.videoCandidates mapping := by
  unfold videoCandidates
  rw [builtIn_withoutMods]

end

/-- A search that does not look at the data sets goes the same way without the mods. -/
theorem Blind.unmodded {α : Type} {search : Locator → Locator × α} (h : Blind search) :
    Unmodded search := by
  intro l
  -- With the data sets that are active anyway, nothing but them can be active afterwards.
  have hkept : (search l).1.active = l.active :=
    congrArg (fun result => result.1.active) (h l l.active)
  have hgames : (search l).1.withoutMods = (search l).1.setActive l.builtIn := by
    unfold withoutMods builtIn
    rw [hkept]
  rw [hgames]
  exact h l l.builtIn

namespace Unmodded

variable {name : String}

variable (host : Host)

theorem withArchive {α : Type} {judge : Locator → Archive → Locator × Verdict α}
    (hj : ∀ archive, Unmodded fun l => judge l archive) (s : ActiveSet) (name : String) :
    Unmodded fun l => l.withArchive host s name judge :=
  withArchive_comm (Blind.openArchive host s name).unmodded (fun l archive => hj archive l)
    fun _ _ => rfl

theorem first {α β : Type} {judge : Locator → β → Locator × Verdict α} {candidates : List β}
    (hj : ∀ candidate ∈ candidates, Unmodded fun l => judge l candidate) :
    Unmodded fun l => Verdict.first judge l candidates := fun _ =>
  (Verdict.first_comm (I := fun _ => True)
    (fun l _ candidate hm => ⟨trivial, hj candidate hm l⟩) trivial).2

theorem locateAnimation (name : String) : Unmodded fun l => l.locateAnimation host name := by
  intro l
  unfold Locator.locateAnimation
  dsimp only [map_withoutMods]
  rw [builtIn_withoutMods]
  cases l.map.animation? name with
  | none => rfl
  | some mapping =>
    exact first (fun candidate _ => (Blind.judgeAnimation host mapping candidate).unmodded) l

theorem locatePath (name : String) : Unmodded fun l => l.locatePath host name := by
  intro l
  unfold Locator.locatePath
  dsimp only [map_withoutMods]
  cases l.map.path? name with
  | none => rfl
  | some mapping =>
    dsimp only
    rw [pathCandidates_withoutMods]
    exact first (fun candidate _ => (Blind.judgePath host mapping candidate).unmodded) l

theorem locateBank (name : String) : Unmodded fun l => l.locateBank host name := by
  intro l
  unfold Locator.locateBank
  dsimp only
  rw [bankCandidates_withoutMods]
  exact first (fun candidate _ => (Blind.judgeBank host candidate).unmodded) l

theorem locateEffect (name : String) : Unmodded fun l => l.locateEffect host name := by
  intro l
  unfold Locator.locateEffect
  dsimp only [map_withoutMods]
  rw [builtIn_withoutMods]
  cases l.map.effect? name with
  | none => rfl
  | some mapping =>
    dsimp only
    split
    · have hb := locateBank host mapping.bank l
      dsimp only at hb
      rw [hb]
      generalize l.locateBank host mapping.bank = located
      obtain ⟨l', _ | bank⟩ := located
      · rfl
      · rfl
    · rfl

/-- The bank is looked for among all data sets, and so among those that are no mods. -/
theorem judgeMusic (mapping : MusicMapping) (s : ActiveSet) :
    Unmodded fun l => judgeMusic host name mapping l s := by
  refine withArchive host (fun archive l => ?_) s mapping.archive
  cases archive.file? mapping.file with
  | none => rfl
  | some file =>
    have hb := locateBank host mapping.bank l
    dsimp only at hb ⊢
    rw [hb]
    generalize l.locateBank host mapping.bank = located
    obtain ⟨l', _ | bank⟩ := located
    · rfl
    · dsimp only
      cases file.at? mapping.index with
      | none => rfl
      | some sequence => rfl

theorem locateMusic (name : String) : Unmodded fun l => l.locateMusic host name := by
  intro l
  unfold Locator.locateMusic
  dsimp only [map_withoutMods]
  rw [builtIn_withoutMods]
  cases l.map.music? name with
  | none => rfl
  | some mapping => exact first (fun s _ => judgeMusic host mapping s) l

theorem locateVideo (name : String) : Unmodded fun l => l.locateVideo host name := by
  intro l
  unfold Locator.locateVideo
  dsimp only [map_withoutMods]
  cases l.map.video? name with
  | none => rfl
  | some mapping =>
    dsimp only
    rw [videoCandidates_withoutMods]
    exact first (fun candidate _ => (Blind.judgeVideo host candidate).unmodded) l

/-- What is made of a result and of the cache that it was found with does not matter. -/
theorem map {α β : Type} {search : Locator → Locator × α} (hs : Unmodded search)
    (f : Cache → α → β) : Unmodded fun l => ((search l).1, f (search l).1.cache (search l).2) := by
  intro l
  dsimp only
  rw [hs l]
  rfl

theorem ask {query : Query} (h : query.skipsMods = true) : Unmodded fun l => l.ask host query := by
  cases query with
  | animation name =>
    exact (locateAnimation host name).map fun c found =>
      Answer.animation (found.map (Animation.contents c))
  | animationIn name dataSet => cases h
  | path name => exact (locatePath host name).map fun _ => Answer.path
  | camera name => cases h
  | bank name => exact (locateBank host name).map fun _ => Answer.bank
  | effect name => exact (locateEffect host name).map fun _ => Answer.effect
  | music name => exact (locateMusic host name).map fun _ => Answer.music
  | video name => exact (locateVideo host name).map fun _ => Answer.video

theorem move {move : Move} (h : ∀ query ∈ move.query?, query.skipsMods = true) :
    Unmodded fun l => l.move host move := by
  cases move with
  | ask query => exact (ask host (h query rfl)).map fun _ => some
  | share handle => exact fun _ => rfl
  | release handle => exact fun _ => rfl
  | releaseAnimation animation => exact fun _ => rfl

/-- Move by move, the two locators differ in their mods only. -/
theorem moves {moves : List Move}
    (h : ∀ move ∈ moves, ∀ query ∈ move.query?, query.skipsMods = true) :
    Unmodded fun l => (l.afterMoves host moves, l.answers host moves) := by
  intro l
  induction moves generalizing l with
  | nil => rfl
  | cons first rest ih =>
    have hm := move host (h first List.mem_cons_self) l
    have hr := ih (fun move hm => h move (List.mem_cons_of_mem _ hm)) (l.move host first).1
    simp only [Prod.mk.injEq] at hm hr ⊢
    constructor
    · change ((l.withoutMods.move host first).1).afterMoves host rest = _
      rw [hm, hr.1]
      rfl
    · simp only [answers]
      rw [hm, hr.2]

end Unmodded

/-- Without the mods every answer is the same, as long as neither a camera nor a data set by its
name is asked for. So is all that is left in the end but the mods themselves, the handles among it:
what is kept and what is let go means the same to both. -/
theorem mods_stay_unseen (l : Locator) (host : Host) (active : List ActiveSet) (moves : List Move)
    (skip : ∀ move ∈ moves, ∀ query ∈ move.query?, query.skipsMods = true) :
    (l.setActive active).answers host moves =
        (l.setActive (active.filter (fun s => !s.isMod))).answers host moves ∧
      (l.setActive (active.filter (fun s => !s.isMod))).afterMoves host moves =
        ((l.setActive active).afterMoves host moves).withoutMods := by
  have h := Unmodded.moves host skip (l.setActive active)
  rw [withoutMods_setActive, Prod.mk.injEq] at h
  exact ⟨h.2.symm, h.1⟩

/-- A mod in one of the folders has taken the name of the game in the other. -/
def moddedSets : List ActiveSet := ⟨"game", true, .folder "a"⟩ :: gameIn "b"

/-- The archive is let go while its chunk stays. -/
def moddedMoves : List Move :=
  [.ask (.animation "walk"), .release 0, .ask (.animation "walk"), .share 1, .release 1,
    .ask (.animation "walk")]

theorem mods_stay_unseen_twins :
    (∀ move ∈ moddedMoves, ∀ query ∈ move.query?, query.skipsMods = true) ∧
      ((twinLocator.setActive moddedSets).answers twinHost moddedMoves).map Answer.taken =
        [[walkChunk 0xbb], [walkChunk 0xbb], [walkChunk 0xbb]] := by
  have hskip : ∀ move ∈ moddedMoves, ∀ query ∈ move.query?, query.skipsMods = true := by decide
  obtain ⟨hsame, _⟩ := mods_stay_unseen twinLocator twinHost moddedSets moddedMoves hskip
  refine ⟨hskip, ?_⟩
  rw [hsame]
  decide +kernel

end Locator
end LayeredAssets
