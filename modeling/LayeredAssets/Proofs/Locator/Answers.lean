import LayeredAssets.Proofs.Archives
import LayeredAssets.Proofs.Locator.Transparency

namespace LayeredAssets

/-- What may be asked of a locator. -/
inductive Query
  | animation (name : String)
  | animationIn (name dataSet : String)
  | path (name : String)
  | camera (name : String)
  | bank (name : String)
  | effect (name : String)
  | music (name : String)
  | video (name : String)

inductive Answer
  | animation (found : Option AnimationContents)
  | path (found : Option LevelPath)
  | camera (found : Option Camera)
  | bank (found : Option SoundBank)
  | effect (found : Option SoundEffect)
  | music (found : Option Music)
  | video (found : Option Video)

/-- What the owner of a locator does: it asks, and it shares and lets go what it has got. -/
inductive Move
  | ask (query : Query)
  | share (handle : Nat)
  | release (handle : Nat)
  | releaseAnimation (animation : Animation)

def Move.query? : Move → Option Query
  | ask query => some query
  | _ => none

namespace Locator

/-- An animation is looked at before anything else is done. -/
def ask (l : Locator) (host : Host) : Query → Locator × Answer
  | .animation name =>
    let (l, found) := l.locateAnimation host name
    (l, .animation (found.map (Animation.contents l.cache)))
  | .animationIn name dataSet =>
    let (l, found) := l.locateAnimationIn host name dataSet
    (l, .animation (found.map (Animation.contents l.cache)))
  | .path name => (l.locatePath host name).map id .path
  | .camera name => (l.locateCamera host name).map id .camera
  | .bank name => (l.locateBank host name).map id .bank
  | .effect name => (l.locateEffect host name).map id .effect
  | .music name => (l.locateMusic host name).map id .music
  | .video name => (l.locateVideo host name).map id .video

def uncached (l : Locator) (host : Host) : Query → Answer
  | .animation name => .animation (l.uncachedAnimation host name)
  | .animationIn name dataSet => .animation (l.uncachedAnimationIn host name dataSet)
  | .path name => .path (l.uncachedPath host name)
  | .camera name => .camera (l.uncachedCamera host name)
  | .bank name => .bank (l.uncachedBank host name)
  | .effect name => .effect (l.uncachedEffect host name)
  | .music name => .music (l.uncachedMusic host name)
  | .video name => .video (l.uncachedVideo host name)

def move (l : Locator) (host : Host) : Move → Locator × Option Answer
  | .ask query => (l.ask host query).map id some
  | .share handle => ({ l with cache := (l.cache.share handle).1 }, none)
  | .release handle => (l.release handle, none)
  | .releaseAnimation animation => (l.releaseAnimation animation, none)

/-- The answers in the course of some moves. -/
def answers (l : Locator) (host : Host) : List Move → List Answer
  | [] => []
  | move :: rest =>
    let (l, answer) := l.move host move
    answer.toList ++ l.answers host rest

namespace Serves

variable {known : List ActiveSet} {base l : Locator} {host : Host}

theorem ask (h : Serves known base host l) (query : Query) :
    Serves known base host (l.ask host query).1 ∧
      (l.ask host query).2 = base.uncached host query := by
  cases query with
  | animation name =>
    obtain ⟨hl, hv⟩ := h.locateAnimation name
    exact ⟨hl, congrArg Answer.animation hv⟩
  | animationIn name dataSet =>
    obtain ⟨hl, hv⟩ := h.locateAnimationIn name dataSet
    exact ⟨hl, congrArg Answer.animation hv⟩
  | path name =>
    obtain ⟨hl, hv⟩ := h.locatePath name
    exact ⟨hl, congrArg Answer.path hv⟩
  | camera name =>
    obtain ⟨hl, hv⟩ := h.locateCamera name
    exact ⟨hl, congrArg Answer.camera hv⟩
  | bank name =>
    obtain ⟨hl, hv⟩ := h.locateBank name
    exact ⟨hl, congrArg Answer.bank hv⟩
  | effect name =>
    obtain ⟨hl, hv⟩ := h.locateEffect name
    exact ⟨hl, congrArg Answer.effect hv⟩
  | music name =>
    obtain ⟨hl, hv⟩ := h.locateMusic name
    exact ⟨hl, congrArg Answer.music hv⟩
  | video name =>
    obtain ⟨hl, hv⟩ := h.locateVideo name
    exact ⟨hl, congrArg Answer.video hv⟩

theorem move (h : Serves known base host l) (move : Move) :
    Serves known base host (l.move host move).1 ∧
      (l.move host move).2 = move.query?.map (base.uncached host) := by
  cases move with
  | ask query =>
    obtain ⟨hl, hv⟩ := h.ask query
    exact ⟨hl, congrArg some hv⟩
  | share handle => exact ⟨h.share handle, rfl⟩
  | release handle => exact ⟨h.release handle, rfl⟩
  | releaseAnimation animation =>
    exact ⟨(h.release animation.archive.handle).release animation.chunk.handle, rfl⟩

theorem answers (h : Serves known base host l) (moves : List Move) :
    l.answers host moves = (moves.filterMap Move.query?).map (base.uncached host) := by
  induction moves generalizing l with
  | nil => rfl
  | cons move rest ih =>
    obtain ⟨hl, hv⟩ := h.move move
    rw [Locator.answers]
    dsimp only
    rw [hv, ih hl]
    cases hq : move.query? with
    | none => rw [List.filterMap_cons_none hq]; rfl
    | some query => rw [List.filterMap_cons_some hq]; rfl

end Serves

/-- A locator that shares what it has open answers like one that has nothing open, and that one
answers as if every archive were loaded anew. -/
theorem answers_eq_fresh (loader : String → Stream → Except Fault Archive) (map : ResourceMap)
    (table : PathTable) (gameFiles : Option Backend) (host : Host) (active : List ActiveSet)
    (distinct : (active.map ActiveSet.name).Nodup) (moves : List Move) :
    ((make loader map table gameFiles).setActive active).answers host moves =
        ((moves.filterMap Move.query?).map fun query =>
          (((make loader map table gameFiles).setActive active).ask host query).2) ∧
      ∀ query, (((make loader map table gameFiles).setActive active).ask host query).2 =
        ((make loader map table gameFiles).setActive active).uncached host query := by
  have hfresh : Serves active ((make loader map table gameFiles).setActive active) host
      ((make loader map table gameFiles).setActive active) :=
    .fresh distinct rfl rfl
  refine ⟨?_, fun query => (hfresh.ask query).2⟩
  rw [hfresh.answers moves]
  exact List.map_congr_left fun query _ => (hfresh.ask query).2.symm

def walkHost : Host := ⟨[(["game"], .folder), (["game", "R1.LVL"], .file [1, 2])], []⟩

def walkSets : List ActiveSet := [⟨"mod", true, .folder "mod"⟩, ⟨"game", false, .folder "game"⟩]

def walkMap : ResourceMap :=
  (ResourceMap.empty.addAnimation "walk" ⟨"ABE.BAN", 7, 0⟩).addHolding "game" "ABE.BAN"
    ⟨"R1.LVL", false, true, false⟩

def walkArchive (bytes : Bytes) : Archive := .ofFiles [("ABE.BAN", [⟨7, .bits, bytes⟩])]

def walkLoader : String → Stream → Except Fault Archive :=
  Archive.drained fun _ bytes => .ok (walkArchive bytes)

def walkLocator : Locator := (make walkLoader walkMap ⟨.empty, .empty⟩ none).setActive walkSets

def walk : AnimationContents where
  name := "walk"
  dataSet := "game"
  archiveName := "R1.LVL"
  file := "ABE.BAN"
  id := 7
  blendMode := 0
  isPsx := false
  scaleFrameOffsets := false
  archive := walkArchive [1, 2]
  archiveKey := some (.ofArchive "game" "R1.LVL")
  chunk := ⟨7, .bits, [1, 2]⟩
  chunkKey := some (.ofChunk "game" "R1.LVL" "ABE.BAN" 7)

/-- The archive is let go while its chunk stays, and is then loaded anew. -/
def walkMoves : List Move :=
  [.ask (.animation "walk"), .release 0, .ask (.animationIn "walk" "game"), .share 1, .release 1,
    .ask (.animationIn "walk" "mod"), .ask (.animation "walk")]

theorem answers_eq_fresh_walk : (walkSets.map ActiveSet.name).Nodup ∧
    walkLocator.answers walkHost walkMoves =
      [.animation (some walk), .animation (some walk), .animation none,
        .animation (some walk)] := by
  have hd : (walkSets.map ActiveSet.name).Nodup := by decide
  obtain ⟨hshared, hfresh⟩ :=
    answers_eq_fresh walkLoader walkMap ⟨.empty, .empty⟩ none walkHost walkSets hd walkMoves
  refine ⟨hd, ?_⟩
  calc walkLocator.answers walkHost walkMoves
      = (walkMoves.filterMap Move.query?).map fun query => (walkLocator.ask walkHost query).2 :=
        hshared
    _ = (walkMoves.filterMap Move.query?).map (walkLocator.uncached walkHost) :=
        List.map_congr_left fun query _ => hfresh query
    _ = _ := rfl

end Locator
end LayeredAssets
