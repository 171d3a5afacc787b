import LayeredAssets.Proofs.Locator.Settling
import LayeredAssets.Proofs.Locator.Unmodded

namespace LayeredAssets

namespace Verdict

variable {σ α β γ : Type} {candidates : List β}

/-- Where one of the candidates ends a search, it does not get to those behind them. -/
theorem first_append_of_ended {I : σ → Prop} {judge : σ → β → σ × Verdict α}
    {appraise : β → Verdict γ} (view : σ → α → γ)
    (hj : ∀ s, I s → ∀ b ∈ candidates,
      I (judge s b).1 ∧ (judge s b).2.map (view (judge s b).1) = appraise b)
    (ends : ∃ b ∈ candidates, appraise b ≠ passOver) {s : σ} (hs : I s) (more : List β) :
    first judge s (candidates ++ more) = first judge s candidates := by
  induction candidates generalizing s with
  | nil =>
    obtain ⟨b, hb, _⟩ := ends
    cases hb
  | cons c rest ih =>
    obtain ⟨hi, hv⟩ := hj s hs c List.mem_cons_self
    rw [List.cons_append, first, first]
    generalize judge s c = judged at hi hv ⊢
    obtain ⟨s', _ | found | _⟩ := judged
    · -- This one is passed over, so the one that ends the search is behind it.
      obtain ⟨b, hb, hne⟩ := ends
      obtain rfl | hb := List.mem_cons.mp hb
      · exact absurd hv.symm hne
      · exact ih (fun s hs b hb => hj s hs b (List.mem_cons_of_mem _ hb)) ⟨b, hb, hne⟩ hi
    · rfl
    · rfl

theorem foremost_eq_settle {appraise : β → Verdict α} {found : α}
    (h : foremost appraise candidates = settle found) :
    ∃ candidate ∈ candidates, appraise candidate = settle found :=
  pick_eq_some (pick_of_foremost h)

end Verdict

namespace Locator

/-- What is told of an animation that was found. -/
def told (asked : Locator × Option Animation) : Option AnimationContents :=
  asked.2.map (Animation.contents asked.1.cache)

def gamesOf (active : List ActiveSet) : List ActiveSet := active.filter fun s => !s.isMod

def named (active : List ActiveSet) (dataSet : String) : List ActiveSet :=
  active.filter fun s => s.name == dataSet

/-- The first data set of this name, if there is one, is no mod. -/
def GameFirst (active : List ActiveSet) (dataSet : String) : Prop :=
  ∀ s, (named active dataSet).head? = some s → s.isMod = false

/-- The first data set of this name has the file of the animation in one of its archives, be the
animation in the file or not. -/
def FirstHas (l : Locator) (host : Host) (active : List ActiveSet) (name dataSet : String) : Prop :=
  ∀ mapping, l.map.animation? name = some mapping → ∃ s holding archive sub,
    (named active dataSet).head? = some s ∧ holding ∈ l.map.holdings s.name mapping.file ∧
      l.Has host ⟨s, mapping.file, holding⟩ archive sub

section
variable {l : Locator} {host : Host} {name dataSet : String} {active : List ActiveSet}

theorem Blind.told_eq {search : Locator → Locator × Option Animation} (h : Blind search)
    (l : Locator) (active : List ActiveSet) :
    told (search (l.setActive active)) = told (search l) := by
  rw [h l active]
  rfl

/-- A search for an animation judges the archives of the games, whatever is active beside them. -/
theorem told_locateAnimation (l : Locator) (host : Host) (name : String) (active : List ActiveSet) :
    told ((l.setActive active).locateAnimation host name) =
      (l.map.animation? name).bind fun mapping =>
        told (Verdict.first (judgeAnimation host name mapping) l
          (l.keepers (gamesOf active) mapping.file)) := by
  have hmap : (l.setActive active).map = l.map := rfl
  unfold locateAnimation
  rw [hmap]
  cases l.map.animation? name with
  | none => rfl
  | some mapping =>
    exact (Blind.first (Blind.judgeAnimation host mapping) _).told_eq l active

theorem told_locateAnimationIn (l : Locator) (host : Host) (name dataSet : String)
    (active : List ActiveSet) :
    told ((l.setActive active).locateAnimationIn host name dataSet) =
      (l.map.animation? name).bind fun mapping =>
        (named active dataSet).head?.bind fun s =>
          told (Verdict.first (judgeAnimation host name mapping) l
            (l.keepers [s] mapping.file)) := by
  have hmap : (l.setActive active).map = l.map := rfl
  have hfind : (l.setActive active).active.find? (fun s => s.name == dataSet) =
      (named active dataSet).head? := (List.head?_filter ..).symm
  unfold locateAnimationIn
  rw [hmap, hfind]
  cases l.map.animation? name with
  | none => cases (named active dataSet).head? <;> rfl
  | some mapping =>
    cases (named active dataSet).head? with
    | none => rfl
    | some s =>
      exact (Blind.first (Blind.judgeAnimation host mapping) _).told_eq l active

theorem gamesOf_cons_game {s : ActiveSet} (isGame : s.isMod = false) (rest : List ActiveSet) :
    gamesOf (s :: rest) = s :: gamesOf rest :=
  List.filter_cons_of_pos (by simp [isGame])

theorem keepers_cons (l : Locator) (s : ActiveSet) (rest : List ActiveSet) (file : String) :
    l.keepers (s :: rest) file = l.keepers [s] file ++ l.keepers rest file := by
  unfold keepers
  rw [List.flatMap_cons, List.flatMap_singleton]

/-- An archive with the file of an animation ends the search for it. -/
theorem appraiseAnimation_ends {mapping : AnimationMapping} {s : ActiveSet} {holding : Holding}
    {archive : Archive} {sub : SubFile} (has : l.Has host ⟨s, mapping.file, holding⟩ archive sub) :
    l.appraiseAnimation host name mapping (s, holding) ≠ .passOver := by
  have heq : l.appraiseAnimation host name mapping (s, holding) =
      l.appraiseFile host (animationIn? name mapping) ⟨s, mapping.file, holding⟩ :=
    appraiseAnimation_eq (c := ⟨s, mapping.file, holding⟩) l host name mapping rfl
  rw [heq, appraiseFile_has _ has]
  cases animationIn? name mapping ⟨s, mapping.file, holding⟩ archive sub with
  | none =>
    intro h
    cases h
  | some found =>
    intro h
    cases h

/-- The games behind one that has the file do not matter. -/
theorem first_keepers_of_has (hc : l.cache = .empty) {mapping : AnimationMapping} {s : ActiveSet}
    {holding : Holding} {archive : Archive} {sub : SubFile}
    (hm : holding ∈ l.map.holdings s.name mapping.file)
    (has : l.Has host ⟨s, mapping.file, holding⟩ archive sub) (rest : List ActiveSet) :
    Verdict.first (judgeAnimation host name mapping) (l.setActive [s])
        (l.keepers (s :: rest) mapping.file) =
      Verdict.first (judgeAnimation host name mapping) (l.setActive [s])
        (l.keepers [s] mapping.file) := by
  have hl : Serves [s] (l.setActive [s]) host (l.setActive [s]) :=
    .fresh (List.nodup_singleton _) hc rfl
  have has' : (l.setActive [s]).Has host ⟨s, mapping.file, holding⟩ archive sub :=
    ⟨⟨has.opened.present, has.opened.loads⟩, has.contains⟩
  have hends : ∃ candidate ∈ l.keepers [s] mapping.file,
      (l.setActive [s]).appraiseAnimation host name mapping candidate ≠ .passOver := by
    refine ⟨(s, holding), ?_, appraiseAnimation_ends has'⟩
    rw [keepers, List.flatMap_singleton]
    exact List.mem_map_of_mem hm
  rw [keepers_cons]
  exact Verdict.first_append_of_ended (fun l => Animation.contents l.cache)
    (fun l' (hl' : Serves [s] (l.setActive [s]) host l') candidate hm =>
      hl'.judgeAnimation mapping candidate.2 (keepers_mem hm)) hends hl _

/-- The search in one data set is the search among all of its name, as long as the first of them is
a game and the others are not needed. -/
theorem told_in_eq_named (hc : l.cache = .empty) (front : GameFirst active dataSet)
    (enough : (gamesOf (named active dataSet)).length ≤ 1 ∨ l.FirstHas host active name dataSet) :
    told ((l.setActive active).locateAnimationIn host name dataSet) =
      told ((l.setActive (named active dataSet)).locateAnimation host name) := by
  cases hn : named active dataSet with
  | nil =>
    rw [told_locateAnimationIn, told_locateAnimation, hn]
    rfl
  | cons s rest =>
    have hs : (named active dataSet).head? = some s := by rw [hn]; rfl
    have isGame := front s hs
    -- What is active does not matter to the searches, so let it be the one data set alone.
    change told (((l.setActive [s]).setActive active).locateAnimationIn host name dataSet) =
      told (((l.setActive [s]).setActive (s :: rest)).locateAnimation host name)
    rw [told_locateAnimationIn, told_locateAnimation, hs, gamesOf_cons_game isGame]
    cases hm : (l.setActive [s]).map.animation? name with
    | none => rfl
    | some mapping =>
      rw [Option.bind_some, Option.bind_some, Option.bind_some]
      obtain hsingle | hfirst := enough
      · rw [hn, gamesOf_cons_game isGame] at hsingle
        have hrest : gamesOf rest = [] := by simpa using hsingle
        rw [hrest]
      · obtain ⟨s', holding, archive, sub, hs', hholding, has⟩ := hfirst mapping hm
        obtain rfl := Option.some.inj (hs.symm.trans hs')
        exact congrArg told (first_keepers_of_has hc hholding has (gamesOf rest)).symm

end

section
variable {l : Locator} {host : Host} {name : String}

theorem appraiseAnimation_dataSet {mapping : AnimationMapping} {s : ActiveSet} {holding : Holding}
    {found : AnimationContents}
    (h : l.appraiseAnimation host name mapping (s, holding) = .settle found) :
    found.dataSet = s.name := by
  unfold appraiseAnimation at h
  dsimp only at h
  split at h
  · cases h
  · split at h
    · cases h
    · split at h
      · cases h
      · cases h
        rfl

/-- Where names tell the data sets apart, what is found is found by the name of its data set. -/
theorem uncachedAnimationIn_of_found (distinct : (l.active.map ActiveSet.name).Nodup)
    {found : AnimationContents} (h : l.uncachedAnimation host name = some found) :
    l.uncachedAnimationIn host name found.dataSet = some found := by
  unfold uncachedAnimation at h
  cases hm : l.map.animation? name with
  | none =>
    rw [hm] at h
    cases h
  | some mapping =>
    rw [hm] at h
    dsimp only at h
    rw [keepers, Verdict.pick_flatMap] at h
    obtain ⟨s, hs, hsettle⟩ := Verdict.pick_eq_some h
    obtain ⟨c, hc, hfound⟩ := Verdict.foremost_eq_settle hsettle
    obtain ⟨holding, _, rfl⟩ := List.mem_map.mp hc
    have hname := appraiseAnimation_dataSet hfound
    have hfind : l.active.find? (fun s => s.name == found.dataSet) = some s := by
      cases hf : l.active.find? (fun s => s.name == found.dataSet) with
      | none => exact absurd hname.symm (by simpa using List.find?_eq_none.mp hf s (builtIn_mem hs))
      | some other =>
        have hother : other.name = found.dataSet := by simpa using List.find?_some hf
        rw [set_eq distinct (List.mem_of_find?_eq_some hf) (builtIn_mem hs) (hother.trans hname)]
    unfold uncachedAnimationIn
    rw [hfind, hm]
    dsimp only
    rw [keepers, List.flatMap_singleton]
    exact Verdict.pick_of_foremost hsettle

end

/-- The first game of a name is still the first one without the mods. -/
theorem head?_named_gamesOf {active : List ActiveSet} {dataSet : String}
    (front : GameFirst active dataSet) :
    (named (gamesOf active) dataSet).head? = (named active dataSet).head? := by
  have hcomm : named (gamesOf active) dataSet = gamesOf (named active dataSet) := by
    unfold named gamesOf
    rw [List.filter_filter, List.filter_filter]
    simp only [Bool.and_comm]
  rw [hcomm]
  cases hn : named active dataSet with
  | nil => rfl
  | cons s rest =>
    rw [gamesOf_cons_game (front s (by rw [hn]; rfl))]
    rfl

/-- To ask for an animation in one data set is to ask for it where all other names are gone, unless
a mod stands before the games of that name, or the first of them does not have the file while there
are more. Where names tell the data sets apart, what is found at all is found by the name of
its data set as well. All the same is found without the mods. -/
theorem explicit_search_restricted (loader : String → Stream → Except Fault Archive)
    (map : ResourceMap) (table : PathTable) (gameFiles : Option Backend) (host : Host)
    (active : List ActiveSet) (name dataSet : String) :
    let l (sets : List ActiveSet) := (make loader map table gameFiles).setActive sets
    let found (sets : List ActiveSet) := (l sets).locateAnimation host name
    let asked (sets : List ActiveSet) := (l sets).locateAnimationIn host name dataSet
    (GameFirst active dataSet →
        (gamesOf (named active dataSet)).length ≤ 1 ∨
          (l active).FirstHas host active name dataSet →
      told (asked active) = told (found (named active dataSet))) ∧
      ((active.map ActiveSet.name).Nodup → ∀ contents, told (found active) = some contents →
        contents.dataSet = dataSet → told (asked active) = some contents) ∧
      told (found active) = told (found (gamesOf active)) ∧
      (GameFirst active dataSet → told (asked active) = told (asked (gamesOf active))) := by
  intro l found asked
  refine ⟨?_, ?_, ?_, ?_⟩
  · intro front enough
    exact told_in_eq_named (l := l active) rfl front enough
  · rintro distinct contents hfound rfl
    have hl : Serves active (l active) host (l active) := .fresh distinct rfl rfl
    have hpure : (l active).uncachedAnimation host name = some contents :=
      (hl.locateAnimation name).2.symm.trans hfound
    exact (hl.locateAnimationIn name contents.dataSet).2.trans
      (uncachedAnimationIn_of_found distinct hpure)
  · have hsame := Unmodded.locateAnimation host name (l active)
    change told _ = told ((l active).withoutMods.locateAnimation host name)
    dsimp only at hsame
    rw [hsame]
    rfl
  · intro front
    change told (((make loader map table gameFiles).setActive _).locateAnimationIn _ _ _) =
      told (((make loader map table gameFiles).setActive _).locateAnimationIn _ _ _)
    rw [told_locateAnimationIn, told_locateAnimationIn, head?_named_gamesOf front]

/-- A mod of a name of its own, and the game. -/
def skinSets : List ActiveSet := ⟨"skin", true, .folder "a"⟩ :: gameIn "b"

theorem explicit_search_restricted_skin :
    GameFirst skinSets "game" ∧ (gamesOf (named skinSets "game")).length ≤ 1 ∧
      (skinSets.map ActiveSet.name).Nodup ∧
      (told ((twinLocator.setActive skinSets).locateAnimationIn twinHost "walk" "game")).map
        AnimationContents.chunk = some ⟨7, .bits, [0xbb]⟩ ∧
      told ((twinLocator.setActive skinSets).locateAnimationIn twinHost "walk" "game") =
        told ((twinLocator.setActive skinSets).locateAnimation twinHost "walk") := by
  have hfront : GameFirst skinSets "game" := by
    rintro s ⟨⟩
    rfl
  have hsingle : (gamesOf (named skinSets "game")).length ≤ 1 := by decide
  have hd : (skinSets.map ActiveSet.name).Nodup := by decide
  obtain ⟨hnamed, hfound, _⟩ := explicit_search_restricted walkLoader walkMap ⟨.empty, .empty⟩ none
    twinHost skinSets "walk" "game"
  refine ⟨hfront, hsingle, hd, ?_, ?_⟩
  · have hsame : told ((twinLocator.setActive skinSets).locateAnimationIn twinHost "walk" "game") =
        told ((twinLocator.setActive (named skinSets "game")).locateAnimation twinHost "walk") :=
      hnamed hfront (Or.inl hsingle)
    rw [hsame]
    decide +kernel
  · have hgame : (told ((twinLocator.setActive skinSets).locateAnimation twinHost "walk")).map
        AnimationContents.dataSet = some "game" := by decide +kernel
    obtain ⟨contents, hc, hdataSet⟩ := Option.map_eq_some_iff.mp hgame
    exact (hfound hd contents hc hdataSet).trans hc.symm

/-- A mod that has taken the name of the game is searched for it. So is the first game of a name
only, where it does not have what the next one has. -/
theorem explicit_search_strays :
    (told ((twinLocator.setActive moddedSets).locateAnimationIn twinHost "walk" "game")).map
        AnimationContents.chunk = some ⟨7, .bits, [0xaa]⟩ ∧
      (told ((twinLocator.setActive (named moddedSets "game")).locateAnimation twinHost "walk")).map
        AnimationContents.chunk = some ⟨7, .bits, [0xbb]⟩ ∧
      (told ((twinLocator.setActive (gameIn "none" ++ gameIn "b")).locateAnimationIn twinHost "walk"
        "game")).map AnimationContents.chunk = none ∧
      (told ((twinLocator.setActive (named (gameIn "none" ++ gameIn "b") "game")).locateAnimation
        twinHost "walk")).map AnimationContents.chunk = some ⟨7, .bits, [0xbb]⟩ := by
  decide +kernel

end Locator
end LayeredAssets
