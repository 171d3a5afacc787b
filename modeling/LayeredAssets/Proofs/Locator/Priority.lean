import LayeredAssets.Proofs.Locator.Provenance

namespace LayeredAssets

def Answer.isFound : Answer → Bool
  | animation found => found.isSome
  | path found => found.isSome
  | camera found => found.isSome
  | bank found => found.isSome
  | effect found => found.isSome
  | music found => found.isSome
  | video found => found.isSome

namespace Verdict

variable {α β : Type} {appraise : β → Verdict α} {candidates more : List β}

/-- Once something is found, the candidates behind it do not matter. -/
theorem pick_of_prefix (h : (pick appraise candidates).isSome = true)
    (hp : candidates <+: more) : pick appraise more = pick appraise candidates := by
  obtain ⟨rest, rfl⟩ := hp
  induction candidates with
  | nil => cases h
  | cons candidate candidates ih =>
    rw [pick] at h
    rw [List.cons_append, pick, pick]
    cases hc : appraise candidate with
    | passOver =>
      rw [hc] at h
      exact ih h
    | settle found => rfl
    | refuse => rfl

end Verdict

namespace Locator

/-- The same locator with more data sets behind its own. -/
def backed (l : Locator) (lower : List ActiveSet) : Locator := l.setActive (l.active ++ lower)

theorem flatMap_prefix {α β : Type} {xs ys : List α} (h : xs <+: ys) (f : α → List β) :
    xs.flatMap f <+: ys.flatMap f := by
  obtain ⟨rest, rfl⟩ := h
  exact ⟨rest.flatMap f, List.flatMap_append.symm⟩

section
variable (l : Locator) (lower : List ActiveSet)

theorem builtIn_prefix : l.builtIn <+: (l.backed lower).builtIn :=
  (List.prefix_append l.active lower).filter _

theorem keepers_prefix (file : String) :
    l.keepers l.builtIn file <+: (l.backed lower).keepers (l.backed lower).builtIn file :=
  flatMap_prefix (l.builtIn_prefix lower) _

theorem pathCandidates_prefix (mapping : PathMapping) :
    l.pathCandidates mapping <+: (l.backed lower).pathCandidates mapping :=
  flatMap_prefix (l.builtIn_prefix lower) _

theorem bankCandidates_prefix (name : String) :
    l.bankCandidates name <+: (l.backed lower).bankCandidates name :=
  flatMap_prefix (l.builtIn_prefix lower) _

theorem videoCandidates_prefix (mapping : VideoMapping) :
    l.videoCandidates mapping <+: (l.backed lower).videoCandidates mapping :=
  flatMap_prefix (l.builtIn_prefix lower) _

end

variable {l : Locator} {host : Host} {name : String} (lower : List ActiveSet)

theorem map_backed : (l.backed lower).map = l.map := rfl

theorem uncachedAnimation_backed (h : (l.uncachedAnimation host name).isSome = true) :
    (l.backed lower).uncachedAnimation host name = l.uncachedAnimation host name := by
  unfold uncachedAnimation at h ⊢
  rw [map_backed]
  cases hm : l.map.animation? name with
  | none => rfl
  | some mapping =>
    rw [hm] at h
    exact Verdict.pick_of_prefix h (l.keepers_prefix lower mapping.file)

theorem uncachedAnimationIn_backed {dataSet : String}
    (h : (l.uncachedAnimationIn host name dataSet).isSome = true) :
    (l.backed lower).uncachedAnimationIn host name dataSet =
      l.uncachedAnimationIn host name dataSet := by
  unfold uncachedAnimationIn at h ⊢
  cases hs : l.active.find? (fun s => s.name == dataSet) with
  | none =>
    rw [hs] at h
    cases h
  | some s =>
    have hs' : (l.backed lower).active.find? (fun s => s.name == dataSet) = some s := by
      rw [backed, setActive, List.find?_append, hs, Option.some_or]
    rw [hs', map_backed]
    rfl

theorem uncachedPath_backed (h : (l.uncachedPath host name).isSome = true) :
    (l.backed lower).uncachedPath host name = l.uncachedPath host name := by
  unfold uncachedPath at h ⊢
  rw [map_backed]
  cases hm : l.map.path? name with
  | none => rfl
  | some mapping =>
    rw [hm] at h
    exact Verdict.pick_of_prefix h (l.pathCandidates_prefix lower mapping)

theorem uncachedBank_backed (h : (l.uncachedBank host name).isSome = true) :
    (l.backed lower).uncachedBank host name = l.uncachedBank host name :=
  Verdict.pick_of_prefix h (l.bankCandidates_prefix lower name)

theorem uncachedVideo_backed (h : (l.uncachedVideo host name).isSome = true) :
    (l.backed lower).uncachedVideo host name = l.uncachedVideo host name := by
  unfold uncachedVideo at h ⊢
  rw [map_backed]
  cases hm : l.map.video? name with
  | none => rfl
  | some mapping =>
    rw [hm] at h
    exact Verdict.pick_of_prefix h (l.videoCandidates_prefix lower mapping)

theorem uncachedEffect_backed (h : (l.uncachedEffect host name).isSome = true) :
    (l.backed lower).uncachedEffect host name = l.uncachedEffect host name := by
  unfold uncachedEffect at h ⊢
  rw [map_backed]
  cases hm : l.map.effect? name with
  | none => rfl
  | some mapping =>
    rw [hm] at h
    dsimp only at h ⊢
    split at h
    · next hany =>
      obtain ⟨s, hs, hn⟩ := List.any_eq_true.mp hany
      have hany' : (l.backed lower).builtIn.any (fun s => s.name == mapping.dataSet) = true :=
        List.any_eq_true.mpr ⟨s, (l.builtIn_prefix lower).subset hs, hn⟩
      rw [if_pos hany, if_pos hany', uncachedBank_backed lower (by simpa using h)]
    · cases h

/-- Music that settles a search has its bank. -/
theorem uncachedBank_of_music {mapping : MusicMapping} {s : ActiveSet} {found : Music}
    (h : l.appraiseMusic host name mapping s = .settle found) :
    (l.uncachedBank host mapping.bank).isSome = true := by
  unfold appraiseMusic at h
  cases hb : l.uncachedBank host mapping.bank with
  | some bank => rfl
  | none =>
    rw [hb] at h
    split at h
    · cases h
    · split at h
      · cases h
      · cases h

theorem uncachedMusic_backed (h : (l.uncachedMusic host name).isSome = true) :
    (l.backed lower).uncachedMusic host name = l.uncachedMusic host name := by
  unfold uncachedMusic at h ⊢
  rw [map_backed]
  cases hm : l.map.music? name with
  | none => rfl
  | some mapping =>
    rw [hm] at h
    dsimp only at h ⊢
    -- The bank is looked for among all data sets, but it has been found among the first ones.
    obtain ⟨found, hfound⟩ := Option.isSome_iff_exists.mp h
    obtain ⟨s, _, hs⟩ := Verdict.pick_eq_some hfound
    have hsame : (l.backed lower).appraiseMusic host name mapping =
        l.appraiseMusic host name mapping := by
      funext s
      unfold appraiseMusic
      rw [uncachedBank_backed lower (uncachedBank_of_music hs)]
      rfl
    rw [hsame]
    exact Verdict.pick_of_prefix h ((l.builtIn_prefix lower).filter _)

theorem uncached_backed {query : Query} (hcamera : ∀ name, query ≠ .camera name)
    (h : (l.uncached host query).isFound = true) :
    (l.backed lower).uncached host query = l.uncached host query := by
  cases query with
  | animation name => exact congrArg Answer.animation (uncachedAnimation_backed lower h)
  | animationIn name dataSet => exact congrArg Answer.animation (uncachedAnimationIn_backed lower h)
  | path name => exact congrArg Answer.path (uncachedPath_backed lower h)
  | camera name => exact absurd rfl (hcamera name)
  | bank name => exact congrArg Answer.bank (uncachedBank_backed lower h)
  | effect name => exact congrArg Answer.effect (uncachedEffect_backed lower h)
  | music name => exact congrArg Answer.music (uncachedMusic_backed lower h)
  | video name => exact congrArg Answer.video (uncachedVideo_backed lower h)

/-- What is found stays as it is when more data sets become active behind those that it was found
in. A camera is another matter: a delta that was passed over may find a camera to add to. -/
theorem lower_sets_leave_found (loader : String → Stream → Except Fault Archive)
    (map : ResourceMap) (table : PathTable) (gameFiles : Option Backend) (host : Host)
    (upper lower : List ActiveSet) (distinct : ((upper ++ lower).map ActiveSet.name).Nodup)
    (query : Query) (notCamera : ∀ name, query ≠ .camera name)
    (found : (((make loader map table gameFiles).setActive upper).ask host query).2.isFound =
      true) :
    (((make loader map table gameFiles).setActive (upper ++ lower)).ask host query).2 =
      (((make loader map table gameFiles).setActive upper).ask host query).2 := by
  have hd : (upper.map ActiveSet.name).Nodup :=
    distinct.sublist ((List.sublist_append_left upper lower).map _)
  have hupper : Serves upper ((make loader map table gameFiles).setActive upper) host
      ((make loader map table gameFiles).setActive upper) := .fresh hd rfl rfl
  have hboth : Serves (upper ++ lower)
      ((make loader map table gameFiles).setActive (upper ++ lower)) host
      ((make loader map table gameFiles).setActive (upper ++ lower)) := .fresh distinct rfl rfl
  rw [(hupper.ask query).2] at found ⊢
  rw [(hboth.ask query).2]
  exact uncached_backed lower notCamera found

/-- The song of the game, whose bank another data set has as well. -/
def songMap : ResourceMap :=
  ["more", "game"].foldl
    (fun map dataSet =>
      (map.addBank ⟨"band", dataSet, "R1.LVL", "BAND.VH", "BAND.VB"⟩).addHolding dataSet "BAND.VH"
        ⟨"R1.LVL", true, false, false⟩)
    (ResourceMap.empty.addMusic ⟨"song", "game", "R1.LVL", "SONG.BSQ", 0, "band"⟩)

def songArchive (bytes : Bytes) : Archive :=
  .ofFiles [("SONG.BSQ", [⟨1, .bits, bytes⟩]), ("BAND.VH", [⟨2, .bits, bytes⟩]),
    ("BAND.VB", [⟨3, .bits, bytes⟩])]

def songLoader : String → Stream → Except Fault Archive :=
  Archive.drained fun _ bytes => .ok (songArchive bytes)

def songLocator (active : List ActiveSet) : Locator :=
  (make songLoader songMap ⟨.empty, .empty⟩ none).setActive active

def moreIn (root : String) : List ActiveSet := [⟨"more", false, .folder root⟩]

/-- The sequence and its bank, all from the game. -/
def songTaken : List Taken :=
  [1, 2, 3].map fun id => ⟨"game", "R1.LVL", ⟨id, .bits, [0xaa]⟩⟩

theorem lower_sets_leave_found_song :
    ((gameIn "a" ++ moreIn "b").map ActiveSet.name).Nodup ∧
      ((songLocator (gameIn "a")).ask twinHost (.music "song")).2.taken = songTaken ∧
      ((songLocator (gameIn "a" ++ moreIn "b")).ask twinHost (.music "song")).2.taken =
        songTaken := by
  have hd : ((gameIn "a" ++ moreIn "b").map ActiveSet.name).Nodup := by decide
  have hfound : ((songLocator (gameIn "a")).ask twinHost (.music "song")).2.isFound = true := by
    decide +kernel
  have htaken : ((songLocator (gameIn "a")).ask twinHost (.music "song")).2.taken = songTaken := by
    decide +kernel
  have hsame := lower_sets_leave_found songLoader songMap ⟨.empty, .empty⟩ none twinHost
    (gameIn "a") (moreIn "b") hd (.music "song") (by rintro name ⟨⟩) hfound
  refine ⟨hd, htaken, ?_⟩
  rw [← htaken]
  exact congrArg Answer.taken hsame

end Locator
end LayeredAssets
