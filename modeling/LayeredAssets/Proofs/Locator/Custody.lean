import LayeredAssets.Proofs.Locator.Deeds

namespace LayeredAssets

/-- A locator and the handles that its callers hold, with the keys of what they got them for. -/
structure Custody where
  locator : Locator
  held : List (Nat × CacheKey)

namespace Custody
open Cache Locator

/-- What is found comes to what is held, a copy has the key of its original, and what is let go is
held no more. -/
def heldAfter (c : Custody) (host : Host) : Turn → List (Nat × CacheKey)
  | .move (.ask query) => c.held ++ c.locator.given host query
  | .move (.share handle) =>
    c.held ++ (c.locator.cache.share handle).2.toList.flatMap fun copy =>
      (c.held.filter (fun entry => entry.1 = handle)).map fun entry => (copy, entry.2)
  | .move (.release handle) => c.held.filter (fun entry => entry.1 ≠ handle)
  | .move (.releaseAnimation animation) =>
    (c.held.filter (fun entry => entry.1 ≠ animation.archive.handle)).filter
      (fun entry => entry.1 ≠ animation.chunk.handle)
  | .activate _ | .prioritise _ => c.held

def turn (host : Host) (c : Custody) (turn : Turn) : Custody :=
  ⟨(c.locator.turn host turn).1, c.heldAfter host turn⟩

/-- The custody of a locator that nobody has got anything from before these turns. -/
def after (host : Host) (l : Locator) (turns : List Turn) : Custody :=
  turns.foldl (Custody.turn host) ⟨l, []⟩

/-- The handles of the cache are those that callers hold. -/
structure Tallies (c : Custody) : Prop where
  orderly : c.locator.cache.Orderly
  key?_iff : ∀ id key, c.locator.cache.key? id = some key ↔ (id, key) ∈ c.held

theorem mem_dropped (held : List (Nat × CacheKey)) (handle id : Nat) (key : CacheKey) :
    (id, key) ∈ held.filter (fun entry => entry.1 ≠ handle) ↔
      (id, key) ∈ held ∧ handle ≠ id := by
  simp [List.mem_filter, ne_comm]

namespace Tallies

variable {c : Custody} {host : Host}

theorem start {l : Locator} (h : l.cache = Cache.empty) : Tallies ⟨l, []⟩ where
  orderly := h ▸ .empty
  key?_iff := by
    intro id key
    simp [h, key?, Cache.empty, Table.get?, Table.empty, Table.getIn]

theorem give (h : Tallies c) {l : Locator} {given : List (Nat × CacheKey)}
    (ho : l.cache.Orderly) (hg : c.locator.cache.Gives given l.cache) :
    Tallies ⟨l, c.held ++ given⟩ where
  orderly := ho
  key?_iff := by
    intro id key
    rw [hg.key?_iff, h.key?_iff, List.mem_append]
    exact Or.comm

theorem release (h : Tallies c) (handle : Nat) :
    Tallies ⟨c.locator.release handle, c.held.filter (fun entry => entry.1 ≠ handle)⟩ where
  orderly := h.orderly.drop handle
  key?_iff := by
    intro id key
    rw [mem_dropped, ← h.key?_iff]
    change (c.locator.cache.drop handle).key? id = some key ↔ _
    rw [h.orderly.key?_drop]
    split
    · next hi => simp [hi]
    · next hi => simp [hi]

/-- A copy has the key of its original, whether the cache says so or the list of what is held. -/
theorem share (h : Tallies c) (handle : Nat) :
    Tallies ⟨{ c.locator with cache := (c.locator.cache.share handle).1 },
      c.heldAfter host (.move (.share handle))⟩ := by
  refine h.give (h.orderly.share handle) ((h.orderly.share_gives handle).congr ?_)
  intro entry
  obtain ⟨id, key⟩ := entry
  simp [h.key?_iff]

/-- Another list of data sets leaves the cache alone. -/
theorem activate (h : Tallies c) {l : Locator} (hc : l.cache = c.locator.cache) :
    Tallies ⟨l, c.held⟩ where
  orderly := hc ▸ h.orderly
  key?_iff := by
    rw [hc]
    exact h.key?_iff

theorem turn (h : Tallies c) (turn : Turn) : Tallies (c.turn host turn) := by
  cases turn with
  | move move =>
    cases move with
    | ask query =>
      have hl := ask_leaves host c.locator query
      exact h.give (hl.reaches.orderly h.orderly) (hl.gives h.orderly)
    | share handle => exact h.share handle
    | release handle => exact h.release handle
    | releaseAnimation animation =>
      exact (h.release animation.archive.handle).release animation.chunk.handle
  | activate active => exact h.activate rfl
  | prioritise priorities =>
    refine h.activate ?_
    simp only [Locator.turn, setPriorities]
    cases c.locator.table.activate host priorities with
    | error fault => rfl
    | ok active => rfl

theorem after (h : Tallies c) (turns : List Turn) :
    Tallies (turns.foldl (Custody.turn host) c) := by
  induction turns generalizing c with
  | nil => exact h
  | cons turn rest ih => exact ih (h.turn turn)

theorem mem_keys_iff (h : Tallies c) (key : CacheKey) :
    key ∈ c.locator.cache.slots.keys ↔ key ∈ c.held.map Prod.snd := by
  rw [h.orderly.mem_keys_iff, List.mem_map]
  constructor
  · intro hk
    obtain ⟨id, hk⟩ := hk
    exact ⟨(id, key), (h.key?_iff id key).mp hk, rfl⟩
  · intro hm
    obtain ⟨⟨id, _⟩, hm, rfl⟩ := hm
    exact ⟨id, (h.key?_iff id _).mpr hm⟩

/-- A key has one slot, however many hold what it names. -/
theorem size_eq (h : Tallies c) :
    c.locator.cache.size = (c.held.map Prod.snd).toFinset.card := by
  obtain ⟨registered, hacc, _⟩ := h.orderly.keeps.accounted
  have hkeys : c.locator.cache.slots.keys.toFinset = (c.held.map Prod.snd).toFinset := by
    ext key
    rw [List.mem_toFinset, List.mem_toFinset, h.mem_keys_iff]
  rw [← hkeys, List.toFinset_card_of_nodup hacc.slots_distinct]
  simp [Cache.size, Table.size, Table.keys]

end Tallies

/-- Only an animation has handles in it. -/
theorem given_eq_nil {l : Locator} {host : Host} {query : Query}
    (h : ∀ found, (l.ask host query).2 ≠ .animation (some found)) : l.given host query = [] := by
  cases query with
  | animation name =>
    simp only [ask] at h
    simp only [given]
    cases hf : (l.locateAnimation host name).2 with
    | none => rfl
    | some animation => exact absurd (by rw [hf]; rfl) (h _)
  | animationIn name dataSet =>
    simp only [ask] at h
    simp only [given]
    cases hf : (l.locateAnimationIn host name dataSet).2 with
    | none => rfl
    | some animation => exact absurd (by rw [hf]; rfl) (h _)
  | path | camera | bank | effect | music | video => rfl

/-- After any turns the cache has the handles that callers hold, and no others, and so it has just
the keys of those. A search that finds no animation leaves the keys as they were, whatever else it
finds, and once nothing is held any more there are none. -/
theorem cached_keys_are_held (loader : String → Stream → Except Fault Archive) (map : ResourceMap)
    (table : PathTable) (gameFiles : Option Backend) (host : Host) (turns : List Turn) :
    let c := after host (make loader map table gameFiles) turns
    (∀ id key, c.locator.cache.key? id = some key ↔ (id, key) ∈ c.held) ∧
      (∀ key, key ∈ c.locator.cache.slots.keys ↔ key ∈ c.held.map Prod.snd) ∧
      c.locator.cache.size = (c.held.map Prod.snd).toFinset.card ∧
      (∀ query, (∀ found, (c.locator.ask host query).2 ≠ .animation (some found)) →
        ∀ key, key ∈ (c.locator.ask host query).1.cache.slots.keys ↔
          key ∈ c.locator.cache.slots.keys) ∧
      (c.held = [] → c.locator.cache.size = 0) := by
  intro c
  have h : Tallies c := (Tallies.start rfl).after turns
  refine ⟨h.key?_iff, h.mem_keys_iff, h.size_eq, ?_, ?_⟩
  · intro query hnone key
    have hl := ask_leaves host c.locator query
    have hasked := h.give (hl.reaches.orderly h.orderly) (hl.gives h.orderly)
    rw [given_eq_nil hnone, List.append_nil] at hasked
    exact (hasked.mem_keys_iff key).trans (h.mem_keys_iff key).symm
  · intro hheld
    rw [h.size_eq, hheld]
    rfl

def walkChunkKey : CacheKey := .ofChunk "game" "R1.LVL" "ABE.BAN" 7

/-- The chunk is held twice and its archive no more when the other folder becomes active. -/
def heldTurns : List Turn :=
  [.activate (gameIn "a"), .move (.ask (.animation "walk")), .move (.share 1),
    .move (.release 0), .activate (gameIn "b")]

def givenBack : List Turn := heldTurns ++ [.move (.release 1), .move (.release 2)]

theorem cached_keys_are_held_twins :
    (after twinHost twinLocator heldTurns).held = [(1, walkChunkKey), (2, walkChunkKey)] ∧
      (after twinHost twinLocator heldTurns).locator.cache.size = 1 ∧
      (∀ key, key ∈ ((after twinHost twinLocator heldTurns).locator.ask twinHost
          (.animation "run")).1.cache.slots.keys ↔
        key ∈ (after twinHost twinLocator heldTurns).locator.cache.slots.keys) ∧
      (after twinHost twinLocator givenBack).held = [] ∧
      (after twinHost twinLocator givenBack).locator.cache.size = 0 := by
  have hheld : (after twinHost twinLocator heldTurns).held =
      [(1, walkChunkKey), (2, walkChunkKey)] := by decide +kernel
  have hback : (after twinHost twinLocator givenBack).held = [] := by decide +kernel
  obtain ⟨_, _, hsize, hasked, _⟩ :=
    cached_keys_are_held walkLoader walkMap ⟨.empty, .empty⟩ none twinHost heldTurns
  obtain ⟨_, _, _, _, hempty⟩ :=
    cached_keys_are_held walkLoader walkMap ⟨.empty, .empty⟩ none twinHost givenBack
  refine ⟨hheld, ?_, hasked (.animation "run") ?_, hback, hempty hback⟩
  · rw [twinLocator, hsize, ← twinLocator, hheld]
    decide
  · intro found hfound
    have hnone : ((after twinHost twinLocator heldTurns).locator.ask twinHost
        (.animation "run")).2.taken = [] := by decide +kernel
    rw [twinLocator] at hnone
    rw [hfound] at hnone
    cases hnone

end Custody
end LayeredAssets
