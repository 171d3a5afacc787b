import LayeredAssets.Proofs.Cache.Sharing

namespace LayeredAssets

/-- What a key stands for. -/
def CacheKey.kind (key : CacheKey) : Kind := if key.chunk.isSome then .chunk else .archive

namespace Cache

/-- A cache at rest that was only shared from. -/
structure Orderly (c : Cache) : Prop where
  keeps : Keeps (fun _ _ => True) c
  sole : Sole CacheKey.kind c

/-- Nothing became of the handles but that those given came in, which nobody had before. -/
structure Gives (c : Cache) (given : List (Nat × CacheKey)) (c' : Cache) : Prop where
  key?_iff : ∀ id key, c'.key? id = some key ↔ (id, key) ∈ given ∨ c.key? id = some key
  fresh : ∀ entry ∈ given, c.key? entry.1 = none

theorem key?_purge (c : Cache) (key : CacheKey) (id : Nat) : (c.purge key).key? id = c.key? id := by
  rw [key?, purge_handles, key?]

theorem key?_hold (c : Cache) (key : CacheKey) (value id : Nat) :
    (c.hold key value).1.key? id = if c.nextHandle = id then some key else c.key? id := by
  simp only [hold, key?, Table.get?_set]
  split <;> rfl

theorem key?_register (c : Cache) (key : CacheKey) (content : Content) (farewell : List Action)
    (id : Nat) : (c.register key content farewell).1.key? id =
      if c.nextHandle = id then some key else c.key? id :=
  key?_hold c key c.nextValue id

namespace Gives

variable {c c' c'' : Cache} {given : List (Nat × CacheKey)}

theorem refl (c : Cache) : Gives c [] c := ⟨by simp, by simp⟩

theorem congr (h : Gives c given c') {same : List (Nat × CacheKey)}
    (hs : ∀ entry, entry ∈ given ↔ entry ∈ same) : Gives c same c' where
  key?_iff := fun id key => (h.key?_iff id key).trans (or_congr_left (hs _))
  fresh := fun entry hm => h.fresh entry ((hs entry).mpr hm)

theorem of_key? (h : ∀ id, c'.key? id = c.key? id) : Gives c [] c' := ⟨by simp [h], by simp⟩

theorem of_next {key : CacheKey} (hfresh : c.key? c.nextHandle = none)
    (h : ∀ id, c'.key? id = if c.nextHandle = id then some key else c.key? id) :
    Gives c [(c.nextHandle, key)] c' where
  key?_iff := by
    intro id k
    rw [h, List.mem_singleton, Prod.mk.injEq]
    split
    · next hi =>
      subst hi
      simp [hfresh, eq_comm]
    · next hi => simp [Ne.symm hi]
  fresh := by simpa using hfresh

theorem trans {more : List (Nat × CacheKey)} (h : Gives c given c') (h' : Gives c' more c'') :
    Gives c (given ++ more) c'' where
  key?_iff := by
    intro id key
    rw [h'.key?_iff, h.key?_iff, List.mem_append, ← or_assoc]
    exact or_congr_left Or.comm
  fresh := by
    intro entry hm
    rcases List.mem_append.mp hm with hm | hm
    · exact h.fresh entry hm
    · have hnone := h'.fresh entry hm
      cases hk : c.key? entry.1 with
      | none => rfl
      | some key =>
        rw [(h.key?_iff entry.1 key).mpr (Or.inr hk)] at hnone
        cases hnone

end Gives

namespace Orderly

variable {c : Cache} {key : CacheKey}

theorem empty : Orderly Cache.empty := ⟨.empty, .empty⟩

theorem key?_next (h : Orderly c) : c.key? c.nextHandle = none := by
  obtain ⟨registered, hacc, _⟩ := h.keeps.accounted
  rw [key?, Option.map_eq_none_iff]
  cases hg : c.handles.get? c.nextHandle with
  | none => rfl
  | some handle => exact absurd (hacc.handle_fresh hg) (Nat.lt_irrefl _)

theorem purge (h : Orderly c) (key : CacheKey) : Orderly (c.purge key) := by
  obtain ⟨registered, hacc, _⟩ := h.keeps.accounted
  exact ⟨h.keeps.purge key, h.sole.purge hacc key⟩

/-- A value is shared or constructed, or the construction fails; then no handle is given. -/
theorem obtain_spec (h : Orderly c) (key : CacheKey) (kind : Kind) (hkind : kind = key.kind)
    {ε : Type} (result : Except ε kind.Value) :
    Orderly (c.obtain key kind (fun c => (c, result)) []).1 ∧
      Gives c ((c.obtain key kind (fun c => (c, result)) []).2.1.toOption.toList.map
        fun held => (held.handle, key)) (c.obtain key kind (fun c => (c, result)) []).1 := by
  obtain ⟨registered, hacc, _⟩ := h.keeps.accounted
  cases hl : c.liveAs? key kind with
  | some live =>
    obtain ⟨id, v⟩ := live
    obtain ⟨_, hslot, _⟩ := liveAs?_slot hl
    rw [obtain_of_live hl]
    refine ⟨⟨h.keeps.hold_live hl, ?_⟩, .of_next h.key?_next (key?_hold c key id)⟩
    exact h.sole.hold hslot fun _ hval => h.sole.kind_of_slot hacc hslot hval
  | none =>
    have hp := h.purge key
    obtain ⟨registered', hacc', _⟩ := hp.keeps.accounted
    have hnone := liveAs?_purge hl
    cases result with
    | error e =>
      rw [obtain_of_error hl rfl]
      exact ⟨hp, .of_key? (key?_purge c key)⟩
    | ok v =>
      rw [obtain_of_ok hl rfl, keep_of_none hnone]
      refine ⟨⟨hp.keeps.register trivial, ?_⟩, ?_⟩
      · exact hp.sole.register hacc' [] hkind (hp.sole.key_ne_of_none hacc' hkind hnone)
      · exact (Gives.of_key? (key?_purge c key)).trans
          (.of_next hp.key?_next (key?_register (c.purge key) key ⟨kind, v⟩ []))

theorem drop (h : Orderly c) (id : Nat) : Orderly (c.drop id) := by
  refine ⟨h.keeps.drop id, ?_⟩
  cases hg : c.handles.get? id with
  | none =>
    rw [drop_of_none hg]
    exact h.sole
  | some handle =>
    obtain ⟨registered, hacc, _⟩ := h.keeps.accounted
    rw [drop_of_some h.keeps.silent hg]
    exact (h.sole.letGo handle id).purge (hacc.letGo hg) handle.key

theorem key?_drop (h : Orderly c) (id i : Nat) :
    (c.drop id).key? i = if id = i then none else c.key? i := by
  cases hg : c.handles.get? id with
  | none =>
    rw [drop_of_none hg]
    split
    · next hi => rw [← hi, key?, hg, Option.map_none]
    · rfl
  | some handle =>
    rw [drop_of_some h.keeps.silent hg, key?_purge, key?, letGo_handles, Table.get?_erase]
    split <;> rfl

theorem share (h : Orderly c) (id : Nat) : Orderly (c.share id).1 :=
  ⟨h.keeps.share id, h.sole.share id⟩

theorem share_gives (h : Orderly c) (id : Nat) :
    Gives c ((c.share id).2.toList.flatMap fun handle => (c.key? id).toList.map (handle, ·))
      (c.share id).1 := by
  unfold Cache.share
  cases hg : c.handles.get? id with
  | none => exact .refl c
  | some handle =>
    simp only [key?, hg]
    exact .of_next h.key?_next (key?_hold c handle.key handle.value)

/-- What was given and is let go again has not been there. -/
theorem drop_gives {c' : Cache} {id : Nat} (h : Orderly c') (hg : Gives c [(id, key)] c') :
    Gives c [] (c'.drop id) where
  key?_iff := by
    intro i k
    have hnone := hg.fresh _ (List.mem_singleton_self _)
    rw [h.key?_drop]
    split
    · next hi =>
      subst hi
      simp [hnone]
    · next hi =>
      rw [hg.key?_iff]
      simp [Ne.symm hi]
  fresh := by simp

/-- A slot is there for just the keys that somebody has a handle for. -/
theorem mem_keys_iff (h : Orderly c) (key : CacheKey) :
    key ∈ c.slots.keys ↔ ∃ id, c.key? id = some key := by
  obtain ⟨registered, hacc, _⟩ := h.keeps.accounted
  rw [Table.mem_keys_iff, Option.isSome_iff_exists]
  constructor
  · intro hs
    obtain ⟨value, hs⟩ := hs
    obtain ⟨id, handle, hg, rfl⟩ := (hacc.dead_owed hs).resolve_right id
    refine ⟨id, ?_⟩
    rw [key?, hg, Option.map_some, hacc.key_of_slot hg hs]
  · intro hk
    obtain ⟨id, hk⟩ := hk
    obtain ⟨handle, hg, rfl⟩ := Option.map_eq_some_iff.mp hk
    exact ⟨handle.value, h.sole.named hg⟩

end Orderly
end Cache
end LayeredAssets
