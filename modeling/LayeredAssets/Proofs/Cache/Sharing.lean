import LayeredAssets.Proofs.Cache.Moments
import LayeredAssets.Proofs.Cache.Runs

namespace LayeredAssets

namespace Action

mutual

/-- Nothing is put under a key but by a construction, and every key has a kind of its own, also in
constructions and farewells. -/
def Shares (kindOf : CacheKey → Kind) : Action → Prop
  | add _ _ _ => False
  | get key content construction _ farewell =>
    content.kind = kindOf key ∧ AllShare kindOf construction ∧ AllShare kindOf farewell
  | find _ _ | remove _ | share _ | drop _ | observe _ _ => True

def AllShare (kindOf : CacheKey → Kind) : List Action → Prop
  | [] => True
  | action :: rest => action.Shares kindOf ∧ AllShare kindOf rest

end

theorem allShare_iff {kindOf : CacheKey → Kind} {actions : List Action} :
    AllShare kindOf actions ↔ ∀ action ∈ actions, action.Shares kindOf := by
  induction actions with
  | nil => simp [AllShare]
  | cons action rest ih => simp [AllShare, ih]

end Action

namespace Cache

/-- Every handle refers to what the slot of its key names, and that is of the kind of its key. -/
structure Sole (kindOf : CacheKey → Kind) (c : Cache) : Prop where
  named : ∀ {id h}, c.handles.get? id = some h → c.slots.get? h.key = some h.value
  kinds : ∀ {id h value}, c.handles.get? id = some h → c.values.get? h.value = some value →
    value.content.kind = kindOf h.key

theorem letGo_handles (c : Cache) (handle : Handle) (id : Nat) :
    (c.letGo handle id).1.handles = c.handles.erase id := by
  unfold letGo
  dsimp only
  split
  · rfl
  · split <;> rfl

theorem letGo_slots (c : Cache) (handle : Handle) (id : Nat) :
    (c.letGo handle id).1.slots = c.slots := by
  unfold letGo
  dsimp only
  split
  · rfl
  · split <;> rfl

/-- A slot names a value under the key of its handles only, since it was registered once. -/
theorem Accounted.key_of_slot {c : Cache} {owed : CacheKey → Prop}
    {registered : List Registration} (h : Accounted c owed registered) {key : CacheKey} {id : Nat}
    {handle : Handle} (hg : c.handles.get? id = some handle)
    (hs : c.slots.get? key = some handle.value) : handle.key = key := by
  obtain ⟨r, hr, hv⟩ := h.slot_latest hs
  obtain ⟨hm, hk⟩ := latest?_mem hr
  obtain ⟨r', hm', hk', hv', _⟩ := h.handle_live hg
  obtain rfl := h.registration_eq hm' hm (hv'.trans hv.symm)
  exact hk'.symm.trans hk

namespace Sole

variable {kindOf : CacheKey → Kind} {c : Cache} {owed : CacheKey → Prop}
  {registered : List Registration}

theorem empty : Sole kindOf Cache.empty where
  named := by intro id h hg; cases hg
  kinds := by intro id h value hg; cases hg

/-- What is held under a key can be found there. -/
theorem liveAs? (hs : Sole kindOf c) (h : Accounted c owed registered) {id : Nat}
    {handle : Handle} (hg : c.handles.get? id = some handle) {kind : Kind}
    (hkind : kind = kindOf handle.key) :
    ∃ v, c.liveAs? handle.key kind = some (handle.value, v) := by
  obtain ⟨_, _, _, _, ⟨⟨kind', v⟩, farewell⟩, hval, _⟩ := h.handle_live hg
  obtain rfl : kind' = kind := (hs.kinds hg hval).trans hkind.symm
  have hv : Content.as? ⟨kind', v⟩ kind' = some v := Content.as?_eq_some_iff.mpr rfl
  exact ⟨v, by simp [Cache.liveAs?, live?, hs.named hg, hval, hv]⟩

/-- Where nothing of its kind lives, nobody has a handle. -/
theorem key_ne_of_none (hs : Sole kindOf c) (h : Accounted c owed registered) {key : CacheKey}
    {kind : Kind} (hkind : kind = kindOf key) (hl : c.liveAs? key kind = none) {id : Nat}
    {handle : Handle} (hg : c.handles.get? id = some handle) : handle.key ≠ key := by
  intro he
  obtain rfl := he
  obtain ⟨v, hlive⟩ := hs.liveAs? h hg hkind
  rw [hl] at hlive
  cases hlive

/-- A live value is of the kind of the key whose slot names it. -/
theorem kind_of_slot (hs : Sole kindOf c) (h : Accounted c owed registered) {key : CacheKey}
    {id : Nat} {value : CachedValue} (hslot : c.slots.get? key = some id)
    (hval : c.values.get? id = some value) : value.content.kind = kindOf key := by
  obtain ⟨i, handle, hg, rfl⟩ := h.value_held hval
  rw [hs.kinds hg hval, h.key_of_slot hg hslot]

theorem purge (hs : Sole kindOf c) (h : Accounted c owed registered) (key : CacheKey) :
    Sole kindOf (c.purge key) where
  named := by
    intro id handle hg
    rw [purge_handles] at hg
    rcases purge_slots_get? c key handle.key with he | ⟨rfl, _⟩
    · rw [he]
      exact hs.named hg
    · -- The slot names a value that is held, so it is not dead.
      obtain ⟨_, _, _, _, value, hval, _⟩ := h.handle_live hg
      have hslot := hs.named hg
      have hlive : c.values.contains handle.value = true := by rw [Table.contains, hval]; rfl
      simp only [Cache.purge, hslot, hlive, ↓reduceIte]
  kinds := by
    intro id handle value hg hval
    rw [purge_handles] at hg
    rw [purge_values] at hval
    exact hs.kinds hg hval

theorem hold (hs : Sole kindOf c) {key : CacheKey} {id : Nat}
    (hslot : c.slots.get? key = some id)
    (hkind : ∀ value, c.values.get? id = some value → value.content.kind = kindOf key) :
    Sole kindOf (c.hold key id).1 where
  named := by
    intro i handle hg
    simp only [Cache.hold, Table.get?_set] at hg ⊢
    split at hg
    · obtain rfl := Option.some.inj hg
      exact hslot
    · exact hs.named hg
  kinds := by
    intro i handle value hg hval
    simp only [Cache.hold, Table.get?_set] at hg hval
    split at hg
    · obtain rfl := Option.some.inj hg
      exact hkind value hval
    · exact hs.kinds hg hval

/-- A new value may take a slot that nobody has a handle for. -/
theorem register (hs : Sole kindOf c) (h : Accounted c owed registered) {key : CacheKey}
    {content : Content} (farewell : List Action) (hkind : content.kind = kindOf key)
    (hnone : ∀ {id handle}, c.handles.get? id = some handle → handle.key ≠ key) :
    Sole kindOf (c.register key content farewell).1 where
  named := by
    intro i handle hg
    simp only [Cache.register, Cache.hold, Table.get?_set] at hg ⊢
    split at hg
    · obtain rfl := Option.some.inj hg
      exact if_pos rfl
    · rw [if_neg (hnone hg).symm]
      exact hs.named hg
  kinds := by
    intro i handle value hg hval
    simp only [Cache.register, Cache.hold, Table.get?_set] at hg hval
    split at hg
    · obtain rfl := Option.some.inj hg
      rw [if_pos rfl] at hval
      obtain rfl := Option.some.inj hval
      exact hkind
    · have := h.value_lt ⟨i, handle, hg, rfl⟩
      rw [if_neg (by omega)] at hval
      exact hs.kinds hg hval

theorem find (hs : Sole kindOf c) (h : Accounted c owed registered) (key : CacheKey)
    (kind : Kind) : Sole kindOf (c.find key kind).1 := by
  cases hl : c.liveAs? key kind with
  | none =>
    rw [find_of_none hl]
    exact hs.purge h key
  | some live =>
    obtain ⟨id, v⟩ := live
    obtain ⟨_, hslot, _⟩ := liveAs?_slot hl
    rw [find_of_live hl]
    exact hs.hold hslot fun _ hval => hs.kind_of_slot h hslot hval

/-- A construction that found nothing in the end has found that nobody has a handle. -/
theorem settle (hs : Sole kindOf c) (h : Accounted c owed registered) {key : CacheKey}
    {content : Content} (farewell : List Action) (hkind : content.kind = kindOf key) :
    Sole kindOf (c.settle key content farewell).1 := by
  unfold Cache.settle
  cases hl : c.liveAs? key content.kind with
  | none => exact hs.register h farewell hkind (hs.key_ne_of_none h hkind hl)
  | some live =>
    obtain ⟨id, v⟩ := live
    obtain ⟨_, hslot, _⟩ := liveAs?_slot hl
    exact hs.hold hslot fun _ hval => hs.kind_of_slot h hslot hval

theorem share (hs : Sole kindOf c) (id : Nat) : Sole kindOf (c.share id).1 := by
  unfold Cache.share
  split
  · next handle hg => exact hs.hold (hs.named hg) fun _ hval => hs.kinds hg hval
  · exact hs

theorem letGo (hs : Sole kindOf c) (handle : Handle) (id : Nat) :
    Sole kindOf (c.letGo handle id).1 where
  named := by
    intro i h hg
    rw [letGo_handles] at hg
    rw [letGo_slots]
    exact hs.named (Table.get?_erase_eq_some_iff.mp hg).2
  kinds := by
    intro i h value hg hval
    rw [letGo_handles] at hg
    exact hs.kinds (Table.get?_erase_eq_some_iff.mp hg).2 (letGo_values hval)

theorem observe (hs : Sole kindOf c) (h : Accounted c owed registered) (key : CacheKey)
    (kind : Kind) : Sole kindOf (c.observe key kind) :=
  ⟨(hs.purge h key).named, (hs.purge h key).kinds⟩

/-- Two handles with one key refer to one value. -/
theorem sameValue (hs : Sole kindOf c) {a b : Nat} {key : CacheKey} (ha : c.key? a = some key)
    (hb : c.key? b = some key) : c.sameValue a b = true := by
  obtain ⟨handle, hga, rfl⟩ := Option.map_eq_some_iff.mp ha
  obtain ⟨handle', hgb, hk⟩ := Option.map_eq_some_iff.mp hb
  have hslot := hs.named hgb
  rw [hk, hs.named hga] at hslot
  simp only [Cache.sameValue, hga, hgb, beq_iff_eq]
  exact Option.some.inj hslot

end Sole
end Cache

namespace Moment
open Cache

/-- The rest of an operation shares like the whole of it. -/
def TaskShares (kindOf : CacheKey → Kind) : Task → Prop
  | .act action => action.Shares kindOf
  | .settle key content farewell =>
    content.kind = kindOf key ∧ Action.AllShare kindOf farewell
  | .purge _ => True

/-- A session that only shares: its handles, what its values do as they go, and what is due. -/
structure Sharing (kindOf : CacheKey → Kind) (c : Cache) (due : List Task) : Prop where
  sole : Sole kindOf c
  farewells : ∀ {id value}, c.values.get? id = some value → Action.AllShare kindOf value.farewell
  due : ∀ task ∈ due, TaskShares kindOf task

section
variable {kindOf : CacheKey → Kind} {c : Cache}

/-- What leaves the values as they are leaves their farewells. -/
theorem Sharing.of_values {due tasks : List Task} (hs : Sharing kindOf c due) {c' : Cache}
    (hsole : Sole kindOf c') (hvalues : c'.values = c.values)
    (ht : ∀ task ∈ tasks, TaskShares kindOf task) : Sharing kindOf c' tasks :=
  ⟨hsole, fun hv => hs.farewells (hvalues ▸ hv), ht⟩

theorem taskShares_map {actions : List Action} (h : Action.AllShare kindOf actions) :
    ∀ task ∈ actions.map Task.act, TaskShares kindOf task := by
  intro task hm
  obtain ⟨action, ha, rfl⟩ := List.mem_map.mp hm
  exact Action.allShare_iff.mp h action ha

theorem register_farewells {key : CacheKey} {content : Content} {farewell : List Action}
    (hc : ∀ {id value}, c.values.get? id = some value → Action.AllShare kindOf value.farewell)
    (hf : Action.AllShare kindOf farewell) {id : Nat} {value : CachedValue}
    (hv : (c.register key content farewell).1.values.get? id = some value) :
    Action.AllShare kindOf value.farewell := by
  simp only [Cache.register, Cache.hold, Table.get?_set] at hv
  split at hv
  · obtain rfl := Option.some.inj hv
    exact hf
  · exact hc hv

theorem find_values (c : Cache) (key : CacheKey) (kind : Kind) :
    (c.find key kind).1.values = c.values := by
  unfold Cache.find
  split
  · rfl
  · exact purge_values c key

theorem share_values (c : Cache) (id : Nat) : (c.share id).1.values = c.values := by
  unfold Cache.share
  split <;> rfl

theorem letGo_farewell_shares
    (hc : ∀ {id value}, c.values.get? id = some value → Action.AllShare kindOf value.farewell)
    (handle : Handle) (id : Nat) : Action.AllShare kindOf (c.letGo handle id).2 := by
  unfold Cache.letGo
  dsimp only
  split
  · trivial
  · split
    · next value hv => exact hc hv
    · trivial

end

/-- One step of a session that shares leaves one that shares. -/
theorem perform_sharing {kindOf : CacheKey → Kind} {c : Cache} {task : Task} {due : List Task}
    {registered : List Registration} (h : Accounted c (Owes (task :: due)) registered)
    (hs : Sharing kindOf c (task :: due)) :
    Sharing kindOf (c.perform task).1 ((c.perform task).2 ++ due) := by
  obtain ⟨ht, hdue⟩ := List.forall_mem_cons.mp hs.due
  -- It is enough to look at the steps that come in front of those that were due already.
  suffices hnew : Sharing kindOf (c.perform task).1 (c.perform task).2 from
    ⟨hnew.sole, hnew.farewells, fun t hm => (List.mem_append.mp hm).elim (hnew.due t) (hdue t)⟩
  cases task with
  | act action =>
    cases action with
    | add key content farewell => exact ht.elim
    | find key kind =>
      exact hs.of_values (hs.sole.find h key kind) (find_values c key kind)
        (List.forall_mem_nil _)
    | get key content construction succeeds farewell =>
      obtain ⟨hkind, hconstruction, hfarewell⟩ := ht
      have hsole := hs.sole.find h key content.kind
      have hvalues := find_values c key content.kind
      unfold Cache.perform
      dsimp only
      split
      · next hc =>
        rw [hc] at hsole hvalues
        exact hs.of_values hsole hvalues (List.forall_mem_nil _)
      · next hc =>
        rw [hc] at hsole hvalues
        apply hs.of_values hsole hvalues
        intro t hm
        rcases List.mem_append.mp hm with hm | hm
        · exact taskShares_map hconstruction t hm
        · split at hm
          · rw [List.mem_singleton.mp hm]
            exact ⟨hkind, hfarewell⟩
          · cases hm
    | remove key =>
      exact hs.of_values (hs.sole.purge h key) (purge_values c key) (List.forall_mem_nil _)
    | share id =>
      exact hs.of_values (hs.sole.share id) (share_values c id) (List.forall_mem_nil _)
    | drop id =>
      unfold Cache.perform
      dsimp only
      split
      · exact hs.of_values hs.sole rfl (List.forall_mem_nil _)
      · next handle _ =>
        refine ⟨hs.sole.letGo handle id, fun hv => hs.farewells (letGo_values hv), ?_⟩
        intro t hm
        rcases List.mem_append.mp hm with hm | hm
        · exact taskShares_map (letGo_farewell_shares hs.farewells handle id) t hm
        · rw [List.mem_singleton.mp hm]
          trivial
    | observe key kind =>
      exact hs.of_values (hs.sole.observe h key kind) (purge_values c key)
        (List.forall_mem_nil _)
  | settle key content farewell =>
    obtain ⟨hkind, hfarewell⟩ := ht
    refine ⟨hs.sole.settle h farewell hkind, ?_, ?_⟩
    · intro id value hv
      simp only [Cache.perform, Cache.settle] at hv
      split at hv
      · exact hs.farewells hv
      · exact register_farewells hs.farewells hfarewell hv
    · intro t hm
      simp only [Cache.perform, Cache.settle] at hm
      split at hm
      · exact taskShares_map hfarewell t hm
      · cases hm
  | purge key =>
    exact hs.of_values (hs.sole.purge h key) (purge_values c key) (List.forall_mem_nil _)

theorem leads_sharing {kindOf : CacheKey → Kind} {actions : List Action}
    (ha : Action.AllShare kindOf actions) {m : Moment} (hm : Leads (start actions) m) :
    Sharing kindOf m.cache m.due := by
  induction hm with
  | here => exact ⟨.empty, fun hv => (by cases hv), taskShares_map ha⟩
  | step before next ih =>
    have hacc := leads_accounted before
    cases next with
    | perform c task due registered => exact perform_sharing hacc ih

end Moment
end LayeredAssets
