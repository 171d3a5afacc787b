import LayeredAssets.Cache
import LayeredAssets.Proofs.Table

namespace LayeredAssets

theorem Content.as?_eq_some_iff {content : Content} {kind : Kind} {v : kind.Value} :
    content.as? kind = some v ↔ content = ⟨kind, v⟩ := by
  obtain ⟨kind', v'⟩ := content
  unfold Content.as?
  constructor
  · intro h
    split at h
    · next hk =>
      cases hk
      exact congrArg _ (Option.some.inj h)
    · cases h
  · intro h
    cases h
    exact dif_pos rfl

/-- A value that was put under a key. -/
structure Registration where
  key : CacheKey
  value : Nat
  content : Content

namespace Cache

def HasHandle (c : Cache) (value : Nat) : Prop :=
  ∃ id h, c.handles.get? id = some h ∧ h.value = value

/-- What was put under a key last, if registrations come newest first. -/
def latest? (registered : List Registration) (key : CacheKey) : Option Registration :=
  registered.find? (fun r => r.key == key)

theorem latest?_mem {registered : List Registration} {key : CacheKey} {r : Registration}
    (h : latest? registered key = some r) : r ∈ registered ∧ r.key = key :=
  ⟨List.mem_of_find?_eq_some h, by simpa using List.find?_some h⟩

theorem latest?_cons (r : Registration) (registered : List Registration) (key : CacheKey) :
    latest? (r :: registered) key = if r.key = key then some r else latest? registered key := by
  by_cases h : r.key = key <;> simp [latest?, h]

/-- The account of a cache: every handle refers to a live registered value, every live value has a
handle, and a slot names what was registered last. A slot may name a value without handles only
where its purge is owed. -/
structure Accounted (c : Cache) (owed : CacheKey → Prop) (registered : List Registration) :
    Prop where
  slots_distinct : c.slots.keys.Nodup
  handles_distinct : c.handles.keys.Nodup
  handle_fresh : ∀ {id h}, c.handles.get? id = some h → id < c.nextHandle
  registered_fresh : ∀ r ∈ registered, r.value < c.nextValue
  registered_distinct : (registered.map Registration.value).Nodup
  handle_live : ∀ {id h}, c.handles.get? id = some h → ∃ r ∈ registered, r.key = h.key ∧
    r.value = h.value ∧ ∃ value, c.values.get? h.value = some value ∧ value.content = r.content
  value_held : ∀ {id value}, c.values.get? id = some value → c.HasHandle id
  slot_latest : ∀ {key id}, c.slots.get? key = some id →
    ∃ r, latest? registered key = some r ∧ r.value = id
  latest_slot : ∀ {key r}, latest? registered key = some r → c.HasHandle r.value →
    c.slots.get? key = some r.value
  dead_owed : ∀ {key id}, c.slots.get? key = some id → c.HasHandle id ∨ owed key

/-- No value that was there before is taken up again once it has lost its handles. -/
def Abandons (c c' : Cache) : Prop :=
  ∀ value, value < c.nextValue → c'.HasHandle value → c.HasHandle value

theorem isHeld_iff {c : Cache} (hd : c.handles.keys.Nodup) {value : Nat} :
    c.isHeld value = true ↔ c.HasHandle value := by
  simp only [isHeld, List.any_eq_true, beq_iff_eq, HasHandle]
  constructor
  · rintro ⟨⟨id, h⟩, hm, he⟩
    exact ⟨id, h, (Table.mem_entries_iff hd).mp hm, he⟩
  · rintro ⟨id, h, hg, he⟩
    exact ⟨(id, h), (Table.mem_entries_iff hd).mpr hg, he⟩

section
variable {c : Cache} {key : CacheKey} {kind : Kind} {id : Nat} {v : kind.Value}

theorem liveAs?_slot (hl : c.liveAs? key kind = some (id, v)) :
    ∃ value, c.slots.get? key = some id ∧ c.values.get? id = some value ∧
      value.content.as? kind = some v := by
  simp only [liveAs?, live?, Option.bind_eq_bind, Option.bind_eq_some_iff, Option.pure_def,
    Option.some.injEq, Prod.mk.injEq, Prod.exists] at hl
  obtain ⟨id', value, ⟨id'', hs, value', hval, rfl, rfl⟩, v', hv, rfl, rfl⟩ := hl
  exact ⟨value', hs, hval, hv⟩

theorem find_of_live (hl : c.liveAs? key kind = some (id, v)) :
    c.find key kind = ((c.hold key id).1, some ⟨c.nextHandle, v⟩) := by
  simp only [find, hl, hold]

theorem find_of_none (hl : c.liveAs? key kind = none) :
    c.find key kind = (c.purge key, none) := by
  simp only [find, hl]

theorem purge_handles (c : Cache) (key : CacheKey) : (c.purge key).handles = c.handles := by
  unfold purge
  split
  · split <;> rfl
  · rfl

theorem purge_abandons (c : Cache) (key : CacheKey) : c.Abandons (c.purge key) := by
  intro value _ hv
  rwa [HasHandle, purge_handles] at hv

end

namespace Accounted

variable {c : Cache} {owed : CacheKey → Prop} {registered : List Registration}

theorem empty : Accounted Cache.empty (fun _ => False) [] where
  slots_distinct := List.nodup_nil
  handles_distinct := List.nodup_nil
  handle_fresh := by intro id h hg; cases hg
  registered_fresh := by simp
  registered_distinct := List.nodup_nil
  handle_live := by intro id h hg; cases hg
  value_held := by intro id value hv; cases hv
  slot_latest := by intro key id hs; cases hs
  latest_slot := by intro key r hr; cases hr
  dead_owed := by intro key id hs; cases hs

theorem mono {owed' : CacheKey → Prop} (h : Accounted c owed registered)
    (ho : ∀ key, owed key → owed' key) : Accounted c owed' registered :=
  { h with dead_owed := fun hs => (h.dead_owed hs).imp_right (ho _) }

/-- A registration is told from all others by its value. -/
theorem registration_eq (h : Accounted c owed registered) {a b : Registration}
    (ha : a ∈ registered) (hb : b ∈ registered) (he : a.value = b.value) : a = b :=
  List.inj_on_of_nodup_map h.registered_distinct ha hb he

theorem registered_handle (h : Accounted c owed registered) {r : Registration}
    (hr : r ∈ registered) (hh : c.HasHandle r.value) :
    ∃ value, c.values.get? r.value = some value ∧ value.content = r.content := by
  obtain ⟨id, handle, hg, he⟩ := hh
  obtain ⟨r', hr', _, hv, value, hval, hc⟩ := h.handle_live hg
  obtain rfl := h.registration_eq hr' hr (hv.trans he)
  exact ⟨value, hv ▸ hval, hc⟩

/-- A purge settles what its key owes. -/
theorem purge (h : Accounted c owed registered) (key : CacheKey) :
    Accounted (c.purge key) (fun k => k ≠ key ∧ owed k) registered := by
  have kept : (∀ id, c.slots.get? key = some id → c.HasHandle id) →
      Accounted c (fun k => k ≠ key ∧ owed k) registered := by
    intro hl
    refine { h with dead_owed := ?_ }
    intro k id hs
    by_cases hk : k = key
    · exact Or.inl (hl id (hk ▸ hs))
    · exact (h.dead_owed hs).imp_right (fun ho => ⟨hk, ho⟩)
  unfold Cache.purge
  split
  · next id hs =>
    split
    · next hv =>
      obtain ⟨value, hv⟩ := Option.isSome_iff_exists.mp hv
      refine kept fun id' hs' => ?_
      obtain rfl := Option.some.inj (hs.symm.trans hs')
      exact h.value_held hv
    · next hv =>
      have hdead : ¬ c.HasHandle id := by
        intro hh
        obtain ⟨i, handle, hg, rfl⟩ := hh
        obtain ⟨_, _, _, _, value, hval, _⟩ := h.handle_live hg
        exact hv (by rw [Table.contains, hval]; rfl)
      refine { h with
        slots_distinct := Table.nodup_keys_erase h.slots_distinct key
        slot_latest := ?_
        latest_slot := ?_
        dead_owed := ?_ }
      · intro k id' hs'
        exact h.slot_latest (Table.get?_erase_eq_some_iff.mp hs').2
      · intro k r hr hh
        have hsr := h.latest_slot hr hh
        refine Table.get?_erase_eq_some_iff.mpr ⟨fun hk => hdead ?_, hsr⟩
        rw [hk] at hsr
        obtain rfl := Option.some.inj (hs.symm.trans hsr)
        exact hh
      · intro k id' hs'
        obtain ⟨hk, hs'⟩ := Table.get?_erase_eq_some_iff.mp hs'
        exact (h.dead_owed hs').imp_right (fun ho => ⟨hk, ho⟩)
  · next hs =>
    refine kept fun id' hs' => ?_
    rw [hs] at hs'
    cases hs'

/-- A new handle is one that nobody has. -/
theorem hasHandle_hold (h : Accounted c owed registered) (key : CacheKey) (id value : Nat) :
    (c.hold key id).1.HasHandle value ↔ value = id ∨ c.HasHandle value := by
  simp only [HasHandle, Cache.hold, Table.get?_set]
  constructor
  · rintro ⟨i, handle, hg, he⟩
    split at hg
    · obtain rfl := Option.some.inj hg
      exact Or.inl he.symm
    · exact Or.inr ⟨i, handle, hg, he⟩
  · rintro (rfl | ⟨i, handle, hg, he⟩)
    · exact ⟨c.nextHandle, ⟨key, value⟩, if_pos rfl, rfl⟩
    · have hi := h.handle_fresh hg
      exact ⟨i, handle, by rwa [if_neg (by omega)], he⟩

/-- A live value may be held once more. -/
theorem hold (h : Accounted c owed registered) {r : Registration} (hr : r ∈ registered)
    (hh : c.HasHandle r.value) : Accounted (c.hold r.key r.value).1 owed registered where
  slots_distinct := h.slots_distinct
  handles_distinct := Table.nodup_keys_set h.handles_distinct _ _
  handle_fresh := by
    intro id handle hg
    simp only [Cache.hold, Table.get?_set] at hg ⊢
    split at hg
    · omega
    · have := h.handle_fresh hg
      omega
  registered_fresh := h.registered_fresh
  registered_distinct := h.registered_distinct
  handle_live := by
    intro id handle hg
    simp only [Cache.hold, Table.get?_set] at hg
    split at hg
    · obtain rfl := Option.some.inj hg
      exact ⟨r, hr, rfl, rfl, h.registered_handle hr hh⟩
    · exact h.handle_live hg
  value_held := fun hv => (h.hasHandle_hold _ _ _).mpr (Or.inr (h.value_held hv))
  slot_latest := h.slot_latest
  latest_slot := by
    intro key r' hr' hh'
    rcases (h.hasHandle_hold _ _ _).mp hh' with he | hh'
    · exact h.latest_slot hr' (he ▸ hh)
    · exact h.latest_slot hr' hh'
  dead_owed := fun hs =>
    (h.dead_owed hs).imp_left (fun hh' => (h.hasHandle_hold _ _ _).mpr (Or.inr hh'))

theorem hold_abandons (h : Accounted c owed registered) (key : CacheKey) {id : Nat}
    (hh : c.HasHandle id) : c.Abandons (c.hold key id).1 := by
  intro value _ hv
  rcases (h.hasHandle_hold key id value).mp hv with rfl | hv
  · exact hh
  · exact hv

theorem value_lt (h : Accounted c owed registered) {value : Nat} (hh : c.HasHandle value) :
    value < c.nextValue := by
  obtain ⟨id, handle, hg, rfl⟩ := hh
  obtain ⟨r, hr, _, hv, _⟩ := h.handle_live hg
  exact hv ▸ h.registered_fresh r hr

theorem hasHandle_register (h : Accounted c owed registered) (key : CacheKey) (content : Content)
    (farewell : List Action) (value : Nat) :
    (c.register key content farewell).1.HasHandle value ↔
      value = c.nextValue ∨ c.HasHandle value :=
  h.hasHandle_hold key c.nextValue value

theorem register_abandons (h : Accounted c owed registered) (key : CacheKey) (content : Content)
    (farewell : List Action) : c.Abandons (c.register key content farewell).1 := by
  intro value hlt hv
  rcases (h.hasHandle_register key content farewell value).mp hv with rfl | hv
  · omega
  · exact hv

/-- A new value takes its slot over, whoever still holds the one that was there. -/
theorem register (h : Accounted c owed registered) (key : CacheKey) (content : Content)
    (farewell : List Action) :
    Accounted (c.register key content farewell).1 owed
      (⟨key, c.nextValue, content⟩ :: registered) where
  slots_distinct := Table.nodup_keys_set h.slots_distinct _ _
  handles_distinct := Table.nodup_keys_set h.handles_distinct _ _
  handle_fresh := by
    intro id handle hg
    simp only [Cache.register, Cache.hold, Table.get?_set] at hg ⊢
    split at hg
    · omega
    · have := h.handle_fresh hg
      omega
  registered_fresh := by
    intro r hr
    change r.value < c.nextValue + 1
    rcases List.mem_cons.mp hr with rfl | hr
    · exact Nat.lt_succ_self _
    · have := h.registered_fresh r hr
      omega
  registered_distinct := by
    rw [List.map_cons, List.nodup_cons]
    refine ⟨fun hm => ?_, h.registered_distinct⟩
    obtain ⟨r, hr, he⟩ := List.mem_map.mp hm
    have := h.registered_fresh r hr
    simp only at he
    omega
  handle_live := by
    intro id handle hg
    simp only [Cache.register, Cache.hold, Table.get?_set] at hg ⊢
    split at hg
    · obtain rfl := Option.some.inj hg
      exact ⟨_, List.mem_cons_self, rfl, rfl, _, if_pos rfl, rfl⟩
    · obtain ⟨r, hr, hk, hv, value, hval, hc⟩ := h.handle_live hg
      have hlt := h.value_lt ⟨id, handle, hg, rfl⟩
      exact ⟨r, List.mem_cons_of_mem _ hr, hk, hv, value, by rwa [if_neg (by omega)], hc⟩
  value_held := by
    intro id value hv
    rw [h.hasHandle_register]
    simp only [Cache.register, Cache.hold, Table.get?_set] at hv
    split at hv
    · next he => exact Or.inl he.symm
    · exact Or.inr (h.value_held hv)
  slot_latest := by
    intro k id hs
    simp only [Cache.register, Cache.hold, Table.get?_set] at hs
    rw [latest?_cons]
    split at hs
    · next hk => exact ⟨_, if_pos hk, Option.some.inj hs⟩
    · next hk =>
      rw [if_neg hk]
      exact h.slot_latest hs
  latest_slot := by
    intro k r hr hh
    rw [latest?_cons] at hr
    simp only [Cache.register, Cache.hold, Table.get?_set]
    split at hr
    · next hk =>
      obtain rfl := Option.some.inj hr
      exact if_pos hk
    · next hk =>
      have hr' := h.registered_fresh r (latest?_mem hr).1
      rw [if_neg hk]
      rcases (h.hasHandle_register key content farewell _).mp hh with he | hh
      · omega
      · exact h.latest_slot hr hh
  dead_owed := by
    intro k id hs
    rw [h.hasHandle_register]
    simp only [Cache.register, Cache.hold, Table.get?_set] at hs
    split at hs
    · exact Or.inl (Or.inl (Option.some.inj hs).symm)
    · exact (h.dead_owed hs).imp_left Or.inr

theorem hasHandle_erase {id value : Nat} :
    { c with handles := c.handles.erase id }.HasHandle value ↔
      ∃ i handle, i ≠ id ∧ c.handles.get? i = some handle ∧ handle.value = value := by
  simp only [HasHandle, Table.get?_erase_eq_some_iff, and_assoc]

/-- Letting go of one handle takes no other value's last one. -/
theorem hasHandle_erase_of_ne {id value : Nat} {handle : Handle}
    (hg : c.handles.get? id = some handle) (hn : value ≠ handle.value) (hh : c.HasHandle value) :
    { c with handles := c.handles.erase id }.HasHandle value := by
  obtain ⟨i, handle', hg', he⟩ := hh
  refine hasHandle_erase.mpr ⟨i, handle', ?_, hg', he⟩
  intro hi
  subst hi
  obtain rfl := Option.some.inj (hg.symm.trans hg')
  exact hn he.symm

theorem letGo_abandons (c : Cache) (handle : Handle) (id : Nat) :
    c.Abandons (c.letGo handle id).1 := by
  have hsub : ∀ value, { c with handles := c.handles.erase id }.HasHandle value →
      c.HasHandle value := by
    intro value hv
    obtain ⟨i, handle', _, hg, he⟩ := hasHandle_erase.mp hv
    exact ⟨i, handle', hg, he⟩
  intro value _ hv
  unfold Cache.letGo at hv
  dsimp only at hv
  split at hv
  · exact hsub value hv
  · split at hv
    · exact hsub value hv
    · exact hsub value hv

/-- A handle that goes owes the purge of its key, since its value may go with it. A slot that names
this value has the handle's key: the value was registered once. -/
theorem letGo (h : Accounted c owed registered) {id : Nat} {handle : Handle}
    (hg : c.handles.get? id = some handle) :
    Accounted (c.letGo handle id).1 (fun key => key = handle.key ∨ owed key) registered := by
  obtain ⟨r, hr, hk, hv, value, hval, hc⟩ := h.handle_live hg
  have hdistinct := Table.nodup_keys_erase h.handles_distinct id
  have hfresh : ∀ {i h'}, (c.handles.erase id).get? i = some h' → i < c.nextHandle := by
    intro i h' hg'
    exact h.handle_fresh (Table.get?_erase_eq_some_iff.mp hg').2
  have hlatest : ∀ {key r'}, latest? registered key = some r' →
      { c with handles := c.handles.erase id }.HasHandle r'.value →
        c.slots.get? key = some r'.value := by
    intro key r' hr' hh
    obtain ⟨i, h', _, hg', he⟩ := hasHandle_erase.mp hh
    exact h.latest_slot hr' ⟨i, h', hg', he⟩
  have howed : ∀ {key v}, c.slots.get? key = some v →
      { c with handles := c.handles.erase id }.HasHandle v ∨ key = handle.key ∨ owed key := by
    intro key v hs
    by_cases hn : v = handle.value
    · obtain ⟨r', hr', he'⟩ := h.slot_latest hs
      obtain ⟨hm, hk'⟩ := latest?_mem hr'
      obtain rfl := h.registration_eq hm hr (he'.trans (hn.trans hv.symm))
      exact Or.inr (Or.inl (hk'.symm.trans hk))
    · rcases h.dead_owed hs with hh | ho
      · exact Or.inl (hasHandle_erase_of_ne hg hn hh)
      · exact Or.inr (Or.inr ho)
  unfold Cache.letGo
  dsimp only
  split
  · next hheld =>
    have hheld := (isHeld_iff hdistinct).mp hheld
    refine { h with
      handles_distinct := hdistinct
      handle_fresh := hfresh
      handle_live := ?_
      value_held := ?_
      latest_slot := hlatest
      dead_owed := howed }
    · intro i h' hg'
      exact h.handle_live (Table.get?_erase_eq_some_iff.mp hg').2
    · intro v value' hv'
      by_cases hn : v = handle.value
      · exact hn ▸ hheld
      · exact hasHandle_erase_of_ne hg hn (h.value_held hv')
  · next hheld =>
    rw [isHeld_iff hdistinct] at hheld
    rw [hval]
    refine { h with
      handles_distinct := hdistinct
      handle_fresh := hfresh
      handle_live := ?_
      value_held := ?_
      latest_slot := hlatest
      dead_owed := howed }
    · intro i h' hg'
      have hn : h'.value ≠ handle.value := fun he => hheld ⟨i, h', hg', he⟩
      obtain ⟨_, hg'⟩ := Table.get?_erase_eq_some_iff.mp hg'
      obtain ⟨r', hr', hk', hv', value', hval', hc'⟩ := h.handle_live hg'
      exact ⟨r', hr', hk', hv', value', Table.get?_erase_eq_some_iff.mpr ⟨hn, hval'⟩, hc'⟩
    · intro v value' hv'
      obtain ⟨hn, hv'⟩ := Table.get?_erase_eq_some_iff.mp hv'
      exact hasHandle_erase_of_ne hg hn (h.value_held hv')

/-- What lives under a key is the value that was registered last, if that still has a handle. -/
theorem liveAs?_iff (h : Accounted c owed registered) {key : CacheKey} {kind : Kind} {id : Nat}
    {v : kind.Value} : c.liveAs? key kind = some (id, v) ↔
      ∃ r, latest? registered key = some r ∧ r.value = id ∧ r.content = ⟨kind, v⟩ ∧
        c.HasHandle id := by
  constructor
  · intro hl
    obtain ⟨value, hs, hval, hv⟩ := liveAs?_slot hl
    obtain ⟨r, hr, rfl⟩ := h.slot_latest hs
    have hh := h.value_held hval
    obtain ⟨value', hval', hc⟩ := h.registered_handle (latest?_mem hr).1 hh
    obtain rfl := Option.some.inj (hval.symm.trans hval')
    exact ⟨r, hr, rfl, hc ▸ Content.as?_eq_some_iff.mp hv, hh⟩
  · intro hl
    obtain ⟨r, hr, rfl, hc, hh⟩ := hl
    obtain ⟨value, hval, hc'⟩ := h.registered_handle (latest?_mem hr).1 hh
    have hv : value.content.as? kind = some v := Content.as?_eq_some_iff.mpr (hc'.trans hc)
    simp [liveAs?, live?, h.latest_slot hr hh, hval, hv]

theorem find (h : Accounted c owed registered) (key : CacheKey) (kind : Kind) :
    Accounted (c.find key kind).1 owed registered ∧ c.Abandons (c.find key kind).1 := by
  cases hl : c.liveAs? key kind with
  | none =>
    rw [find_of_none hl]
    exact ⟨(h.purge key).mono (fun _ ho => ho.2), purge_abandons c key⟩
  | some live =>
    obtain ⟨id, v⟩ := live
    obtain ⟨r, hr, rfl, _, hh⟩ := h.liveAs?_iff.mp hl
    obtain ⟨hm, rfl⟩ := latest?_mem hr
    rw [find_of_live hl]
    exact ⟨h.hold hm hh, h.hold_abandons r.key hh⟩

theorem share (h : Accounted c owed registered) (id : Nat) :
    Accounted (c.share id).1 owed registered ∧ c.Abandons (c.share id).1 := by
  unfold Cache.share
  split
  · next handle hg =>
    have hh : c.HasHandle handle.value := ⟨id, handle, hg, rfl⟩
    obtain ⟨r, hr, hk, hv, _⟩ := h.handle_live hg
    rw [← hv] at hh
    rw [← hk, ← hv]
    exact ⟨h.hold hr hh, h.hold_abandons r.key hh⟩
  · exact ⟨h, fun _ _ hv => hv⟩

theorem observe (h : Accounted c owed registered) (key : CacheKey) (kind : Kind) :
    Accounted (c.observe key kind) owed registered :=
  { h.purge key with dead_owed := fun hs => ((h.purge key).dead_owed hs).imp_right And.right }

end Accounted
end Cache
end LayeredAssets
