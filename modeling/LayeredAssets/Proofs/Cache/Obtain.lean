import LayeredAssets.Proofs.Cache.Sharing

namespace LayeredAssets

namespace Cache

/-- The slot of a key names a value of the kind, and somebody has a handle for it. -/
structure LivesAt (c : Cache) (key : CacheKey) (kind : Kind) (id : Nat) : Prop where
  slot : c.slots.get? key = some id
  held : c.HasHandle id
  kind : ∃ value, c.values.get? id = some value ∧ value.content.kind = kind

/-- The handle refers to the value that the slot of its key names, and that is what it gives out. -/
structure Refers (c : Cache) (key : CacheKey) {kind : Kind} (held : Held kind) (id : Nat) :
    Prop where
  handle : c.handles.get? held.handle = some ⟨key, id⟩
  slot : c.slots.get? key = some id
  value : ∃ value, c.values.get? id = some value ∧ value.content = ⟨kind, held.value⟩

section
variable {c : Cache} {owed : CacheKey → Prop} {registered : List Registration} {key : CacheKey}
  {kind : Kind} {id : Nat} {v : kind.Value}

theorem Accounted.livesAt_iff (h : Accounted c owed registered) :
    c.LivesAt key kind id ↔ ∃ v, c.liveAs? key kind = some (id, v) := by
  constructor
  · intro hl
    obtain ⟨value, hval, rfl⟩ := hl.kind
    refine ⟨value.content.value, ?_⟩
    have hv : value.content.as? value.content.kind = some value.content.value :=
      Content.as?_eq_some_iff.mpr rfl
    simp [Cache.liveAs?, live?, hl.slot, hval, hv]
  · intro hl
    obtain ⟨v, hl⟩ := hl
    obtain ⟨value, hs, hval, hv⟩ := liveAs?_slot hl
    exact ⟨hs, h.value_held hval, value, hval, by rw [Content.as?_eq_some_iff.mp hv]⟩

theorem Accounted.not_livesAt_iff (h : Accounted c owed registered) :
    (∀ id, ¬ c.LivesAt key kind id) ↔ c.liveAs? key kind = none := by
  simp only [h.livesAt_iff, Option.eq_none_iff_forall_ne_some, Prod.forall, not_exists, ne_eq]

theorem refers_hold (hl : c.liveAs? key kind = some (id, v)) :
    (c.hold key id).1.Refers key ⟨c.nextHandle, v⟩ id := by
  obtain ⟨value, hs, hval, hv⟩ := liveAs?_slot hl
  refine ⟨?_, hs, value, hval, Content.as?_eq_some_iff.mp hv⟩
  simp only [Cache.hold, Table.get?_set, ↓reduceIte]

theorem refers_register (c : Cache) (key : CacheKey) (v : kind.Value) (farewell : List Action) :
    (c.register key ⟨kind, v⟩ farewell).1.Refers key (⟨c.nextHandle, v⟩ : Held kind)
      c.nextValue where
  handle := by simp only [Cache.register, Cache.hold, Table.get?_set, ↓reduceIte]
  slot := by simp only [Cache.register, Cache.hold, Table.get?_set, ↓reduceIte]
  value := by simp [Cache.register, Cache.hold, Table.get?_set]

theorem keep_of_live {v' : kind.Value} {farewell : List Action}
    (hl : c.liveAs? key kind = some (id, v')) : c.keep key ⟨kind, v⟩ farewell =
      ((c.hold key id).1.run (farewell.map .act), ⟨c.nextHandle, v'⟩) := by
  simp only [keep, settle, hl]
  rfl

/-- A purge takes nothing but a slot whose value is gone. -/
theorem Accounted.purge_dead (h : Accounted c owed registered) (key : CacheKey) :
    c.purge key = c ∨ ∃ id, c.slots.get? key = some id ∧ ¬ c.HasHandle id ∧
      c.purge key = { c with slots := c.slots.erase key } := by
  unfold Cache.purge
  split
  · next id hs =>
    split
    · exact Or.inl rfl
    · next hdead =>
      refine Or.inr ⟨id, hs, fun hh => hdead ?_, rfl⟩
      obtain ⟨r, hr, rfl⟩ := h.slot_latest hs
      obtain ⟨value, hval, _⟩ := h.registered_handle (latest?_mem hr).1 hh
      rw [Table.contains, hval]
      rfl
  · exact Or.inl rfl

end

theorem latest?_append (made registered : List Registration) (key : CacheKey) :
    latest? (made ++ registered) key = (latest? made key).or (latest? registered key) :=
  List.find?_append

theorem latest?_eq_none_iff {registered : List Registration} {key : CacheKey} :
    latest? registered key = none ↔ ∀ r ∈ registered, r.key ≠ key := by
  simp [latest?]

/-- So many values were registered in between, and a handle that was given out before refers to the
same for as long as anybody has it. -/
structure Grows (made : Nat) (c c' : Cache) : Prop where
  nextValue : c'.nextValue = c.nextValue + made
  nextHandle : c.nextHandle ≤ c'.nextHandle
  handles : ∀ {i h}, i < c.nextHandle → c'.handles.get? i = some h → c.handles.get? i = some h

namespace Grows

variable {made made' : Nat} {c c' c'' : Cache}

theorem refl (c : Cache) : Grows 0 c c := ⟨rfl, Nat.le_refl _, fun _ hg => hg⟩

theorem trans (h : Grows made c c') (h' : Grows made' c' c'') : Grows (made' + made) c c'' where
  nextValue := by
    rw [h'.nextValue, h.nextValue]
    omega
  nextHandle := h.nextHandle.trans h'.nextHandle
  handles := fun hi hg => h.handles hi (h'.handles (Nat.lt_of_lt_of_le hi h.nextHandle) hg)

theorem purge (c : Cache) (key : CacheKey) : Grows 0 c (c.purge key) := by
  unfold Cache.purge
  split
  · split <;> exact ⟨rfl, Nat.le_refl _, fun _ hg => hg⟩
  · exact refl c

theorem hold (c : Cache) (key : CacheKey) (id : Nat) : Grows 0 c (c.hold key id).1 := by
  refine ⟨rfl, Nat.le_succ _, fun hi hg => ?_⟩
  simp only [Cache.hold, Table.get?_set] at hg
  rwa [if_neg (Nat.ne_of_gt hi)] at hg

theorem register (c : Cache) (key : CacheKey) (content : Content) (farewell : List Action) :
    Grows 1 c (c.register key content farewell).1 :=
  ⟨rfl, (hold c key c.nextValue).nextHandle, (hold c key c.nextValue).handles⟩

theorem find (c : Cache) (key : CacheKey) (kind : Kind) : Grows 0 c (c.find key kind).1 := by
  unfold Cache.find
  split
  · exact hold c key _
  · exact purge c key

theorem share (c : Cache) (id : Nat) : Grows 0 c (c.share id).1 := by
  unfold Cache.share
  split
  · exact hold c _ _
  · exact refl c

theorem letGo (c : Cache) (handle : Handle) (id : Nat) : Grows 0 c (c.letGo handle id).1 where
  nextValue := by
    unfold Cache.letGo
    dsimp only
    split
    · rfl
    · split <;> rfl
  nextHandle := by
    unfold Cache.letGo
    dsimp only
    split
    · exact Nat.le_refl _
    · split <;> exact Nat.le_refl _
  handles := by
    intro i h _ hg
    rw [letGo_handles] at hg
    exact (Table.get?_erase_eq_some_iff.mp hg).2

theorem observe (c : Cache) (key : CacheKey) (kind : Kind) : Grows 0 c (c.observe key kind) :=
  ⟨(purge c key).nextValue, (purge c key).nextHandle, (purge c key).handles⟩

theorem settle (c : Cache) (key : CacheKey) (content : Content) (farewell : List Action) :
    Grows (Moment.registers c (.settle key content farewell)).length c
      (c.settle key content farewell).1 := by
  simp only [Moment.registers, Cache.settle]
  cases c.liveAs? key content.kind with
  | none => exact register c key content farewell
  | some live => exact hold c key live.1

theorem perform (c : Cache) (task : Task) :
    Grows (Moment.registers c task).length c (c.perform task).1 := by
  cases task with
  | act action =>
    cases action with
    | add key content farewell => exact register c key content farewell
    | find key kind => exact find c key kind
    | get key content construction succeeds farewell =>
      have hf := find c key content.kind
      unfold Cache.perform
      dsimp only
      split
      · next hc => rwa [hc] at hf
      · next hc => rwa [hc] at hf
    | remove key => exact purge c key
    | share id => exact share c id
    | drop id =>
      unfold Cache.perform
      dsimp only
      split
      · exact refl c
      · exact letGo c _ id
    | observe key kind => exact observe c key kind
  | settle key content farewell => exact settle c key content farewell
  | purge key => exact purge c key

end Grows
end Cache

namespace Moment
open Cache

variable {m n : Moment}

theorem value_of_registers {c : Cache} {task : Task} {r : Registration}
    (hr : r ∈ registers c task) : r.value = c.nextValue := by
  unfold registers at hr
  split at hr
  · rw [List.mem_singleton.mp hr]
  · split at hr
    · cases hr
    · rw [List.mem_singleton.mp hr]
  · cases hr

/-- What is registered on the way is new. -/
theorem Leads.grows (hn : Leads m n) : ∃ made, n.registered = made ++ m.registered ∧
    Grows made.length m.cache n.cache ∧ ∀ r ∈ made, m.cache.nextValue ≤ r.value := by
  induction hn with
  | here => exact ⟨[], rfl, .refl _, List.forall_mem_nil _⟩
  | step before next ih =>
    obtain ⟨made, hmade, hgrows, hnew⟩ := ih
    cases next with
    | perform c task due registered =>
      refine ⟨registers c task ++ made, ?_, ?_, ?_⟩
      · rw [List.append_assoc, ← hmade]
      · rw [List.length_append]
        exact hgrows.trans (.perform c task)
      · intro r hr
        rcases List.mem_append.mp hr with hr | hr
        · rw [value_of_registers hr, hgrows.nextValue]
          exact Nat.le_add_right _ _
        · exact hnew r hr

theorem Leads.abandons (hn : Leads m n) (h : Accounted m.cache (Owes m.due) m.registered) :
    m.cache.Abandons n.cache := by
  induction hn with
  | here => exact fun _ _ hv => hv
  | step before next ih =>
    obtain ⟨_, _, hgrows, _⟩ := before.grows
    have hacc := before.accounted h
    cases next with
    | perform c task due registered =>
      intro value hlt hv
      have hlt' : value < c.nextValue := hgrows.nextValue ▸ Nat.lt_add_right _ hlt
      exact ih value hlt ((perform_accounted hacc).2 value hlt' hv)

/-- Where nothing of a kind lived before, what lives then was registered on the way: what was there
before is not taken up again. -/
theorem Leads.made_live (hn : Leads m n) (h : Accounted m.cache (Owes m.due) m.registered)
    {made : List Registration} (hmade : n.registered = made ++ m.registered) {key : CacheKey}
    {kind : Kind} (hnone : m.cache.liveAs? key kind = none) {id : Nat} {v : kind.Value}
    (hl : n.cache.liveAs? key kind = some (id, v)) :
    ∃ r ∈ made, r.key = key ∧ r.value = id ∧ r.content = ⟨kind, v⟩ := by
  obtain ⟨r, hr, rfl, hc, hh⟩ := (hn.accounted h).liveAs?_iff.mp hl
  rw [hmade, latest?_append] at hr
  cases hlast : latest? made key with
  | some r' =>
    rw [hlast] at hr
    obtain rfl := Option.some.inj hr
    obtain ⟨hm, hk⟩ := latest?_mem hlast
    exact ⟨r', hm, hk, rfl, hc⟩
  | none =>
    rw [hlast, Option.none_or] at hr
    have hold := hn.abandons h r.value (h.registered_fresh r (latest?_mem hr).1) hh
    rw [h.liveAs?_iff.mpr ⟨r, hr, rfl, hc, hold⟩] at hnone
    cases hnone

/-- For as long as a value is held, its slot is lost to nothing but a later registration. -/
theorem Leads.slot_iff_none_made (hn : Leads m n)
    (h : Accounted m.cache (Owes m.due) m.registered) {made : List Registration}
    (hmade : n.registered = made ++ m.registered) {key : CacheKey} {id : Nat}
    (hs : m.cache.slots.get? key = some id) (hh : n.cache.HasHandle id) :
    n.cache.slots.get? key = some id ↔ ∀ r ∈ made, r.key ≠ key := by
  have hacc := hn.accounted h
  obtain ⟨r, hr, rfl⟩ := h.slot_latest hs
  have hm := (latest?_mem hr).1
  rw [← latest?_eq_none_iff]
  constructor
  · intro hs'
    obtain ⟨r', hr', he⟩ := hacc.slot_latest hs'
    rw [hmade, latest?_append] at hr'
    cases hlast : latest? made key with
    | none => rfl
    | some last =>
      rw [hlast] at hr'
      obtain rfl := Option.some.inj hr'
      -- The values made are new, so none of them is the one that was there.
      obtain ⟨made', hmade', _, hnew⟩ := hn.grows
      obtain rfl := List.append_cancel_right (hmade.symm.trans hmade')
      have := hnew last (latest?_mem hlast).1
      have := h.registered_fresh r hm
      omega
  · intro hnone
    refine hacc.latest_slot ?_ hh
    rw [hmade, latest?_append, hnone, Option.none_or, hr]

/-- A handle that somebody still has refers to what the slot names until the slot is taken over. -/
theorem Leads.refers_iff_none_made (hn : Leads m n)
    (h : Accounted m.cache (Owes m.due) m.registered) {made : List Registration}
    (hmade : n.registered = made ++ m.registered) {key : CacheKey} {kind : Kind}
    {held : Held kind} {id : Nat} (hr : m.cache.Refers key held id)
    (hheld : n.cache.handles.contains held.handle = true) :
    n.cache.Refers key held id ↔ ∀ r ∈ made, r.key ≠ key := by
  obtain ⟨handle, hg⟩ := Option.isSome_iff_exists.mp hheld
  obtain ⟨_, _, hgrows, _⟩ := hn.grows
  have hg' := hgrows.handles (h.handle_fresh hr.handle) hg
  obtain rfl := Option.some.inj (hr.handle.symm.trans hg')
  have hslot := hn.slot_iff_none_made h hmade hr.slot ⟨_, _, hg, rfl⟩
  refine ⟨fun hr' => hslot.mp hr'.slot, fun hnone => ⟨hg, hslot.mpr hnone, ?_⟩⟩
  obtain ⟨r, hreg, _, hv, value, hval, hc⟩ := h.handle_live hr.handle
  obtain ⟨value₀, hval₀, hc₀⟩ := hr.value
  obtain rfl := Option.some.inj (hval.symm.trans hval₀)
  obtain ⟨value', hval', hc'⟩ := (hn.accounted h).registered_handle
    (hmade ▸ List.mem_append_right made hreg) ⟨_, _, hg, hv.symm⟩
  rw [hv] at hval'
  exact ⟨value', hval', hc'.trans (hc.symm.trans hc₀)⟩

/-- A construction starts with the slot purged, and what is due goes on waiting for it. -/
theorem leads_construction (h : Accounted m.cache (Owes m.due) m.registered) (key : CacheKey)
    (construction : List Action) :
    Accounted (m.cache.purge key) (Owes (construction.map .act ++ m.due)) m.registered ∧
      ∃ made, Leads ⟨m.cache.purge key, construction.map .act ++ m.due, m.registered⟩
        ⟨(m.cache.purge key).run (construction.map .act), m.due, made ++ m.registered⟩ := by
  refine ⟨(h.purge key).mono fun _ ho => List.mem_append_right _ ho.2, ?_⟩
  obtain ⟨registered, hl⟩ :=
    leads_run_before (m.cache.purge key) (construction.map .act) m.due m.registered
  obtain ⟨made, rfl, _⟩ := hl.grows
  exact ⟨made, hl⟩

/-- What became of a constructed value, in a cache that its construction left. Either a value of its
kind that the construction registered itself is shared, and the new one goes at once: its farewell
may take the slot over again, but nothing else does. Or the new value takes the slot. -/
inductive Kept (due : List Task) (registered new : List Registration) (key : CacheKey)
    {kind : Kind} (v : kind.Value) (farewell : List Action) (after c : Cache)
    (held : Held kind) : Prop where
  | shared (r : Registration) (own : r ∈ new ∧ r.key = key)
      (lives : after.LivesAt key kind r.value)
      (refers : (after.hold key r.value).1.Refers key held r.value)
      (discarded : c = (after.hold key r.value).1.run (farewell.map .act))
      (returned : ∃ later, Leads
          ⟨(after.hold key r.value).1, farewell.map .act ++ due, new ++ registered⟩
          ⟨c, due, later ++ (new ++ registered)⟩ ∧
        (c.handles.contains held.handle = true →
          (c.Refers key held r.value ↔ ∀ r' ∈ later, r'.key ≠ key)))
  | registered (vacant : ∀ id, ¬ after.LivesAt key kind id) (value : held.value = v)
      (taken : c = (after.register key ⟨kind, v⟩ farewell).1)
      (refers : c.Refers key held after.nextValue)

theorem kept_keep {due tasks : List Task} {before after : Cache}
    {registered new : List Registration} {key : CacheKey} {kind : Kind} {v : kind.Value}
    (farewell : List Action) (h : Accounted before (Owes tasks) registered)
    (hnone : before.liveAs? key kind = none)
    (hn : Leads ⟨before, tasks, registered⟩ ⟨after, due, new ++ registered⟩) :
    Kept due registered new key v farewell after (after.keep key ⟨kind, v⟩ farewell).1
      (after.keep key ⟨kind, v⟩ farewell).2 := by
  have hacc : Accounted after (Owes due) (new ++ registered) := hn.accounted h
  cases hl : after.liveAs? key kind with
  | some live =>
    obtain ⟨id, v'⟩ := live
    obtain ⟨r, hr, hk, rfl, _⟩ := hn.made_live h rfl hnone hl
    have hlive : after.LivesAt key kind r.value := hacc.livesAt_iff.mpr ⟨v', hl⟩
    have hsettled : Accounted (after.hold key r.value).1 (Owes (farewell.map .act ++ due))
        (new ++ registered) := by
      subst hk
      exact (hacc.hold (List.mem_append_left _ hr) hlive.held).mono
        fun _ ho => List.mem_append_right _ ho
    obtain ⟨registered', hlater⟩ := leads_run_before (after.hold key r.value).1
      (farewell.map .act) due (new ++ registered)
    obtain ⟨later, rfl, _⟩ := hlater.grows
    rw [keep_of_live hl]
    exact .shared r ⟨hr, hk⟩ hlive (refers_hold hl) rfl
      ⟨later, hlater, hlater.refers_iff_none_made hsettled rfl (refers_hold hl)⟩
  | none =>
    rw [keep_of_none hl]
    exact .registered (hacc.not_livesAt_iff.mpr hl) rfl rfl
      (refers_register after key v farewell)

/-- Whatever state a session has come to, obtaining a value runs the construction just where no
value of the kind lives under the key, once and on the purged cache. An error leaves what the
construction left, and otherwise the handle refers to what the slot names, unless a value that was
discarded put something else there as it went. -/
theorem obtained_is_named {actions : List Action} (hm : Leads (start actions) m) (key : CacheKey)
    (kind : Kind) {ε : Type} (construct : Cache → Cache × Except ε kind.Value)
    (construction farewell : List Action) (hoperates : (construct (m.cache.purge key)).1 =
      (m.cache.purge key).run (construction.map .act)) :
    (m.cache.purge key = m.cache ∨ ∃ id, m.cache.slots.get? key = some id ∧
      ¬ m.cache.HasHandle id ∧
        m.cache.purge key = { m.cache with slots := m.cache.slots.erase key }) ∧
    ∀ c answer ran, m.cache.obtain key kind construct farewell = (c, answer, ran) →
      (ran = true ↔ ∀ id, ¬ m.cache.LivesAt key kind id) ∧
      (ran = false → ∃ id held, answer = .ok held ∧ m.cache.LivesAt key kind id ∧
        c = (m.cache.hold key id).1 ∧ c.Refers key held id) ∧
      (ran = true → ∀ after made, construct (m.cache.purge key) = (after, made) →
        ∃ new, Leads ⟨m.cache.purge key, construction.map .act ++ m.due, m.registered⟩
            ⟨after, m.due, new ++ m.registered⟩ ∧
          (∀ e, made = .error e → answer = .error e ∧ c = after) ∧
          ∀ v, made = .ok v → ∃ held, answer = .ok held ∧
            Kept m.due m.registered new key v farewell after c held) := by
  have hacc := leads_accounted hm
  refine ⟨hacc.purge_dead key, ?_⟩
  intro c answer ran hobtain
  cases hl : m.cache.liveAs? key kind with
  | some live =>
    obtain ⟨id, v⟩ := live
    rw [obtain_of_live hl] at hobtain
    cases hobtain
    have hlive : m.cache.LivesAt key kind id := hacc.livesAt_iff.mpr ⟨v, hl⟩
    refine ⟨iff_of_false Bool.false_ne_true fun hno => hno id hlive, ?_, ?_⟩
    · intro _
      exact ⟨id, _, rfl, hlive, rfl, refers_hold hl⟩
    · intro hran
      cases hran
  | none =>
    have hno := hacc.not_livesAt_iff.mpr hl
    obtain ⟨hbefore, new, hnew⟩ := leads_construction hacc key construction
    rw [← hoperates] at hnew
    cases hconstruct : construct (m.cache.purge key) with
    | mk after made =>
      rw [hconstruct] at hnew
      cases made with
      | error e =>
        rw [obtain_of_error hl hconstruct] at hobtain
        cases hobtain
        refine ⟨iff_of_true rfl hno, by rintro ⟨⟩, ?_⟩
        rintro - _ _ ⟨⟩
        refine ⟨new, hnew, ?_, by rintro v ⟨⟩⟩
        rintro _ ⟨⟩
        exact ⟨rfl, rfl⟩
      | ok v =>
        rw [obtain_of_ok hl hconstruct] at hobtain
        cases hobtain
        refine ⟨iff_of_true rfl hno, by rintro ⟨⟩, ?_⟩
        rintro - _ _ ⟨⟩
        refine ⟨new, hnew, by rintro e ⟨⟩, ?_⟩
        rintro _ ⟨⟩
        exact ⟨_, rfl, kept_keep farewell hbefore (liveAs?_purge hl) hnew⟩

/-- A text that is still held under the key. -/
def oldText : Moment :=
  ⟨⟨⟨[(.ofArchive "AePc" "R1.LVL", 0)]⟩, ⟨[(0, ⟨⟨.text, "old"⟩, []⟩)]⟩,
      ⟨[(0, ⟨.ofArchive "AePc" "R1.LVL", 0⟩)]⟩, 1, 1, []⟩, [],
    [⟨.ofArchive "AePc" "R1.LVL", 0, ⟨.text, "old"⟩⟩]⟩

/-- A construction that puts a number of its own under the key before it gives another. -/
def ownNumber (c : Cache) : Cache × Except Unit UInt32 :=
  (c.run [.act (.add (.ofArchive "AePc" "R1.LVL") ⟨.number, 1⟩ [])], .ok 2)

theorem ownNumber_oldText : ownNumber (oldText.cache.purge (.ofArchive "AePc" "R1.LVL")) =
    ((oldText.cache.register (.ofArchive "AePc" "R1.LVL") ⟨.number, 1⟩ []).1, .ok 2) := by
  unfold ownNumber
  rw [run_add, run_nil]
  rfl

theorem obtained_is_named_own :
    Leads (start [.add (.ofArchive "AePc" "R1.LVL") ⟨.text, "old"⟩ []]) oldText ∧
    (ownNumber (oldText.cache.purge (.ofArchive "AePc" "R1.LVL"))).1 =
      (oldText.cache.purge (.ofArchive "AePc" "R1.LVL")).run
        ([.add (.ofArchive "AePc" "R1.LVL") ⟨.number, 1⟩ []].map .act) ∧
    ∃ c held, oldText.cache.obtain (.ofArchive "AePc" "R1.LVL") .number ownNumber
        [.observe (.ofArchive "AePc" "R1.LVL") .number] = (c, .ok held, true) ∧
      c.slots.get? (.ofArchive "AePc" "R1.LVL") = some 1 ∧ held.value = 1 ∧
      c.log = [⟨1, true, 1⟩] := by
  have hm : Leads (start [.add (.ofArchive "AePc" "R1.LVL") ⟨.text, "old"⟩ []]) oldText :=
    Leads.here.step (.perform _ _ _ _)
  have hspec := (obtained_is_named hm (.ofArchive "AePc" "R1.LVL") .number ownNumber
    [.add (.ofArchive "AePc" "R1.LVL") ⟨.number, 1⟩ []]
    [.observe (.ofArchive "AePc" "R1.LVL") .number] rfl).2
  refine ⟨hm, rfl, ?_⟩
  generalize hobtain : oldText.cache.obtain (.ofArchive "AePc" "R1.LVL") .number ownNumber
    [.observe (.ofArchive "AePc" "R1.LVL") .number] = obtained at hspec
  obtain ⟨c, answer, ran⟩ := obtained
  obtain ⟨hran, _, hkept⟩ := hspec c answer ran rfl
  obtain rfl : ran = true := by
    refine hran.mpr ?_
    rintro id ⟨⟨⟩, _, _, ⟨⟩, ⟨⟩⟩
  obtain ⟨new, _, _, hok⟩ := hkept rfl _ _ rfl
  obtain ⟨held, rfl, hheld⟩ := hok 2 rfl
  refine ⟨c, held, rfl, ?_⟩
  have hafter : (oldText.cache.purge (.ofArchive "AePc" "R1.LVL")).run
      [.act (.add (.ofArchive "AePc" "R1.LVL") ⟨.number, 1⟩ [])] = _ :=
    congrArg Prod.fst ownNumber_oldText
  rw [hafter] at hheld
  cases hheld with
  | shared r own lives refers discarded returned =>
    obtain ⟨_, _, value, hval, hcontent⟩ := refers
    have hid : r.value = 1 := (Option.some.inj lives.slot).symm
    rw [hid] at discarded hval
    rw [List.map_singleton, run_cons, List.append_nil] at discarded
    obtain rfl := discarded.trans (run_nil _)
    cases hval
    obtain ⟨handle, v⟩ := held
    cases hcontent
    exact ⟨rfl, rfl, rfl⟩
  | registered vacant => exact absurd ⟨rfl, ⟨1, _, rfl, rfl⟩, _, rfl, rfl⟩ (vacant 1)

/-- In a session, a value was obtained for the key. Its construction did to the cache what actions
do, and registered the new values on the way. -/
structure Obtains (m : Moment) (key : CacheKey) {kind : Kind}
    (construct : Cache → Cache × Except Unit kind.Value) (farewell : List Action)
    (new : List Registration) (c : Cache) (held : Held kind) : Prop where
  session : ∃ actions, Leads (start actions) m
  operates : ∃ construction : List Action,
    (construct (m.cache.purge key)).1 = (m.cache.purge key).run (construction.map .act) ∧
      Leads ⟨m.cache.purge key, construction.map .act ++ m.due, m.registered⟩
        ⟨(construct (m.cache.purge key)).1, m.due, new ++ m.registered⟩
  obtained : m.cache.obtain key kind construct farewell = (c, .ok held, true)

/-- A construction that puts a number under the key, and a text over it, and drops neither. -/
def coveredNumber (c : Cache) : Cache × Except Unit UInt32 :=
  (c.run ([.add (.ofArchive "AePc" "R1.LVL") ⟨.number, 1⟩ [],
    .add (.ofArchive "AePc" "R1.LVL") ⟨.text, "new"⟩ []].map .act), .ok 2)

theorem oldText_session : ∃ actions, Leads (start actions) oldText :=
  ⟨[.add (.ofArchive "AePc" "R1.LVL") ⟨.text, "old"⟩ []], Leads.here.step (.perform _ _ _ _)⟩

/-- A discarded number may put another one under the key as it goes. And a number that its
construction registered is not shared where a text has taken its slot, although both live. -/
theorem discarded_takes_slot :
    (¬ ∀ (m : Moment) (key : CacheKey) (kind : Kind)
        (construct : Cache → Cache × Except Unit kind.Value) (farewell : List Action)
        (new : List Registration) (c : Cache) (held : Held kind),
        Obtains m key construct farewell new c held → ∃ id, c.Refers key held id) ∧
      ¬ ∀ (m : Moment) (key : CacheKey) (kind : Kind)
        (construct : Cache → Cache × Except Unit kind.Value) (farewell : List Action)
        (new : List Registration) (c : Cache) (held : Held kind),
        Obtains m key construct farewell new c held →
          ∀ r ∈ new, r.key = key → r.content.kind = kind → c.HasHandle r.value →
            ∃ shared ∈ new, c.handles.get? held.handle = some ⟨key, shared.value⟩ := by
  constructor
  · intro hall
    have hobtain : oldText.cache.obtain (.ofArchive "AePc" "R1.LVL") .number ownNumber
        [.add (.ofArchive "AePc" "R1.LVL") ⟨.number, 3⟩ []] = _ :=
      obtain_of_ok rfl ownNumber_oldText
    rw [keep_of_live rfl, List.map_singleton, run_add, run_nil] at hobtain
    obtain ⟨id, hid⟩ := hall oldText (.ofArchive "AePc" "R1.LVL") .number ownNumber _
      [⟨.ofArchive "AePc" "R1.LVL", 1, ⟨.number, 1⟩⟩] _ _ ⟨oldText_session,
        ⟨[.add (.ofArchive "AePc" "R1.LVL") ⟨.number, 1⟩ []], rfl, by
          rw [ownNumber_oldText]
          exact Leads.here.step (.perform _ _ _ _)⟩, hobtain⟩
    have hslot : 2 = id := Option.some.inj hid.slot
    have hhandle := hid.handle
    rw [← hslot] at hhandle
    cases hhandle
  · intro hall
    have hrun : coveredNumber (oldText.cache.purge (.ofArchive "AePc" "R1.LVL")) =
        (((oldText.cache.register (.ofArchive "AePc" "R1.LVL") ⟨.number, 1⟩ []).1.register
          (.ofArchive "AePc" "R1.LVL") ⟨.text, "new"⟩ []).1, .ok 2) := by
      unfold coveredNumber
      rw [List.map_cons, List.map_singleton, run_add, run_add, run_nil]
      rfl
    have hobtain : oldText.cache.obtain (.ofArchive "AePc" "R1.LVL") .number coveredNumber [] = _ :=
      obtain_of_ok rfl hrun
    rw [keep_of_none rfl] at hobtain
    obtain ⟨shared, hshared, hhandle⟩ := hall oldText (.ofArchive "AePc" "R1.LVL") .number
      coveredNumber [] [⟨.ofArchive "AePc" "R1.LVL", 2, ⟨.text, "new"⟩⟩,
        ⟨.ofArchive "AePc" "R1.LVL", 1, ⟨.number, 1⟩⟩] _ _ ⟨oldText_session,
        ⟨[.add (.ofArchive "AePc" "R1.LVL") ⟨.number, 1⟩ [],
          .add (.ofArchive "AePc" "R1.LVL") ⟨.text, "new"⟩ []], rfl, by
          rw [hrun]
          exact (Leads.here.step (.perform _ _ _ _)).step (.perform _ _ _ _)⟩, hobtain⟩
      ⟨.ofArchive "AePc" "R1.LVL", 1, ⟨.number, 1⟩⟩ (by simp) rfl rfl ⟨1, _, rfl, rfl⟩
    -- The handle refers to the third value, and the construction registered two.
    have hthird : 3 = shared.value := congrArg Handle.value (Option.some.inj hhandle)
    simp only [List.mem_cons, List.not_mem_nil, or_false] at hshared
    rcases hshared with rfl | rfl
    · cases hthird
    · cases hthird

end Moment
end LayeredAssets
