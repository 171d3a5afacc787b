import LayeredAssets.Cache.Session
import LayeredAssets.Proofs.Cache.Accounted

namespace LayeredAssets.Cache

theorem run_nil (c : Cache) : c.run [] = c := by
  rw [run]

theorem run_cons (c : Cache) (task : Task) (due : List Task) :
    c.run (task :: due) = (c.perform task).1.run ((c.perform task).2 ++ due) := by
  rw [run]

/-- Nothing else is due once a value is registered. -/
theorem run_add (c : Cache) (key : CacheKey) (content : Content) (farewell : List Action)
    (due : List Task) : c.run (.act (.add key content farewell) :: due) =
      (c.register key content farewell).1.run due := by
  rw [run_cons]
  rfl

/-- Steps that are due later do not matter to those before them. -/
theorem run_append (c : Cache) (a b : List Task) : c.run (a ++ b) = (c.run a).run b := by
  induction c, a using run.induct with
  | case1 c => rw [run_nil, List.nil_append]
  | case2 c task due _ ih => rw [List.cons_append, run_cons, run_cons, ← List.append_assoc, ih]

theorem purge_slots_get? (c : Cache) (key k : CacheKey) :
    (c.purge key).slots.get? k = c.slots.get? k ∨
      k = key ∧ (c.purge key).slots.get? k = none := by
  unfold purge
  split
  · split
    · exact Or.inl rfl
    · by_cases hk : key = k
      · exact Or.inr ⟨hk.symm, by rw [Table.get?_erase, if_pos hk]⟩
      · exact Or.inl (by rw [Table.get?_erase, if_neg hk])
  · exact Or.inl rfl

theorem purge_values (c : Cache) (key : CacheKey) : (c.purge key).values = c.values := by
  unfold purge
  split
  · split <;> rfl
  · rfl

theorem letGo_values {c : Cache} {handle : Handle} {id k : Nat} {value : CachedValue}
    (hv : (c.letGo handle id).1.values.get? k = some value) : c.values.get? k = some value := by
  unfold letGo at hv
  dsimp only at hv
  split at hv
  · exact hv
  · split at hv
    · exact (Table.get?_erase_eq_some_iff.mp hv).2
    · exact hv

theorem letGo_farewell {c : Cache}
    (h : ∀ {k value}, c.values.get? k = some value → value.farewell = []) (handle : Handle)
    (id : Nat) : (c.letGo handle id).2 = [] := by
  unfold letGo
  dsimp only
  split
  · rfl
  · split
    · next value hv => exact h hv
    · rfl

theorem drop_of_none {c : Cache} {id : Nat} (hg : c.handles.get? id = none) : c.drop id = c := by
  simp only [drop, run_cons, perform, hg, List.append_nil, run_nil]

/-- Without farewells a dropped handle only lets go and purges. -/
theorem drop_of_some {c : Cache}
    (hsilent : ∀ {k value}, c.values.get? k = some value → value.farewell = []) {id : Nat}
    {handle : Handle} (hg : c.handles.get? id = some handle) :
    c.drop id = (c.letGo handle id).1.purge handle.key := by
  simp only [drop, run_cons, perform, hg, letGo_farewell hsilent handle id, List.map_nil,
    List.nil_append, List.append_nil, run_nil]

theorem liveAs?_purge {c : Cache} {key : CacheKey} {kind : Kind}
    (hl : c.liveAs? key kind = none) : (c.purge key).liveAs? key kind = none := by
  rcases purge_slots_get? c key key with hs | ⟨_, hs⟩
  · simpa only [liveAs?, live?, hs, purge_values] using hl
  · simp [liveAs?, live?, hs]

section
variable {ε : Type} {c : Cache} {key : CacheKey} {kind : Kind}
  {construct : Cache → Cache × Except ε kind.Value} {farewell : List Action}

theorem obtain_of_live {id : Nat} {v : kind.Value} (hl : c.liveAs? key kind = some (id, v)) :
    c.obtain key kind construct farewell =
      ((c.hold key id).1, .ok ⟨c.nextHandle, v⟩, false) := by
  simp only [obtain, find_of_live hl]

theorem obtain_of_error {c' : Cache} {e : ε} (hl : c.liveAs? key kind = none)
    (hc : construct (c.purge key) = (c', .error e)) :
    c.obtain key kind construct farewell = (c', .error e, true) := by
  simp only [obtain, find_of_none hl, hc]

theorem obtain_of_ok {c' : Cache} {v : kind.Value} (hl : c.liveAs? key kind = none)
    (hc : construct (c.purge key) = (c', .ok v)) :
    c.obtain key kind construct farewell =
      ((c'.keep key ⟨kind, v⟩ farewell).1, .ok (c'.keep key ⟨kind, v⟩ farewell).2, true) := by
  simp only [obtain, find_of_none hl, hc]

theorem keep_of_none {v : kind.Value} (hl : c.liveAs? key kind = none) :
    c.keep key ⟨kind, v⟩ farewell =
      ((c.register key ⟨kind, v⟩ farewell).1, ⟨c.nextHandle, v⟩) := by
  simp only [keep, settle, hl, List.map_nil, run_nil]
  rfl

/-- Obtaining a value in one call is what a session does that obtains it step by step. -/
theorem obtain_eq_run (e : ε) (content : Content) (construction : List Action)
    (succeeds : Bool) :
    (c.obtain key content.kind (fun c => (c.run (construction.map .act),
        if succeeds then .ok content.value else .error e)) farewell).1 =
      c.run [.act (.get key content construction succeeds farewell)] := by
  rw [run_cons]
  cases hl : c.liveAs? key content.kind with
  | some live =>
    obtain ⟨id, v⟩ := live
    simp only [obtain_of_live hl, perform, find_of_live hl, List.append_nil, run_nil]
  | none =>
    simp only [perform, find_of_none hl, List.append_nil, run_append]
    cases succeeds with
    | false =>
      rw [obtain_of_error hl rfl]
      exact (run_nil _).symm
    | true =>
      rw [obtain_of_ok hl rfl]
      simp only [keep, ↓reduceIte, run_cons, perform, List.append_nil]

end

/-- A cache at rest, whose values do nothing as they go and, for as long as they are held, all stand
to their keys as `P` says. -/
structure Keeps (P : CacheKey → Content → Prop) (c : Cache) : Prop where
  accounted : ∃ registered, Accounted c (fun _ => False) registered ∧
    ∀ r ∈ registered, c.HasHandle r.value → P r.key r.content
  silent : ∀ {id value}, c.values.get? id = some value → value.farewell = []

namespace Keeps

variable {P : CacheKey → Content → Prop} {c : Cache} {key : CacheKey} {kind : Kind}

theorem empty : Keeps P Cache.empty where
  accounted := ⟨[], .empty, by simp⟩
  silent := by intro id value hv; cases hv

theorem live (h : Keeps P c) {id : Nat} {v : kind.Value}
    (hl : c.liveAs? key kind = some (id, v)) : P key ⟨kind, v⟩ := by
  obtain ⟨registered, hacc, hP⟩ := h.accounted
  obtain ⟨r, hr, rfl, hc, hh⟩ := hacc.liveAs?_iff.mp hl
  obtain ⟨hm, rfl⟩ := latest?_mem hr
  exact hc ▸ hP r hm hh

/-- What is no longer held does not count, and nothing that was let go is held again. -/
theorem abandoned {c' : Cache} {owed : CacheKey → Prop} {registered : List Registration}
    (hP : ∀ r ∈ registered, c.HasHandle r.value → P r.key r.content)
    (hacc : Accounted c owed registered) (ha : c.Abandons c') :
    ∀ r ∈ registered, c'.HasHandle r.value → P r.key r.content :=
  fun r hr hh => hP r hr (ha r.value (hacc.registered_fresh r hr) hh)

theorem purge (h : Keeps P c) (key : CacheKey) : Keeps P (c.purge key) where
  accounted := by
    obtain ⟨registered, hacc, hP⟩ := h.accounted
    exact ⟨registered, (hacc.purge key).mono (fun _ ho => ho.2),
      abandoned hP hacc (purge_abandons c key)⟩
  silent := by
    intro id value hv
    exact h.silent (purge_values c key ▸ hv)

theorem hold_live (h : Keeps P c) {id : Nat} {v : kind.Value}
    (hl : c.liveAs? key kind = some (id, v)) : Keeps P (c.hold key id).1 where
  accounted := by
    obtain ⟨registered, hacc, hP⟩ := h.accounted
    obtain ⟨r, hr, rfl, _, hh⟩ := hacc.liveAs?_iff.mp hl
    obtain ⟨hm, rfl⟩ := latest?_mem hr
    exact ⟨registered, hacc.hold hm hh, abandoned hP hacc (hacc.hold_abandons r.key hh)⟩
  silent := h.silent

theorem share (h : Keeps P c) (id : Nat) : Keeps P (c.share id).1 where
  accounted := by
    obtain ⟨registered, hacc, hP⟩ := h.accounted
    exact ⟨registered, (hacc.share id).1, abandoned hP hacc (hacc.share id).2⟩
  silent := by
    intro id' value hv
    unfold Cache.share at hv
    split at hv
    · exact h.silent hv
    · exact h.silent hv

theorem register (h : Keeps P c) {content : Content} (hP : P key content) :
    Keeps P (c.register key content []).1 where
  accounted := by
    obtain ⟨registered, hacc, hall⟩ := h.accounted
    exact ⟨_, hacc.register key content [], List.forall_mem_cons.mpr ⟨fun _ => hP,
      abandoned hall hacc (hacc.register_abandons key content [])⟩⟩
  silent := by
    intro id value hv
    simp only [Cache.register, Cache.hold, Table.get?_set] at hv
    split at hv
    · obtain rfl := Option.some.inj hv
      rfl
    · exact h.silent hv

theorem drop (h : Keeps P c) (id : Nat) : Keeps P (c.drop id) := by
  obtain ⟨registered, hacc, hP⟩ := h.accounted
  cases hg : c.handles.get? id with
  | none =>
    rw [drop_of_none hg]
    exact h
  | some handle =>
    rw [drop_of_some h.silent hg]
    refine ⟨⟨registered, ((hacc.letGo hg).purge handle.key).mono ?_,
      abandoned (abandoned hP hacc (Accounted.letGo_abandons c handle id)) (hacc.letGo hg)
        (purge_abandons _ handle.key)⟩, ?_⟩
    · intro key hkey
      obtain ⟨hk, he | ho⟩ := hkey
      · exact hk he
      · exact ho
    · intro id' value hv
      exact h.silent (letGo_values (purge_values _ handle.key ▸ hv))

/-- It is enough to look at what the handles refer to. -/
theorem imp (h : Keeps P c) {Q : CacheKey → Content → Prop}
    (hQ : ∀ {handle key content}, c.key? handle = some key → P key content → Q key content) :
    Keeps Q c where
  accounted := by
    obtain ⟨registered, hacc, hP⟩ := h.accounted
    refine ⟨registered, hacc, fun r hr hh => ?_⟩
    have hheld := hP r hr hh
    obtain ⟨id, handle, hg, hv⟩ := hh
    obtain ⟨r', hr', hk, hv', _⟩ := hacc.handle_live hg
    obtain rfl := hacc.registration_eq hr' hr (hv'.trans hv)
    exact hQ (by rw [Cache.key?, hg, Option.map_some, hk]) hheld
  silent := h.silent

/-- A new handle has the key it was given for, and the old ones keep theirs. -/
theorem key?_hold (h : Keeps P c) (key : CacheKey) (value : Nat) :
    (c.hold key value).1.key? c.nextHandle = some key ∧
      ∀ {id k}, c.key? id = some k → (c.hold key value).1.key? id = some k := by
  obtain ⟨registered, hacc, _⟩ := h.accounted
  refine ⟨by simp [Cache.key?, Cache.hold, Table.get?_set], ?_⟩
  intro id k hk
  obtain ⟨handle, hg, rfl⟩ := Option.map_eq_some_iff.mp hk
  have := hacc.handle_fresh hg
  simp only [Cache.key?, Cache.hold, Table.get?_set]
  rw [if_neg (by omega), hg]
  rfl

/-- Where `P` says what the construction gives, obtaining a value gives the same whether it was
shared or constructed. -/
theorem obtain_spec (h : Keeps P c) (key : CacheKey) (kind : Kind) {ε : Type}
    {result : Except ε kind.Value} (hresult : ∀ v, result = .ok v ↔ P key ⟨kind, v⟩) :
    Keeps P (c.obtain key kind (fun c => (c, result)) []).1 ∧
      (c.obtain key kind (fun c => (c, result)) []).2.1.map Held.value = result ∧
      (∀ held, (c.obtain key kind (fun c => (c, result)) []).2.1 = .ok held →
        (c.obtain key kind (fun c => (c, result)) []).1.key? held.handle = some key) ∧
      ∀ {id k}, c.key? id = some k →
        (c.obtain key kind (fun c => (c, result)) []).1.key? id = some k := by
  cases hl : c.liveAs? key kind with
  | some live =>
    obtain ⟨id, v⟩ := live
    obtain ⟨hnew, hold⟩ := h.key?_hold key id
    rw [obtain_of_live hl]
    refine ⟨h.hold_live hl, ((hresult v).mpr (h.live hl)).symm, ?_, hold⟩
    intro held hheld
    cases hheld
    exact hnew
  | none =>
    have hp := h.purge key
    cases result with
    | error e =>
      rw [obtain_of_error hl rfl]
      refine ⟨hp, rfl, ?_, ?_⟩
      · intro held hheld
        cases hheld
      · intro id k hk
        rwa [Cache.key?, purge_handles]
    | ok v =>
      obtain ⟨hnew, hold⟩ := hp.key?_hold key (c.purge key).nextValue
      rw [obtain_of_ok hl rfl, keep_of_none (liveAs?_purge hl)]
      refine ⟨hp.register ((hresult v).mp rfl), rfl, ?_, ?_⟩
      · intro held hheld
        cases hheld
        exact hnew
      · intro id k hk
        exact hold (by rwa [Cache.key?, purge_handles])

end Keeps
end LayeredAssets.Cache
