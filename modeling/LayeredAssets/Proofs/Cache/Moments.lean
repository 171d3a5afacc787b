import LayeredAssets.Cache.Session
import LayeredAssets.Proofs.Cache.Accounted
import Mathlib.Data.Set.Card

namespace LayeredAssets

/-- A session between two steps: the cache, the steps that are due, and what has been registered,
newest first. -/
structure Moment where
  cache : Cache
  due : List Task
  registered : List Registration

namespace Moment
open Cache

def start (actions : List Action) : Moment := ⟨.empty, actions.map .act, []⟩

/-- What a step puts under a key. A constructed value counts only if it was kept. -/
def registers (c : Cache) : Task → List Registration
  | .act (.add key content _) => [⟨key, c.nextValue, content⟩]
  | .settle key content _ =>
    if (c.liveAs? key content.kind).isSome then [] else [⟨key, c.nextValue, content⟩]
  | _ => []

inductive Step : Moment → Moment → Prop where
  | perform (c : Cache) (task : Task) (due : List Task) (registered : List Registration) :
      Step ⟨c, task :: due, registered⟩
        ⟨(c.perform task).1, (c.perform task).2 ++ due, registers c task ++ registered⟩

inductive Leads (m : Moment) : Moment → Prop where
  | here : Leads m m
  | step {n p : Moment} (before : Leads m n) (next : Step n p) : Leads m p

theorem Leads.trans {m n p : Moment} (hn : Leads m n) (hp : Leads n p) : Leads m p := by
  induction hp with
  | here => exact hn
  | step _ next ih => exact ih.step next

/-- Nothing that is due is the rest of an operation: none is in progress, unless it be one that has
only whole operations left. -/
def Idle (m : Moment) : Prop := ∀ task ∈ m.due, ∃ action, task = .act action

/-- The value that was registered last under the key still has a handle. -/
def Lives (m : Moment) (key : CacheKey) (r : Registration) : Prop :=
  latest? m.registered key = some r ∧ m.cache.HasHandle r.value

def Owes (due : List Task) (key : CacheKey) : Prop := .purge key ∈ due

theorem owes_behind {task : Task} {due : List Task} (ht : ∀ key, task ≠ .purge key)
    (added : List Task) {key : CacheKey} (ho : Owes (task :: due) key) :
    Owes (added ++ due) key := by
  rcases List.mem_cons.mp ho with he | ho
  · exact absurd he.symm (ht key)
  · exact List.mem_append_right _ ho

theorem settle_accounted {c : Cache} {owed : CacheKey → Prop} {registered : List Registration}
    (h : Accounted c owed registered) (key : CacheKey) (content : Content)
    (farewell : List Action) :
    Accounted (c.settle key content farewell).1 owed
        (registers c (.settle key content farewell) ++ registered) ∧
      c.Abandons (c.settle key content farewell).1 := by
  simp only [registers, Cache.settle]
  cases hl : c.liveAs? key content.kind with
  | none => exact ⟨h.register key content farewell, h.register_abandons key content farewell⟩
  | some live =>
    obtain ⟨id, v⟩ := live
    obtain ⟨r, hr, rfl, _, hh⟩ := h.liveAs?_iff.mp hl
    obtain ⟨hm, rfl⟩ := latest?_mem hr
    exact ⟨h.hold hm hh, h.hold_abandons r.key hh⟩

/-- One step keeps the account. A handle that goes owes a purge, which is due behind the farewell;
only the purge itself settles that. -/
theorem perform_accounted {c : Cache} {task : Task} {due : List Task}
    {registered : List Registration} (h : Accounted c (Owes (task :: due)) registered) :
    Accounted (c.perform task).1 (Owes ((c.perform task).2 ++ due))
        (registers c task ++ registered) ∧
      c.Abandons (c.perform task).1 := by
  cases task with
  | act action =>
    have later : ∀ added, Accounted c (Owes (added ++ due)) registered :=
      fun added => h.mono fun _ => owes_behind (by intro _ he; cases he) added
    cases action with
    | add key content farewell =>
      exact ⟨(later []).register key content farewell, h.register_abandons key content farewell⟩
    | find key kind => exact (later []).find key kind
    | get key content construction succeeds farewell =>
      have hf := fun added => (later added).find key content.kind
      unfold Cache.perform
      dsimp only
      split
      · next hc =>
        rw [hc] at hf
        exact hf []
      · next hc =>
        rw [hc] at hf
        exact hf _
    | remove key =>
      exact ⟨((later []).purge key).mono (fun _ ho => ho.2), purge_abandons c key⟩
    | share id => exact (later []).share id
    | drop id =>
      unfold Cache.perform
      dsimp only
      split
      · exact ⟨later [], fun _ _ hv => hv⟩
      · next handle hg =>
        refine ⟨((later []).letGo hg).mono ?_, Accounted.letGo_abandons c handle id⟩
        intro key hkey
        rcases hkey with rfl | ho
        · exact List.mem_append_left _ (List.mem_append_right _ (List.mem_singleton.mpr rfl))
        · exact List.mem_append_right _ ho
    | observe key kind => exact ⟨(later []).observe key kind, purge_abandons c key⟩
  | settle key content farewell =>
    exact settle_accounted (h.mono fun _ => owes_behind (by intro _ he; cases he) _)
      key content farewell
  | purge key =>
    refine ⟨(h.purge key).mono ?_, purge_abandons c key⟩
    intro k hkey
    obtain ⟨hk, ho⟩ := hkey
    rcases List.mem_cons.mp ho with he | ho
    · cases he
      exact absurd rfl hk
    · exact ho

theorem Leads.accounted {m n : Moment} (hn : Leads m n)
    (h : Accounted m.cache (Owes m.due) m.registered) :
    Accounted n.cache (Owes n.due) n.registered := by
  induction hn with
  | here => exact h
  | step _ next ih =>
    cases next with
    | perform c task due registered => exact (perform_accounted ih).1

theorem leads_accounted {actions : List Action} {m : Moment} (hm : Leads (start actions) m) :
    Accounted m.cache (Owes m.due) m.registered :=
  hm.accounted (Accounted.empty.mono (fun _ => False.elim))

/-- A value without handles is never found again, neither by a farewell nor later. -/
theorem leads_abandons {actions : List Action} {m n : Moment} (hm : Leads (start actions) m)
    (hn : Leads m n) {r : Registration} (hr : r ∈ m.registered)
    (hh : ¬ m.cache.HasHandle r.value) : r ∈ n.registered ∧ ¬ n.cache.HasHandle r.value := by
  induction hn with
  | here => exact ⟨hr, hh⟩
  | step before next ih =>
    have hacc := leads_accounted (hm.trans before)
    cases next with
    | perform c task due registered =>
      obtain ⟨hmem, hgone⟩ := ih
      have hlt := hacc.registered_fresh r hmem
      exact ⟨List.mem_append_right _ hmem,
        fun hv => hgone ((perform_accounted hacc).2 r.value hlt hv)⟩

/-- Performing all that is due is what a run of the cache does, and what is due later waits. -/
theorem leads_run_before (c : Cache) (due later : List Task) (registered : List Registration) :
    ∃ registered', Leads ⟨c, due ++ later, registered⟩ ⟨c.run due, later, registered'⟩ := by
  induction c, due using Cache.run.induct generalizing registered with
  | case1 c =>
    rw [Cache.run]
    exact ⟨registered, .here⟩
  | case2 c task due _ ih =>
    obtain ⟨registered', hl⟩ := ih (registers c task ++ registered)
    rw [List.append_assoc] at hl
    rw [Cache.run]
    exact ⟨registered', (Leads.here.step (.perform c task (due ++ later) registered)).trans hl⟩

theorem leads_run (c : Cache) (due : List Task) (registered : List Registration) :
    ∃ registered', Leads ⟨c, due, registered⟩ ⟨c.run due, [], registered'⟩ := by
  have h := leads_run_before c due [] registered
  rwa [List.append_nil] at h

theorem slot_iff {m : Moment} (h : Accounted m.cache (Owes m.due) m.registered) (hi : m.Idle)
    (key : CacheKey) (id : Nat) :
    m.cache.slots.get? key = some id ↔ ∃ r, m.Lives key r ∧ r.value = id := by
  constructor
  · intro hs
    obtain ⟨r, hr, rfl⟩ := h.slot_latest hs
    refine ⟨r, ⟨hr, (h.dead_owed hs).resolve_right fun ho => ?_⟩, rfl⟩
    obtain ⟨action, he⟩ := hi _ ho
    cases he
  · intro hl
    obtain ⟨r, ⟨hr, hh⟩, rfl⟩ := hl
    exact h.latest_slot hr hh

theorem size_eq {m : Moment} (h : Accounted m.cache (Owes m.due) m.registered) (hi : m.Idle) :
    m.cache.size = {key | ∃ r, m.Lives key r}.ncard := by
  have hset : {key | ∃ r, m.Lives key r} = (m.cache.slots.keys.toFinset : Set CacheKey) := by
    ext key
    simp only [Set.mem_ofPred_eq, Finset.mem_coe, List.mem_toFinset, Table.mem_keys_iff,
      Option.isSome_iff_exists, slot_iff h hi]
    constructor
    · rintro ⟨r, hr⟩
      exact ⟨r.value, r, hr, rfl⟩
    · rintro ⟨id, r, hr, _⟩
      exact ⟨r, hr⟩
  rw [hset, Set.ncard_coe_finset, List.toFinset_card_of_nodup h.slots_distinct]
  simp [Cache.size, Table.size, Table.keys]

/-- The handle that is found refers to the very value that lives under the key. -/
theorem find_refers {m : Moment} (h : Accounted m.cache (Owes m.due) m.registered)
    {key : CacheKey} {kind : Kind} {held : Held kind}
    (hf : (m.cache.find key kind).2 = some held) :
    ∃ r, m.Lives key r ∧ r.content = ⟨kind, held.value⟩ ∧
      (m.cache.find key kind).1.handles.get? held.handle = some ⟨key, r.value⟩ := by
  cases hl : m.cache.liveAs? key kind with
  | none =>
    rw [find_of_none hl] at hf
    cases hf
  | some live =>
    obtain ⟨id, v⟩ := live
    obtain ⟨r, hr, rfl, hc, hh⟩ := h.liveAs?_iff.mp hl
    rw [find_of_live hl] at hf ⊢
    obtain rfl := Option.some.inj hf
    exact ⟨r, ⟨hr, hh⟩, hc, by simp [Cache.hold, Table.get?_set]⟩

theorem find_isSome_iff {m : Moment} (h : Accounted m.cache (Owes m.due) m.registered)
    (key : CacheKey) (kind : Kind) :
    (m.cache.find key kind).2.isSome = true ↔ ∃ r, m.Lives key r ∧ r.content.kind = kind := by
  constructor
  · intro hf
    obtain ⟨held, hf⟩ := Option.isSome_iff_exists.mp hf
    obtain ⟨r, hr, hc, _⟩ := find_refers h hf
    exact ⟨r, hr, by rw [hc]⟩
  · intro hl
    obtain ⟨r, ⟨hr, hh⟩, rfl⟩ := hl
    rw [find_of_live (h.liveAs?_iff.mpr ⟨r, hr, rfl, rfl, hh⟩)]
    rfl

/-- Whatever a session does, in constructions and farewells too, it comes to an end, and at every
moment of it: while no operation is in progress the slots are those of the values that were
registered last and still have a handle; what is found is such a value, of the kind that was asked
for; and a value that has lost its last handle is found by nobody from then on. -/
theorem slots_remember_held (actions : List Action) :
    (∃ m, Leads (start actions) m ∧ m.due = [] ∧ m.cache = Cache.empty.run (actions.map .act)) ∧
    ∀ m, Leads (start actions) m →
      (m.Idle →
        (∀ key id, m.cache.slots.get? key = some id ↔ ∃ r, m.Lives key r ∧ r.value = id) ∧
        m.cache.size = {key | ∃ r, m.Lives key r}.ncard) ∧
      (∀ key kind, (m.cache.find key kind).2.isSome = true ↔
        ∃ r, m.Lives key r ∧ r.content.kind = kind) ∧
      (∀ key kind held, (m.cache.find key kind).2 = some held →
        ∃ r, m.Lives key r ∧ r.content = ⟨kind, held.value⟩ ∧
          (m.cache.find key kind).1.handles.get? held.handle = some ⟨key, r.value⟩) ∧
      ∀ r ∈ m.registered, ¬ m.cache.HasHandle r.value →
        ∀ n, Leads m n → ∀ key kind held, (n.cache.find key kind).2 = some held →
          (n.cache.find key kind).1.handles.get? held.handle ≠ some ⟨key, r.value⟩ := by
  refine ⟨?_, fun m hm => ?_⟩
  · obtain ⟨registered, hl⟩ := leads_run .empty (actions.map .act) []
    exact ⟨_, hl, rfl, rfl⟩
  · have hacc := leads_accounted hm
    refine ⟨fun hi => ⟨slot_iff hacc hi, size_eq hacc hi⟩, find_isSome_iff hacc,
      fun key kind held hf => find_refers hacc hf, ?_⟩
    intro r hr hh n hn key kind held hf he
    obtain ⟨_, hgone⟩ := leads_abandons hm hn hr hh
    obtain ⟨r', ⟨_, hh'⟩, _, hg⟩ := find_refers (leads_accounted (hm.trans hn)) hf
    have hv : r'.value = r.value := congrArg Handle.value (Option.some.inj (hg.symm.trans he))
    exact hgone (hv ▸ hh')

/-- A number whose farewell looks for it, and a text that takes its key afterwards. -/
def replacing : List Action :=
  [.add (.ofArchive "AePc" "R1.LVL") ⟨.number, 1⟩ [.observe (.ofArchive "AePc" "R1.LVL") .number],
    .drop 0, .add (.ofArchive "AePc" "R1.LVL") ⟨.text, "two"⟩ []]

/-- The moment before the farewell: the handle is gone, and the purge waits behind the look. -/
def parting : Moment :=
  ⟨⟨⟨[(.ofArchive "AePc" "R1.LVL", 0)]⟩, .empty, .empty, 1, 1, []⟩,
    [.act (.observe (.ofArchive "AePc" "R1.LVL") .number), .purge (.ofArchive "AePc" "R1.LVL"),
      .act (.add (.ofArchive "AePc" "R1.LVL") ⟨.text, "two"⟩ [])],
    [⟨.ofArchive "AePc" "R1.LVL", 0, ⟨.number, 1⟩⟩]⟩

theorem leads_parting : Leads (start replacing) parting :=
  (Leads.here.step (.perform _ _ _ _)).step (.perform _ _ _ _)

theorem slots_remember_held_replacing : Leads (start replacing) parting ∧
    ¬ parting.cache.HasHandle 0 ∧ ∃ n held, Leads parting n ∧ n.Idle ∧
      n.cache.size = {key | ∃ r, n.Lives key r}.ncard ∧
      (n.cache.find (.ofArchive "AePc" "R1.LVL") .text).2 = some held ∧
      (n.cache.find (.ofArchive "AePc" "R1.LVL") .text).1.handles.get? held.handle ≠
        some ⟨.ofArchive "AePc" "R1.LVL", 0⟩ := by
  have hgone : ¬ parting.cache.HasHandle 0 := by rintro ⟨id, h, ⟨⟩, _⟩
  have hn := ((Leads.here (m := parting)).step (.perform _ _ _ _)).step (.perform _ _ _ _)
    |>.step (.perform _ _ _ _)
  have hslots := (slots_remember_held replacing).2 _ (leads_parting.trans hn)
  have hnever := ((slots_remember_held replacing).2 _ leads_parting).2.2.2 _ List.mem_cons_self
    hgone _ hn
  exact ⟨leads_parting, hgone, _, ⟨2, "two"⟩, hn, by rintro _ ⟨⟩,
    (hslots.1 (by rintro _ ⟨⟩)).2, rfl, hnever _ _ _ rfl⟩

end Moment
end LayeredAssets
