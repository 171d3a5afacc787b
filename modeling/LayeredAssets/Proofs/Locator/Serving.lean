import LayeredAssets.Proofs.Cache.Runs
import LayeredAssets.Proofs.Locator.Uncached

namespace LayeredAssets

namespace Verdict

variable {σ β α γ : Type} {I : σ → Prop} {judge : σ → β → σ × Verdict α} {candidates : List β}

/-- A search that judges each candidate like `appraise`, whatever came before, finds what `pick`
finds. What was found may be looked at in the state that it was found in. -/
theorem first_eq_pick (appraise : β → Verdict γ) (view : σ → α → γ)
    (hj : ∀ s, I s → ∀ b ∈ candidates,
      I (judge s b).1 ∧ (judge s b).2.map (view (judge s b).1) = appraise b)
    {s : σ} (hs : I s) :
    I (first judge s candidates).1 ∧
      (first judge s candidates).2.map (view (first judge s candidates).1) =
        pick appraise candidates := by
  induction candidates generalizing s with
  | nil => exact ⟨hs, rfl⟩
  | cons b rest ih =>
    obtain ⟨hi, hv⟩ := hj s hs b List.mem_cons_self
    have hrest := ih (fun s hs b hb => hj s hs b (List.mem_cons_of_mem _ hb)) hi
    rw [first, pick, ← hv]
    generalize judge s b = judged at hi hrest ⊢
    obtain ⟨s', _ | found | _⟩ := judged
    · exact hrest
    · exact ⟨hi, rfl⟩
    · exact ⟨hi, rfl⟩

theorem first_eq_pick_self {appraise : β → Verdict α}
    (hj : ∀ s, I s → ∀ b ∈ candidates, I (judge s b).1 ∧ (judge s b).2 = appraise b)
    {s : σ} (hs : I s) :
    I (first judge s candidates).1 ∧
      (first judge s candidates).2 = pick appraise candidates := by
  have hmap : ∀ v : Verdict α, v.map (fun a => a) = v := by
    intro v
    cases v <;> rfl
  have h := first_eq_pick appraise (fun _ a => a)
    (fun s hs b hb => ⟨(hj s hs b hb).1, (hmap _).trans (hj s hs b hb).2⟩) hs
  simpa using h

end Verdict

namespace Locator

/-- What the active data sets hold under a key: an archive as it loads, or a chunk of a file of
one. -/
inductive Genuine (l : Locator) (host : Host) : CacheKey → Content → Prop where
  | archive {s : ActiveSet} {name : String} {archive : Archive} (active : s ∈ l.active)
      (loads : l.load host s name = .ok archive) :
      Genuine l host (.ofArchive s.name name) ⟨.archive, archive⟩
  | chunk {s : ActiveSet} {name file : String} {archive : Archive} {sub : SubFile} {id : UInt32}
      {chunk : Chunk} (active : s ∈ l.active) (loads : l.load host s name = .ok archive)
      (contained : archive.file? file = some sub) (present : sub.withId? id = some chunk) :
      Genuine l host (.ofChunk s.name name file id) ⟨.chunk, chunk⟩

/-- The locator differs from the first one in what it has shared only, and all that is shared is
what the known data sets hold. A key names a data set, so their names must tell them apart. Those
that are known but not active may have been active before. -/
structure Serves (known : List ActiveSet) (base : Locator) (host : Host) (l : Locator) :
    Prop where
  distinct : (known.map ActiveSet.name).Nodup
  included : base.active ⊆ known
  setup : l = { base with cache := l.cache, loads := l.loads }
  keeps : l.cache.Keeps ((base.setActive known).Genuine host)

theorem chunkOf_ok_iff {name : String} {file : SubFile} {id : UInt32} {chunk : Chunk} :
    chunkOf name file id = .ok chunk ↔ file.withId? id = some chunk := by
  unfold chunkOf
  split
  · next chunk' h => rw [h]; simp
  · next h => rw [h]; simp

section
variable {known : List ActiveSet} {base l : Locator} {host : Host} {s : ActiveSet} {name : String}

theorem set_eq (hd : (base.active.map ActiveSet.name).Nodup) {a b : ActiveSet}
    (ha : a ∈ base.active) (hb : b ∈ base.active) (he : a.name = b.name) : a = b :=
  List.inj_on_of_nodup_map hd ha hb he

theorem load_ok_iff (hd : (base.active.map ActiveSet.name).Nodup) (hs : s ∈ base.active)
    (archive : Archive) : base.load host s name = .ok archive ↔
      base.Genuine host (.ofArchive s.name name) ⟨.archive, archive⟩ := by
  constructor
  · exact .archive hs
  · intro hg
    generalize hk : CacheKey.ofArchive s.name name = key at hg
    cases hg with
    | archive ha hl =>
      simp only [CacheKey.ofArchive, CacheKey.mk.injEq, and_true] at hk
      obtain ⟨hn, rfl⟩ := hk
      exact set_eq hd hs ha hn ▸ hl

theorem chunk_ok_iff (hd : (base.active.map ActiveSet.name).Nodup) (hs : s ∈ base.active)
    {archive : Archive} {file : String} {sub : SubFile} {id : UInt32}
    (hl : base.load host s name = .ok archive) (hf : archive.file? file = some sub)
    (chunk : Chunk) : chunkOf file sub id = .ok chunk ↔
      base.Genuine host (.ofChunk s.name name file id) ⟨.chunk, chunk⟩ := by
  rw [chunkOf_ok_iff]
  constructor
  · exact .chunk hs hl hf
  · intro hg
    generalize hk : CacheKey.ofChunk s.name name file id = key at hg
    cases hg with
    | chunk ha hl' hf' hp =>
      simp only [CacheKey.ofChunk, CacheKey.mk.injEq, Option.some.injEq] at hk
      obtain ⟨hn, rfl, rfl, rfl⟩ := hk
      obtain rfl := set_eq hd hs ha hn
      obtain rfl := Except.ok.inj (hl.symm.trans hl')
      obtain rfl := Option.some.inj (hf.symm.trans hf')
      exact hp

theorem archive?_eq_some {archive : Archive} (h : base.archive? host s name = some archive) :
    base.load host s name = .ok archive := by
  unfold archive? at h
  split at h
  · cases hl : base.load host s name with
    | error fault =>
      rw [hl] at h
      cases h
    | ok loaded =>
      rw [hl] at h
      exact congrArg Except.ok (Option.some.inj h)
  · cases h

namespace Serves

theorem fresh (hd : (known.map ActiveSet.name).Nodup) (hc : base.cache = .empty)
    (hk : base.active = known) : Serves known base host base where
  distinct := hd
  included := hk ▸ List.Subset.refl _
  setup := rfl
  keeps := hc ▸ .empty

theorem withCache (h : Serves known base host l) {c : Cache}
    (hc : c.Keeps ((base.setActive known).Genuine host)) (loads : Nat) :
    Serves known base host { l with cache := c, loads := loads } where
  distinct := h.distinct
  included := h.included
  setup := by rw [h.setup]
  keeps := hc

theorem known_of_active (h : Serves known base host l) (hs : s ∈ base.active) :
    s ∈ (base.setActive known).active := h.included hs

theorem map_eq (h : Serves known base host l) : l.map = base.map := by rw [h.setup]

theorem active_eq (h : Serves known base host l) : l.active = base.active := by rw [h.setup]

theorem gameFiles_eq (h : Serves known base host l) : l.gameFiles = base.gameFiles := by
  rw [h.setup]

theorem load_eq (h : Serves known base host l) : l.load host s name = base.load host s name := by
  rw [h.setup]
  rfl

theorem release (h : Serves known base host l) (handle : Nat) :
    Serves known base host (l.release handle) :=
  h.withCache (h.keeps.drop handle) l.loads

theorem share (h : Serves known base host l) (handle : Nat) :
    Serves known base host { l with cache := (l.cache.share handle).1 } :=
  h.withCache (h.keeps.share handle) l.loads

/-- What is obtained is genuine and has the key that it was obtained for, and the handles that were
there keep their keys. -/
theorem obtain (h : Serves known base host l) {key : CacheKey} (kind : Kind)
    {result : Except Fault kind.Value}
    (hresult : ∀ v, result = .ok v ↔ (base.setActive known).Genuine host key ⟨kind, v⟩)
    (loads : Nat) :
    Serves known base host
        { l with
          cache := (l.cache.obtain key kind (fun c => (c, result)) []).1
          loads := loads } ∧
      (l.cache.obtain key kind (fun c => (c, result)) []).2.1.toOption.map Held.value =
        result.toOption ∧
      (∀ held, (l.cache.obtain key kind (fun c => (c, result)) []).2.1.toOption = some held →
        (l.cache.obtain key kind (fun c => (c, result)) []).1.key? held.handle = some key) ∧
      ∀ {handle k}, l.cache.key? handle = some k →
        (l.cache.obtain key kind (fun c => (c, result)) []).1.key? handle = some k := by
  obtain ⟨hkeeps, hvalue, hkey, hold⟩ := h.keeps.obtain_spec key kind hresult
  refine ⟨h.withCache hkeeps loads, ?_, ?_, hold⟩
  · generalize l.cache.obtain key kind (fun c => (c, result)) [] = answer at hvalue ⊢
    rw [← hvalue]
    cases answer.2.1 <;> rfl
  · intro held hheld
    generalize l.cache.obtain key kind (fun c => (c, result)) [] = answer at hkey hheld ⊢
    obtain ⟨cache, fault | found, constructed⟩ := answer
    · cases hheld
    · cases hheld
      exact hkey _ rfl

/-- An archive that is shared is the one that would be loaded. -/
theorem openArchive (h : Serves known base host l) (hs : s ∈ base.active) (name : String) :
    Serves known base host (l.openArchive host s name).1 ∧
      (l.openArchive host s name).2.map Held.value = base.archive? host s name ∧
      ∀ held, (l.openArchive host s name).2 = some held →
        (l.openArchive host s name).1.cache.key? held.handle =
          some (.ofArchive s.name name) := by
  have hresult : ∀ v, l.load host s name = .ok v ↔
      (base.setActive known).Genuine host (.ofArchive s.name name) ⟨.archive, v⟩ := by
    intro v
    rw [h.load_eq]
    exact load_ok_iff h.distinct (h.known_of_active hs) v
  unfold Locator.openArchive archive?
  split
  · obtain ⟨hserves, hvalue, hkey, _⟩ := h.obtain .archive hresult _
    rw [← h.load_eq]
    exact ⟨hserves, hvalue, hkey⟩
  · exact ⟨h, rfl, by intro held hheld; cases hheld⟩

/-- Looking at the files of an archive that is let go afterwards. -/
theorem withArchive (h : Serves known base host l) (hs : s ∈ base.active) (name : String)
    {α : Type} {judge : Locator → Archive → Locator × Verdict α} {appraise : Archive → Verdict α}
    (hj : ∀ l archive, Serves known base host l →
      Serves known base host (judge l archive).1 ∧ (judge l archive).2 = appraise archive) :
    Serves known base host (l.withArchive host s name judge).1 ∧
      (l.withArchive host s name judge).2 =
        match base.archive? host s name with
        | none => .passOver
        | some archive => appraise archive := by
  obtain ⟨ho, hv, _⟩ := h.openArchive hs name
  rw [← hv]
  unfold Locator.withArchive
  generalize l.openArchive host s name = opened at ho ⊢
  obtain ⟨l', _ | held⟩ := opened
  · exact ⟨ho, rfl⟩
  · obtain ⟨hl, hverdict⟩ := hj l' held.value ho
    exact ⟨hl.release held.handle, hverdict⟩

end Serves
end
end Locator
end LayeredAssets
