import LayeredAssets.Proofs.Except
import LayeredAssets.Proofs.Locator.Uncached

namespace LayeredAssets

namespace Verdict

variable {α β γ : Type}

/-- The first candidate that is not passed over ends the search, for good or for ill, whatever
comes behind it. -/
inductive Decides (passes : β → Prop) (ends : β → Option α → Prop) : List β → Option α → Prop where
  | exhausted : Decides passes ends [] none
  | passed {c : β} {rest : List β} {outcome : Option α} (skipped : passes c)
      (later : Decides passes ends rest outcome) : Decides passes ends (c :: rest) outcome
  | ended {c : β} {rest : List β} {outcome : Option α} (ending : ends c outcome) :
      Decides passes ends (c :: rest) outcome

/-- Either all candidates are passed over, or one is the first that is not. -/
theorem passed_or_first (passes : β → Prop) (candidates : List β) :
    (∀ c ∈ candidates, passes c) ∨ ∃ before c after,
      candidates = before ++ c :: after ∧ (∀ b ∈ before, passes b) ∧ ¬ passes c := by
  induction candidates with
  | nil => exact Or.inl fun c hc => absurd hc List.not_mem_nil
  | cons first rest ih =>
    by_cases hf : passes first
    · obtain hall | ⟨before, c, after, rfl, hb, hc⟩ := ih
      · exact Or.inl (List.forall_mem_cons.mpr ⟨hf, hall⟩)
      · exact Or.inr ⟨first :: before, c, after, rfl, List.forall_mem_cons.mpr ⟨hf, hb⟩, hc⟩
    · exact Or.inr ⟨[], first, rest, rfl, by simp, hf⟩

/-- What is found is what some candidate ends the search with. -/
theorem Decides.of_some {passes : β → Prop} {ends : β → Option α → Prop} {candidates : List β}
    {outcome : Option α} (h : Decides passes ends candidates outcome) {found : α}
    (hf : outcome = some found) : ∃ c ∈ candidates, ends c (some found) := by
  induction h with
  | exhausted => cases hf
  | passed _ _ ih =>
    obtain ⟨c, hm, hc⟩ := ih hf
    exact ⟨c, List.mem_cons_of_mem _ hm, hc⟩
  | ended ending => exact ⟨_, List.mem_cons_self, hf ▸ ending⟩

/-- A search that judges each candidate by these rules, which leave none of them open, finds what
they say and nothing else. -/
theorem pick_eq_iff_decides {appraise : β → Verdict α} {passes : β → Prop}
    {ends : β → Option α → Prop} {candidates : List β}
    (hpass : ∀ c ∈ candidates, passes c → appraise c = .passOver)
    (hend : ∀ c ∈ candidates, ∀ outcome, ends c outcome →
      appraise c = outcome.elim .refuse .settle)
    (htotal : ∀ c ∈ candidates, passes c ∨ ∃ outcome, ends c outcome) (outcome : Option α) :
    pick appraise candidates = outcome ↔ Decides passes ends candidates outcome := by
  induction candidates generalizing outcome with
  | nil =>
    constructor
    · rintro rfl
      exact .exhausted
    · intro h
      cases h
      rfl
  | cons c rest ih =>
    have hrest := ih (fun c hm => hpass c (List.mem_cons_of_mem _ hm))
      (fun c hm => hend c (List.mem_cons_of_mem _ hm))
      (fun c hm => htotal c (List.mem_cons_of_mem _ hm))
    have hover : passes c → pick appraise (c :: rest) = pick appraise rest := by
      intro skipped
      rw [pick, hpass c List.mem_cons_self skipped]
    have hends : ∀ o, ends c o → pick appraise (c :: rest) = o := by
      intro o ending
      rw [pick, hend c List.mem_cons_self o ending]
      cases o <;> rfl
    constructor
    · rintro rfl
      obtain skipped | ⟨o, ending⟩ := htotal c List.mem_cons_self
      · rw [hover skipped]
        exact .passed skipped ((hrest _).mp rfl)
      · rw [hends o ending]
        exact .ended ending
    · intro h
      cases h with
      | passed skipped later => rw [hover skipped, (hrest outcome).mpr later]
      | ended ending => exact hends outcome ending

/-- Only what the candidates of a search do to it matters. -/
theorem pick_congr {appraise judge : β → Verdict α} {candidates : List β}
    (h : ∀ c ∈ candidates, appraise c = judge c) :
    pick appraise candidates = pick judge candidates := by
  induction candidates with
  | nil => rfl
  | cons c rest ih =>
    obtain ⟨hc, hrest⟩ := List.forall_mem_cons.mp h
    rw [pick, pick, hc, ih hrest]

/-- What the first candidate does that is not passed over. -/
def foremost (appraise : β → Verdict α) : List β → Verdict α
  | [] => passOver
  | candidate :: rest =>
    match appraise candidate with
    | passOver => foremost appraise rest
    | settle found => settle found
    | refuse => refuse

variable {appraise : β → Verdict α} {candidates : List β}

theorem foremost_append (h : ∀ c ∈ candidates, appraise c = passOver) (more : List β) :
    foremost appraise (candidates ++ more) = foremost appraise more := by
  induction candidates with
  | nil => rfl
  | cons c rest ih =>
    obtain ⟨hc, hrest⟩ := List.forall_mem_cons.mp h
    rw [List.cons_append, foremost, hc]
    exact ih hrest

theorem foremost_of_passed (h : ∀ c ∈ candidates, appraise c = passOver) :
    foremost appraise candidates = passOver := by
  rw [← List.append_nil candidates, foremost_append h, foremost]

theorem foremost_cons {c : β} {outcome : Option α} (h : appraise c = outcome.elim refuse settle)
    (rest : List β) : foremost appraise (c :: rest) = outcome.elim refuse settle := by
  rw [foremost, h]
  cases outcome <;> rfl

theorem foremost_singleton (c : β) : foremost appraise [c] = appraise c := by
  rw [foremost]
  cases appraise c <;> rfl

theorem pick_map (f : γ → β) (candidates : List γ) :
    pick appraise (candidates.map f) = pick (fun c => appraise (f c)) candidates := by
  induction candidates with
  | nil => rfl
  | cons c rest ih => rw [List.map_cons, pick, pick, ih]

theorem pick_map_found (f : α → γ) (candidates : List β) :
    pick (fun c => (appraise c).map f) candidates = (pick appraise candidates).map f := by
  induction candidates with
  | nil => rfl
  | cons c rest ih =>
    rw [pick, pick]
    cases appraise c with
    | passOver => exact ih
    | settle found => rfl
    | refuse => rfl

theorem pick_append (first second : List β) : pick appraise (first ++ second) =
    match foremost appraise first with
    | passOver => pick appraise second
    | settle found => some found
    | refuse => none := by
  induction first with
  | nil => rfl
  | cons c rest ih =>
    rw [List.cons_append, pick, foremost]
    cases appraise c with
    | passOver => exact ih
    | settle found => rfl
    | refuse => rfl

/-- Candidates that come in groups are searched group by group. -/
theorem pick_flatMap (f : γ → List β) (groups : List γ) :
    pick appraise (groups.flatMap f) = pick (fun g => foremost appraise (f g)) groups := by
  induction groups with
  | nil => rfl
  | cons g rest ih =>
    rw [List.flatMap_cons, pick_append, ih]
    cases h : foremost appraise (f g) <;> rw [pick, h]

theorem pick_of_foremost {found : α} (h : foremost appraise candidates = settle found) :
    pick appraise candidates = some found := by
  rw [← List.append_nil candidates, pick_append, h]

end Verdict

namespace Locator

/-- The archive is not there, or it cannot be opened or loaded. -/
inductive Closed (l : Locator) (host : Host) (s : ActiveSet) (name : String) : Prop where
  | missing (absent : s.backend.isFile host name = false)
  | unopenable {fault : Fault} (fails : s.backend.openFile host name = .error fault)
  | unloadable {stream : Stream} {fault : Fault}
      (opens : s.backend.openFile host name = .ok stream)
      (fails : l.loader name stream = .error fault)

/-- The archive is there and can be opened and loaded. -/
structure Opened (l : Locator) (host : Host) (s : ActiveSet) (name : String) (archive : Archive) :
    Prop where
  present : s.backend.isFile host name = true
  loads : ∃ stream, s.backend.openFile host name = .ok stream ∧
    l.loader name stream = .ok archive

/-- The file is there and opens. -/
structure Streams (host : Host) (b : Backend) (file : String) (stream : Stream) : Prop where
  present : b.isFile host file = true
  opens : b.openFile host file = .ok stream

section
variable {l : Locator} {host : Host} {s : ActiveSet} {name : String}

theorem load_of_opens {stream : Stream} (h : s.backend.openFile host name = .ok stream) :
    l.load host s name = l.loader name stream := by
  unfold load
  rw [h]
  rfl

theorem load_of_unopenable {fault : Fault} (h : s.backend.openFile host name = .error fault) :
    l.load host s name = .error fault := by
  unfold load
  rw [h]
  rfl

theorem Opened.archive? {archive : Archive} (h : l.Opened host s name archive) :
    l.archive? host s name = some archive := by
  obtain ⟨stream, hopens, hloads⟩ := h.loads
  rw [Locator.archive?, if_pos h.present, load_of_opens hopens, hloads]
  rfl

theorem Closed.archive? (h : l.Closed host s name) : l.archive? host s name = none := by
  rw [Locator.archive?]
  split
  · next hp =>
    cases h with
    | missing absent => exact absurd hp (by simp [absent])
    | unopenable fails =>
      rw [load_of_unopenable fails]
      rfl
    | unloadable opens fails =>
      rw [load_of_opens opens, fails]
      rfl
  · rfl

theorem closed_or_opened (l : Locator) (host : Host) (s : ActiveSet) (name : String) :
    l.Closed host s name ∨ ∃ archive, l.Opened host s name archive := by
  cases hp : s.backend.isFile host name with
  | false => exact Or.inl (.missing hp)
  | true =>
    cases ho : s.backend.openFile host name with
    | error fault => exact Or.inl (.unopenable ho)
    | ok stream =>
      cases hl : l.loader name stream with
      | error fault => exact Or.inl (.unloadable ho hl)
      | ok archive => exact Or.inr ⟨archive, hp, stream, ho, hl⟩

theorem archive?_eq_some_iff {archive : Archive} :
    l.archive? host s name = some archive ↔ l.Opened host s name archive := by
  constructor
  · intro h
    obtain hclosed | ⟨other, hopened⟩ := closed_or_opened l host s name
    · rw [hclosed.archive?] at h
      cases h
    · rw [hopened.archive?] at h
      exact Option.some.inj h ▸ hopened
  · exact Opened.archive?

theorem stream?_eq_some_iff {b : Backend} {file : String} {stream : Stream} :
    stream? host b file = some stream ↔ Streams host b file stream := by
  unfold stream?
  split
  · next hp =>
    rw [Except.toOption_eq_some_iff]
    exact ⟨fun h => ⟨hp, h⟩, Streams.opens⟩
  · next hp =>
    constructor
    · intro h
      cases h
    · intro h
      exact absurd h.present hp

theorem stream?_eq_none_iff {b : Backend} {file : String} :
    stream? host b file = none ↔ ∀ stream, ¬ Streams host b file stream := by
  rw [Option.eq_none_iff_forall_ne_some]
  exact forall_congr' fun stream => not_congr stream?_eq_some_iff

end
end Locator
end LayeredAssets
