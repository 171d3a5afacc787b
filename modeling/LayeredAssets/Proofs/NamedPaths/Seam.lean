import LayeredAssets.Proofs.NamedPaths.Expansion
import LayeredAssets.Proofs.Path.Normal

namespace LayeredAssets.NamedPaths

section
variable {named : NamedPaths} {source path : String} {k n : Nat}
  {front text next next' last : List Char}

theorem Replaces.exists_read (h : named.Replaces text next) : ∃ before name path after,
    read text = .name ⟨before, token name, after⟩ ∧
      named.registry.get? (String.ofList (token name)) = some path ∧
      next = before ++ (path.toList ++ after) := by
  obtain ⟨hb, hn, hp, after⟩ := h
  exact ⟨_, _, _, after, read_of_name hb hn after, hp, rfl⟩

theorem Replaces.unique (h : named.Replaces text next) (h' : named.Replaces text next') :
    next = next' := by
  obtain ⟨before, name, path, after, hr, hp, rfl⟩ := h.exists_read
  obtain ⟨before', name', path', after', hr', hp', rfl⟩ := h'.exists_read
  rw [hr] at hr'
  obtain ⟨rfl, hname, rfl⟩ := Cut.mk.inj (Reading.name.inj hr')
  rw [hname, hp'] at hp
  cases hp
  rfl

theorem Replaces.not_plain (h : named.Replaces text next) (hp : '\x7b' ∉ text) : False := by
  obtain ⟨hb, hn, -, after⟩ := h
  exact hp (by simp [token])

/-- Whoever replaces the first names gets what is left to replace: there is one way to go on. -/
theorem Expands.rest (h : named.Expands k text next) (hs : named.Expands n text last)
    (hp : '\x7b' ∉ last) : ∃ m, n = k + m ∧ named.Expands m next last := by
  induction h generalizing n with
  | done => exact ⟨n, (Nat.zero_add n).symm, hs⟩
  | step h _ ih =>
    cases hs with
    | done => exact (h.not_plain hp).elim
    | step h' hs =>
      rw [h'.unique h] at hs
      obtain ⟨m, rfl, hm⟩ := ih hs
      exact ⟨m, Nat.add_right_comm _ m 1, hm⟩

/-- No name begins where no brace opens, so all is replaced behind that. -/
theorem Replaces.behind (h : named.Replaces (front ++ text) next) (hf : '\x7b' ∉ front) :
    ∃ next', next = front ++ next' ∧ named.Replaces text next' := by
  generalize hwhole : front ++ text = whole at h
  obtain ⟨hb, hn, hp, after⟩ := h
  rcases List.append_eq_append_iff.mp hwhole with ⟨before, rfl, rfl⟩ | ⟨opened, rfl, htoken⟩
  · have hbefore : '\x7b' ∉ before := fun hm => hb (List.mem_append_right _ hm)
    exact ⟨_, List.append_assoc .., .intro hbefore hn hp after⟩
  · cases opened with
    | nil =>
      rw [List.nil_append] at htoken
      rw [← htoken, List.append_nil]
      exact ⟨_, rfl, .head hn hp after⟩
    | cons c opened =>
      obtain ⟨rfl, -⟩ := List.cons.inj htoken
      exact absurd (List.mem_append_right _ List.mem_cons_self) hf

theorem Expands.behind (h : named.Expands k (front ++ text) last) (hf : '\x7b' ∉ front) :
    ∃ last', last = front ++ last' ∧ named.Expands k text last' := by
  generalize hwhole : front ++ text = whole at h
  induction h generalizing text with
  | done => exact ⟨text, hwhole.symm, .done text⟩
  | step h _ ih =>
    subst hwhole
    obtain ⟨next, rfl, hr⟩ := h.behind hf
    obtain ⟨last', rfl, hs⟩ := ih rfl
    exact ⟨last', rfl, .step hr hs⟩

theorem resolve_eq_ok_iff : named.resolve source = .ok path ↔
    ∃ k < mostLooks, ∃ last, named.Expands k source.toList last ∧ '\x7b' ∉ last ∧
      Path.normalize (String.ofList last) = path := by
  constructor
  · intro h
    have ho := named.outcome_resolve source
    rw [h] at ho
    cases ho with
    | resolved hk hs hl => exact ⟨_, hk, _, hs, hl, rfl⟩
  · rintro ⟨k, hk, last, h, hl, rfl⟩
    exact (Outcome.resolved hk h hl).resolve_eq

theorem resolve_of_plain (named : NamedPaths) (h : '\x7b' ∉ source.toList) :
    named.resolve source = .ok (Path.normalize source) :=
  resolve_eq_ok_iff.mpr ⟨0, by decide, _, .done _, h, by rw [String.ofList_toList]⟩

end

/-- Both parts of a text are resolved as if they stood alone, and what was resolved stays so. -/
theorem resolve_parts (named : NamedPaths) :
    (∀ first second path both, named.resolve first = .ok path →
      named.resolve (first ++ second) = .ok both →
        ∃ rest, named.resolve second = .ok rest ∧ both = Path.normalize (path ++ rest)) ∧
      ∀ source path, named.resolve source = .ok path →
        '\x7b' ∉ path.toList ∧ '\\' ∉ path.toList ∧ ¬ ['/', '/'] <:+: path.toList ∧
          ∀ other : NamedPaths, other.resolve path = .ok path := by
  constructor
  · intro first second path both hfirst hboth
    obtain ⟨k, hk, last, hs, hplain, rfl⟩ := resolve_eq_ok_iff.mp hfirst
    obtain ⟨n, hn, whole, hwhole, hw, rfl⟩ := resolve_eq_ok_iff.mp hboth
    rw [String.toList_append] at hwhole
    have hfront : named.Expands k (first.toList ++ second.toList) (last ++ second.toList) :=
      hs.within List.not_mem_nil second.toList
    obtain ⟨m, rfl, hrest⟩ := hfront.rest hwhole hw
    obtain ⟨rest, rfl, hsecond⟩ := hrest.behind hplain
    have hrestplain : '\x7b' ∉ rest := fun hm => hw (List.mem_append_right _ hm)
    have hm : m < mostLooks := Nat.lt_of_le_of_lt (Nat.le_add_left m k) hn
    refine ⟨_, resolve_eq_ok_iff.mpr ⟨m, hm, rest, hsecond, hrestplain, rfl⟩, ?_⟩
    rw [Path.normalize_parts, String.ofList_append]
  · intro source path h
    obtain ⟨k, hk, last, hs, hplain, rfl⟩ := resolve_eq_ok_iff.mp h
    have hopen : '\x7b' ∉ (Path.normalize (String.ofList last)).toList := by
      rw [Path.normalize, String.toList_ofList, String.toList_ofList]
      intro hm
      exact hplain (Path.mem_of_mem_normalizeAfter hm rfl)
    refine ⟨hopen, ?_, ?_, ?_⟩
    · rw [Path.normalize, String.toList_ofList]
      intro hm
      have hslash : '\\' = '/' := Path.eq_slash_of_mem_normalizeAfter hm rfl
      cases hslash
    · rw [Path.normalize, String.toList_ofList]
      exact Path.no_double_slash false _
    · intro other
      rw [resolve_of_plain other hopen, Path.normalize_normalize]

/-- Two separators meet where the parts do. -/
theorem resolve_parts_meeting :
    lettered.resolve "\x7bA\x7d/" = .ok "a/" ∧
      lettered.resolve ("\x7bA\x7d/" ++ "\\\x7bA\x7d") = .ok "a/a" ∧
      (∃ rest, lettered.resolve "\\\x7bA\x7d" = .ok rest ∧
        "a/a" = Path.normalize ("a/" ++ rest)) ∧
      ∀ other : NamedPaths, other.resolve "a/a" = .ok "a/a" := by
  have hfirst : lettered.resolve "\x7bA\x7d/" = .ok "a/" := by rfl
  have hboth : lettered.resolve ("\x7bA\x7d/" ++ "\\\x7bA\x7d") = .ok "a/a" := by rfl
  obtain ⟨hparts, hclosed⟩ := resolve_parts lettered
  exact ⟨hfirst, hboth, hparts _ _ _ _ hfirst hboth, (hclosed _ _ hboth).2.2.2⟩

end LayeredAssets.NamedPaths
