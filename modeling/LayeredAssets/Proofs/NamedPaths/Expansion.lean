import LayeredAssets.NamedPaths
import Mathlib.Data.List.TakeWhile

namespace LayeredAssets.NamedPaths

/-- A name as a text holds it, in its braces. -/
def token (name : List Char) : List Char := '\x7b' :: (name ++ ['\x7d'])

/-- The first brace that opens is one of `name`, and the first one after it that closes ends it. A
brace may open in a name, none closes in it. -/
inductive Leftmost (name : List Char) : List Char → Prop
  | intro {before : List Char} (hb : '\x7b' ∉ before) (hn : '\x7d' ∉ name) (after : List Char) :
    Leftmost name (before ++ (token name ++ after))

/-- The first brace that opens is never closed. -/
inductive Unterminated : List Char → Prop
  | intro {before rest : List Char} (hb : '\x7b' ∉ before) (hr : '\x7d' ∉ rest) :
    Unterminated (before ++ '\x7b' :: rest)

/-- The leftmost name gives way to its path. -/
inductive Replaces (named : NamedPaths) : List Char → List Char → Prop
  | intro {before name : List Char} {path : String} (hb : '\x7b' ∉ before) (hn : '\x7d' ∉ name)
    (hp : named.registry.get? (String.ofList (token name)) = some path) (after : List Char) :
    Replaces named (before ++ (token name ++ after)) (before ++ (path.toList ++ after))

/-- So many replacements, one after the other. -/
inductive Expands (named : NamedPaths) : Nat → List Char → List Char → Prop
  | done (text : List Char) : Expands named 0 text text
  | step {k : Nat} {text next last : List Char} (h : named.Replaces text next)
    (hs : named.Expands k next last) : Expands named (k + 1) text last

/-- The leftmost name is not known. -/
def Lacks (named : NamedPaths) (name text : List Char) : Prop :=
  Leftmost name text ∧ named.registry.get? (String.ofList (token name)) = none

/-- Replacing a name, and then what is leftmost, comes back to it. -/
def Recurs (named : NamedPaths) (name : List Char) : Prop :=
  ∃ k last, named.Expands (k + 1) (token name) last ∧ Leftmost name last

section
variable {named : NamedPaths} {source : String} {c : Char} {k n looks : Nat}
  {before name after rest text next last : List Char} {path : String}

theorem bne_of_notMem (h : c ∉ text) : ∀ d ∈ text, (d != c) = true := by
  intro d hd
  rw [bne_iff_ne]
  rintro rfl
  exact h hd

theorem takeWhile_before (h : c ∉ before) (rest : List Char) :
    (before ++ c :: rest).takeWhile (· != c) = before := by
  rw [List.takeWhile_append_of_pos (bne_of_notMem h)]
  simp

theorem dropWhile_before (h : c ∉ before) (rest : List Char) :
    (before ++ c :: rest).dropWhile (· != c) = c :: rest := by
  rw [List.dropWhile_append_of_pos (bne_of_notMem h)]
  simp

theorem dropWhile_of_notMem (h : c ∉ text) : text.dropWhile (· != c) = [] :=
  List.dropWhile_eq_nil_iff.mpr (bne_of_notMem h)

theorem read_of_plain (h : '\x7b' ∉ text) : read text = .plain := by
  simp [read, dropWhile_of_notMem h]

theorem read_of_unterminated (h : Unterminated text) : read text = .unterminated := by
  obtain ⟨hb, hr⟩ := h
  have hclose : '\x7d' ∉ '\x7b' :: _ := List.not_mem_cons_of_ne_of_not_mem (by decide) hr
  simp [read, dropWhile_before hb, dropWhile_of_notMem hclose]

theorem read_of_name (hb : '\x7b' ∉ before) (hn : '\x7d' ∉ name) (after : List Char) :
    read (before ++ (token name ++ after)) = .name ⟨before, token name, after⟩ := by
  have htext : token name ++ after = '\x7b' :: (name ++ '\x7d' :: after) := by simp [token]
  have hopen : '\x7d' ∉ '\x7b' :: name := List.not_mem_cons_of_ne_of_not_mem (by decide) hn
  have hrest : '\x7b' :: (name ++ '\x7d' :: after) = ('\x7b' :: name) ++ '\x7d' :: after := rfl
  rw [htext, read]
  simp only [takeWhile_before hb, dropWhile_before hb]
  rw [hrest, dropWhile_before hopen, takeWhile_before hopen]
  rfl

/-- There is nothing else that a text can be. -/
theorem plain_or_unterminated_or_leftmost (text : List Char) :
    '\x7b' ∉ text ∨ Unterminated text ∨ ∃ name, Leftmost name text := by
  by_cases hopen : '\x7b' ∈ text
  · obtain ⟨before, rest, rfl, hb⟩ := List.eq_append_cons_of_mem hopen
    by_cases hclose : '\x7d' ∈ rest
    · obtain ⟨name, after, rfl, hn⟩ := List.eq_append_cons_of_mem hclose
      right
      right
      refine ⟨name, ?_⟩
      have h := Leftmost.intro hb hn after
      simpa [token] using h
    · exact .inr (.inl (.intro hb hclose))
  · exact .inl hopen

theorem expand_of_plain (h : '\x7b' ∉ text) (looks : Nat) :
    named.expand source (looks + 1) text = .ok (Path.normalize (String.ofList text)) := by
  rw [expand, read_of_plain h]

theorem expand_of_unterminated (h : Unterminated text) (looks : Nat) :
    named.expand source (looks + 1) text = .error (.unterminated source) := by
  rw [expand, read_of_unterminated h]

theorem expand_of_lacks (h : named.Lacks name text) (looks : Nat) :
    named.expand source (looks + 1) text =
      .error (.undefined (String.ofList (token name)) source) := by
  obtain ⟨⟨hb, hn, after⟩, hp⟩ := h
  rw [expand, read_of_name hb hn]
  simp only [hp]

theorem Replaces.expand (h : named.Replaces text next) (looks : Nat) :
    named.expand source (looks + 1) text = named.expand source looks next := by
  obtain ⟨hb, hn, hp, after⟩ := h
  rw [NamedPaths.expand, read_of_name hb hn]
  simp only [hp, List.append_assoc]

/-- A replacement takes one look. -/
theorem Expands.expand (h : named.Expands k text last) (looks : Nat) :
    named.expand source (k + looks) text = named.expand source looks last := by
  induction h with
  | done text => rw [Nat.zero_add]
  | @step k text next last h _ ih => rw [Nat.add_right_comm, h.expand, ih]

/-- Either the looks are used up, or a text is met before that has no name to replace. -/
theorem expands_or_ends (named : NamedPaths) (looks : Nat) (text : List Char) :
    (∃ last, named.Expands looks text last) ∨
      ∃ k < looks, ∃ last, named.Expands k text last ∧
        ('\x7b' ∉ last ∨ Unterminated last ∨ ∃ name, named.Lacks name last) := by
  induction looks generalizing text with
  | zero => exact .inl ⟨text, .done text⟩
  | succ looks ih =>
    rcases plain_or_unterminated_or_leftmost text with hp | hu | ⟨name, hl⟩
    · exact .inr ⟨0, Nat.succ_pos _, text, .done text, .inl hp⟩
    · exact .inr ⟨0, Nat.succ_pos _, text, .done text, .inr (.inl hu)⟩
    · cases hpath : named.registry.get? (String.ofList (token name)) with
      | none => exact .inr ⟨0, Nat.succ_pos _, text, .done text, .inr (.inr ⟨name, hl, hpath⟩)⟩
      | some path =>
        obtain ⟨hb, hn, after⟩ := hl
        have hr := Replaces.intro hb hn hpath after
        rcases ih _ with ⟨last, hs⟩ | ⟨k, hk, last, hs, hend⟩
        · exact .inl ⟨last, .step hr hs⟩
        · exact .inr ⟨k + 1, Nat.succ_lt_succ hk, last, .step hr hs, hend⟩

theorem Expands.trans (h : named.Expands k text next) (h' : named.Expands n next last) :
    named.Expands (k + n) text last := by
  induction h with
  | done => rwa [Nat.zero_add]
  | @step k text next last h _ ih =>
    rw [Nat.add_right_comm]
    exact .step h (ih h')

theorem Expands.first (h : named.Expands n text last) (hk : k ≤ n) :
    ∃ next, named.Expands k text next := by
  induction h generalizing k with
  | done text =>
    obtain rfl := Nat.le_zero.mp hk
    exact ⟨text, .done text⟩
  | @step n text next last h _ ih =>
    cases k with
    | zero => exact ⟨text, .done text⟩
    | succ k =>
      obtain ⟨next, hs⟩ := ih (Nat.le_of_succ_le_succ hk)
      exact ⟨next, .step h hs⟩

/-- What stands around a name has no part in what it becomes, as long as no brace opens before. -/
theorem Replaces.within (hb : '\x7b' ∉ before) (h : named.Replaces text next)
    (after : List Char) :
    named.Replaces (before ++ (text ++ after)) (before ++ (next ++ after)) := by
  obtain ⟨hb', hn, hp, rest⟩ := h
  have hfront : '\x7b' ∉ before ++ _ := List.not_mem_append hb hb'
  have h := Replaces.intro hfront hn hp (rest ++ after)
  simpa only [List.append_assoc] using h

theorem Expands.within (hb : '\x7b' ∉ before) (h : named.Expands k text last)
    (after : List Char) :
    named.Expands k (before ++ (text ++ after)) (before ++ (last ++ after)) := by
  induction h with
  | done => exact .done _
  | step h _ ih => exact .step (h.within hb after) ih

theorem Replaces.head (hn : '\x7d' ∉ name)
    (hp : named.registry.get? (String.ofList (token name)) = some path) (after : List Char) :
    named.Replaces (token name ++ after) (path.toList ++ after) :=
  .intro List.not_mem_nil hn hp after

theorem Leftmost.head (hn : '\x7d' ∉ name) (after : List Char) :
    Leftmost name (token name ++ after) :=
  .intro List.not_mem_nil hn after

theorem Leftmost.within (hb : '\x7b' ∉ before) (h : Leftmost name text) (after : List Char) :
    Leftmost name (before ++ (text ++ after)) := by
  obtain ⟨hb', hn, rest⟩ := h
  have h := Leftmost.intro (List.not_mem_append hb hb') hn (rest ++ after)
  simpa only [List.append_assoc] using h

/-- Each time that the name comes back, replacements were made, and it may be replaced again. -/
theorem Recurs.expands (h : named.Recurs name) (n : Nat) (hl : Leftmost name text) :
    ∃ k ≥ n, ∃ last, named.Expands k text last ∧ Leftmost name last := by
  induction n with
  | zero => exact ⟨0, Nat.le_refl 0, text, .done text, hl⟩
  | succ n ih =>
    obtain ⟨k, hk, last, hs, hlast⟩ := ih
    obtain ⟨j, again, hagain, hname⟩ := h
    obtain ⟨hb, hn, after⟩ := hlast
    refine ⟨k + (j + 1), by omega, _, hs.trans (hagain.within hb after), hname.within hb after⟩

end

/-- What a text comes to. Names that are not replaced within the looks are too deep. -/
inductive Outcome (named : NamedPaths) (source : String) : Except Fault String → Prop
  | resolved {k : Nat} {last : List Char} (hk : k < mostLooks)
    (h : named.Expands k source.toList last) (hl : '\x7b' ∉ last) :
    Outcome named source (.ok (Path.normalize (String.ofList last)))
  | unterminated {k : Nat} {last : List Char} (hk : k < mostLooks)
    (h : named.Expands k source.toList last) (hl : Unterminated last) :
    Outcome named source (.error (.namedPath (.unterminated source)))
  | undefined {k : Nat} {last name : List Char} (hk : k < mostLooks)
    (h : named.Expands k source.toList last) (hl : named.Lacks name last) :
    Outcome named source
      (.error (.namedPath (.undefined (String.ofList (token name)) source)))
  | tooDeep {last : List Char} (h : named.Expands mostLooks source.toList last) :
    Outcome named source (.error (.namedPath (.tooDeep source)))

section
variable {named : NamedPaths} {source : String} {k : Nat} {last : List Char}

/-- One look is left for what the replacements end in. -/
theorem resolve_of_expands (h : named.Expands k source.toList last) (hk : k < mostLooks) :
    ∃ looks, named.resolve source =
      (named.expand source (looks + 1) last).mapError .namedPath := by
  refine ⟨mostLooks - (k + 1), ?_⟩
  have hlooks : mostLooks = k + (mostLooks - (k + 1) + 1) := by omega
  rw [resolve, hlooks, h.expand, ← hlooks]

theorem resolve_exhausted (h : named.Expands mostLooks source.toList last) :
    named.resolve source = .error (.namedPath (.tooDeep source)) := by
  rw [resolve, ← Nat.add_zero mostLooks, h.expand]
  rfl

theorem Outcome.resolve_eq {result : Except Fault String} (h : named.Outcome source result) :
    named.resolve source = result := by
  cases h with
  | resolved hk h hl =>
    obtain ⟨looks, hr⟩ := resolve_of_expands h hk
    rw [hr, expand_of_plain hl]
    rfl
  | unterminated hk h hl =>
    obtain ⟨looks, hr⟩ := resolve_of_expands h hk
    rw [hr, expand_of_unterminated hl]
    rfl
  | undefined hk h hl =>
    obtain ⟨looks, hr⟩ := resolve_of_expands h hk
    rw [hr, expand_of_lacks hl]
    rfl
  | tooDeep h => exact resolve_exhausted h

theorem exists_outcome (named : NamedPaths) (source : String) :
    ∃ result, named.Outcome source result := by
  rcases named.expands_or_ends mostLooks source.toList with
    ⟨last, h⟩ | ⟨k, hk, last, h, hp | hu | ⟨name, hl⟩⟩
  · exact ⟨_, .tooDeep h⟩
  · exact ⟨_, .resolved hk h hp⟩
  · exact ⟨_, .unterminated hk h hu⟩
  · exact ⟨_, .undefined hk h hl⟩

theorem outcome_resolve (named : NamedPaths) (source : String) :
    named.Outcome source (named.resolve source) := by
  obtain ⟨result, h⟩ := named.exists_outcome source
  rwa [h.resolve_eq]

end

/-- A text comes to its outcome and to no other, and one that meets a name which leads back to
itself is too deep. -/
theorem resolve_eq_iff_outcome (named : NamedPaths) (source : String) :
    (∀ result, named.resolve source = result ↔ named.Outcome source result) ∧
      ∀ k text name, named.Expands k source.toList text → Leftmost name text →
        named.Recurs name → named.resolve source = .error (.namedPath (.tooDeep source)) := by
  constructor
  · intro result
    constructor
    · rintro rfl
      exact named.outcome_resolve source
    · exact Outcome.resolve_eq
  · intro k text name h hl hr
    obtain ⟨n, hn, last, hs, -⟩ := hr.expands mostLooks hl
    obtain ⟨next, hnext⟩ := (h.trans hs).first (k := mostLooks) (by omega)
    exact resolve_exhausted hnext

/-- Two names that lead to each other. -/
def entangled : NamedPaths :=
  ⟨.ofList [("\x7bA\x7d", "\x7bB\x7d/a"), ("\x7bB\x7d", "\x7bA\x7d/b")]⟩

theorem entangled_recurs : entangled.Recurs ['A'] := by
  have hfirst : entangled.Replaces (token ['A'] ++ []) ("\x7bB\x7d/a".toList ++ []) :=
    .head (by decide) rfl []
  have hsecond : entangled.Replaces (token ['B'] ++ "/a".toList)
      ("\x7bA\x7d/b".toList ++ "/a".toList) := .head (by decide) rfl _
  exact ⟨1, _, .step hfirst (.step hsecond (.done _)), .head (by decide) "/b/a".toList⟩

theorem resolve_eq_iff_outcome_entangled :
    entangled.Expands 0 "\x7bA\x7d".toList (token ['A']) ∧ Leftmost ['A'] (token ['A']) ∧
      entangled.Recurs ['A'] ∧
      entangled.resolve "\x7bA\x7d" = .error (.namedPath (.tooDeep "\x7bA\x7d")) := by
  have hstart : entangled.Expands 0 "\x7bA\x7d".toList (token ['A']) := .done _
  have hname : Leftmost ['A'] (token ['A']) := .head (by decide) []
  exact ⟨hstart, hname, entangled_recurs,
    (resolve_eq_iff_outcome entangled "\x7bA\x7d").2 0 _ _ hstart hname entangled_recurs⟩

/-- A name written out so many times takes as many replacements. -/
theorem expands_replicate {named : NamedPaths} {name before : List Char} {path : String}
    (hn : '\x7d' ∉ name) (hp : named.registry.get? (String.ofList (token name)) = some path)
    (hplain : '\x7b' ∉ path.toList) (hb : '\x7b' ∉ before) (n : Nat) :
    named.Expands n (before ++ (List.replicate n (token name)).flatten)
      (before ++ (List.replicate n path.toList).flatten) := by
  induction n generalizing before with
  | zero => exact .done _
  | succ n ih =>
    rw [List.replicate_succ, List.flatten_cons, List.replicate_succ, List.flatten_cons]
    apply Expands.step (.intro hb hn hp _)
    rw [← List.append_assoc, ← List.append_assoc]
    exact ih (List.not_mem_append hb hplain)

/-- One name with a plain path. -/
def lettered : NamedPaths := ⟨.ofList [("\x7bA\x7d", "a")]⟩

/-- That name, as often as names may be replaced. -/
def letters : String := String.ofList (List.replicate mostLooks (token ['A'])).flatten

/-- All names are replaced, and the look that would find none left is not taken any more. -/
theorem last_replacement_is_lost :
    NamedPaths.empty.add "\x7bA\x7d" "a" = .ok lettered ∧
      (∃ last, lettered.Expands mostLooks letters.toList last ∧ '\x7b' ∉ last) ∧
      ∀ path, lettered.resolve letters ≠ .ok path := by
  have hpath : lettered.registry.get? (String.ofList (token ['A'])) = some "a" := rfl
  have hs : lettered.Expands mostLooks letters.toList
      (List.replicate mostLooks "a".toList).flatten := by
    rw [letters, String.toList_ofList]
    exact expands_replicate (by decide) hpath (by decide) List.not_mem_nil mostLooks
  refine ⟨rfl, ⟨_, hs, by decide⟩, ?_⟩
  intro path h
  rw [resolve_exhausted hs] at h
  cases h

end LayeredAssets.NamedPaths
