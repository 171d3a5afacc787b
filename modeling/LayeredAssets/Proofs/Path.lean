import LayeredAssets.Path

namespace LayeredAssets.Path

theorem trimEndChars_of_last {c : Char} {path : List Char} (h : path.getLast? ≠ some c) :
    trimEndChars c path = path := by
  rw [trimEndChars]
  cases hr : path.reverse with
  | nil => rw [List.dropWhile_nil, ← hr, List.reverse_reverse]
  | cons d rest =>
    have hd : ¬(d == c) = true := by
      rw [beq_iff_eq]
      rintro rfl
      rw [List.getLast?_eq_head?_reverse, hr] at h
      exact h rfl
    rw [List.dropWhile_cons, if_neg hd, ← hr, List.reverse_reverse]

theorem trimEndChars_append_self (c : Char) (path : List Char) :
    trimEndChars c (path ++ [c]) = trimEndChars c path := by
  rw [trimEndChars, List.reverse_append, List.reverse_singleton, List.singleton_append,
    List.dropWhile_cons, if_pos (beq_self_eq_true c), trimEndChars]

/-- What may stand before a path without leading elsewhere. -/
inductive Lead : List Char → Prop
  | nil : Lead []
  | separator {c rest} (hc : isSeparator c = true) (h : Lead rest) : Lead (c :: rest)
  | dot {c rest} (hc : isSeparator c = true) (h : Lead rest) : Lead ('.' :: c :: rest)

/-- Separators between names, as many as one likes, and after the last name too. -/
inductive Joined : List String → List Char → Prop
  | nil : Joined [] []
  | cons {names rest} (name : String) (gap : List Char)
    (hg : ∀ c ∈ gap, isSeparator c = true) (hn : gap = [] → names = [])
    (h : Joined names rest) : Joined (name :: names) (name.toList ++ gap ++ rest)

section
variable {chars gap lead rest : List Char} {c : Char} {closed : Bool}

theorem normalizeAfter_of_not_separator (h : isSeparator c = false) (closed : Bool)
    (rest : List Char) : normalizeAfter closed (c :: rest) = c :: normalizeAfter false rest := by
  rw [normalizeAfter, h]
  rfl

theorem normalizeAfter_of_separator (h : isSeparator c = true) (rest : List Char) :
    normalizeAfter false (c :: rest) = '/' :: normalizeAfter true rest := by
  rw [normalizeAfter, h]
  rfl

theorem normalizeAfter_of_separator_closed (h : isSeparator c = true) (rest : List Char) :
    normalizeAfter true (c :: rest) = normalizeAfter true rest := by
  rw [normalizeAfter, h]
  rfl

/-- Nothing that a separator before it could join. -/
def Opens (rest : List Char) : Prop := ∀ c ∈ rest.head?, isSeparator c = false

theorem normalizeAfter_of_opens (h : Opens rest) (closed : Bool) :
    normalizeAfter closed rest = normalizeAfter false rest := by
  cases rest with
  | nil => rfl
  | cons c rest =>
    rw [normalizeAfter_of_not_separator (h c rfl), normalizeAfter_of_not_separator (h c rfl)]

theorem normalizeAfter_chars_append (hc : ∀ c ∈ chars, isSeparator c = false)
    (hne : chars ≠ []) (closed : Bool) (rest : List Char) :
    normalizeAfter closed (chars ++ rest) = chars ++ normalizeAfter false rest := by
  induction chars generalizing closed with
  | nil => exact absurd rfl hne
  | cons c chars ih =>
    rw [List.cons_append, normalizeAfter_of_not_separator (hc c List.mem_cons_self)]
    cases chars with
    | nil => rfl
    | cons d chars =>
      rw [ih (fun c h => hc c (List.mem_cons_of_mem _ h)) (List.cons_ne_nil _ _)]
      rfl

theorem normalizeAfter_closed_gap (hg : ∀ c ∈ gap, isSeparator c = true) (hr : Opens rest) :
    normalizeAfter true (gap ++ rest) = normalizeAfter false rest := by
  induction gap with
  | nil => exact normalizeAfter_of_opens hr true
  | cons c gap ih =>
    rw [List.cons_append, normalizeAfter_of_separator_closed (hg c List.mem_cons_self),
      ih fun c h => hg c (List.mem_cons_of_mem _ h)]

/-- A run of separators counts once. -/
theorem normalizeAfter_gap (hg : ∀ c ∈ gap, isSeparator c = true) (hne : gap ≠ [])
    (hr : Opens rest) : normalizeAfter false (gap ++ rest) = '/' :: normalizeAfter false rest := by
  cases gap with
  | nil => exact absurd rfl hne
  | cons c gap =>
    rw [List.cons_append, normalizeAfter_of_separator (hg c List.mem_cons_self),
      normalizeAfter_closed_gap (fun c h => hg c (List.mem_cons_of_mem _ h)) hr]

/-- A slash that a separator before the path would join is a lead, and goes without one too. -/
theorem stripLeads_closed (closed : Bool) (rest : List Char) :
    stripLeads (normalizeAfter closed rest) = stripLeads (normalizeAfter false rest) := by
  cases closed with
  | false => rfl
  | true =>
    cases rest with
    | nil => rfl
    | cons c rest =>
      cases hc : isSeparator c with
      | false => rw [normalizeAfter_of_not_separator hc, normalizeAfter_of_not_separator hc]
      | true =>
        rw [normalizeAfter_of_separator_closed hc, normalizeAfter_of_separator hc]
        simp only [stripLeads]

/-- What leads nowhere is taken away, so what is left begins as if nothing stood before it. -/
theorem stripLeads_lead (h : Lead lead) (rest : List Char) (closed : Bool) :
    stripLeads (normalizeAfter closed (lead ++ rest)) =
      stripLeads (normalizeAfter false rest) := by
  induction h generalizing closed with
  | nil => rw [List.nil_append, stripLeads_closed]
  | separator hc _ ih =>
    rw [List.cons_append]
    cases closed with
    | true => rw [normalizeAfter_of_separator_closed hc, ih]
    | false => rw [normalizeAfter_of_separator hc, stripLeads, ih]
  | dot hc _ ih =>
    rw [List.cons_append, List.cons_append, normalizeAfter_of_not_separator (by decide),
      normalizeAfter_of_separator hc, stripLeads, ih]

/-- A name that no separator and no lead is mistaken for. -/
structure Part (name : String) : Prop where
  ne_nil : name.toList ≠ []
  chars : ∀ c ∈ name.toList, isSeparator c = false
  not_dot : name.toList ≠ ['.']

variable {names : List String} {body : List Char}

theorem Part.opens {name : String} (h : Part name) (rest : List Char) :
    Opens (name.toList ++ rest) := by
  obtain ⟨c, chars, hc⟩ := List.exists_cons_of_ne_nil h.ne_nil
  intro d hd
  rw [hc] at hd
  cases hd
  exact h.chars c (hc ▸ List.mem_cons_self)

theorem Joined.opens (h : Joined names body) (hp : ∀ name ∈ names, Part name)
    (hr : Opens rest) : Opens (body ++ rest) := by
  cases h with
  | nil => exact hr
  | cons name gap =>
    rw [List.append_assoc, List.append_assoc]
    exact (hp name List.mem_cons_self).opens _

/-- One slash stands between names, and at most one after the last. -/
theorem Joined.normalizeAfter (h : Joined names body) (hp : ∀ name ∈ names, Part name)
    (hr : Opens rest) : ∃ tail, (tail = [] ∨ tail = ['/']) ∧
      Path.normalizeAfter false (body ++ rest) =
        ("/".intercalate names).toList ++ tail ++ Path.normalizeAfter false rest := by
  induction h with
  | nil => exact ⟨[], .inl rfl, rfl⟩
  | @cons names body name gap hg hn h ih =>
    have hname := hp name List.mem_cons_self
    have hnames : ∀ name ∈ names, Part name := fun n hm => hp n (List.mem_cons_of_mem _ hm)
    have hopens := h.opens hnames hr
    rw [List.append_assoc, List.append_assoc,
      normalizeAfter_chars_append hname.chars hname.ne_nil]
    obtain ⟨tail, ht, hbody⟩ := ih hnames
    cases gap with
    | nil =>
      cases hn rfl
      cases h
      exact ⟨[], .inl rfl, by simp⟩
    | cons c gap =>
      rw [normalizeAfter_gap hg (List.cons_ne_nil _ _) hopens]
      cases names with
      | nil =>
        cases h
        exact ⟨['/'], .inr rfl, by simp⟩
      | cons next names =>
        refine ⟨tail, ht, ?_⟩
        rw [hbody, String.intercalate_cons_cons]
        simp

/-- A name is no lead. -/
theorem Part.stripLeads {name : String} (h : Part name) (rest : List Char) :
    Path.stripLeads (name.toList ++ rest) = name.toList ++ rest := by
  have hslash : isSeparator '/' = true := rfl
  unfold Path.stripLeads
  split
  · next after he =>
    exfalso
    cases hn : name.toList with
    | nil => exact h.ne_nil hn
    | cons c chars =>
      rw [hn, List.cons_append] at he
      obtain ⟨rfl, hrest⟩ := List.cons.inj he
      cases chars with
      | nil => exact h.not_dot hn
      | cons d chars =>
        obtain ⟨rfl, -⟩ := List.cons.inj hrest
        have := h.chars '/' (by rw [hn]; simp)
        rw [hslash] at this
        cases this
  · next after he =>
    exfalso
    have := h.opens rest '/' (by rw [he]; rfl)
    rw [hslash] at this
    cases this
  · rfl

end
end LayeredAssets.Path
