import LayeredAssets.Proofs.Path

namespace LayeredAssets.Path

/-- Whether the next character stands behind a separator. -/
def closedAfter (closed : Bool) (chars : List Char) : Bool :=
  chars.foldl (fun _ c => isSeparator c) closed

/-- A path as a backend takes it: there is nothing to normalise and nothing to strip. -/
structure Plain (chars : List Char) : Prop where
  normal : normalizeAfter false chars = chars
  bare : stripLeads chars = chars

section
variable {chars rest base path : List Char} {c : Char} {closed : Bool}

theorem normalizeAfter_append (closed : Bool) (chars rest : List Char) :
    normalizeAfter closed (chars ++ rest) =
      normalizeAfter closed chars ++ normalizeAfter (closedAfter closed chars) rest := by
  induction chars generalizing closed with
  | nil => rfl
  | cons c chars ih =>
    have hafter : closedAfter closed (c :: chars) = closedAfter (isSeparator c) chars := rfl
    rw [List.cons_append, hafter]
    cases hc : isSeparator c with
    | false =>
      rw [normalizeAfter_of_not_separator hc, normalizeAfter_of_not_separator hc, ih]
      rfl
    | true =>
      cases closed with
      | false =>
        rw [normalizeAfter_of_separator hc, normalizeAfter_of_separator hc, ih]
        rfl
      | true =>
        rw [normalizeAfter_of_separator_closed hc, normalizeAfter_of_separator_closed hc, ih]

theorem closedAfter_concat (closed : Bool) (chars : List Char) (c : Char) :
    closedAfter closed (chars ++ [c]) = isSeparator c := by
  rw [closedAfter, List.foldl_append]
  rfl

theorem opens_normalizeAfter (chars : List Char) : Opens (normalizeAfter true chars) := by
  induction chars with
  | nil => simp [normalizeAfter, Opens]
  | cons c chars ih =>
    cases hc : isSeparator c with
    | true =>
      rw [normalizeAfter_of_separator_closed hc]
      exact ih
    | false =>
      rw [normalizeAfter_of_not_separator hc]
      intro d hd
      obtain rfl : c = d := by simpa using hd
      exact hc

theorem normalizeAfter_normalizeAfter (closed : Bool) (chars : List Char) :
    normalizeAfter false (normalizeAfter closed chars) = normalizeAfter closed chars := by
  induction chars generalizing closed with
  | nil => rfl
  | cons c chars ih =>
    have hslash : isSeparator '/' = true := rfl
    cases hc : isSeparator c with
    | false =>
      rw [normalizeAfter_of_not_separator hc, normalizeAfter_of_not_separator hc, ih]
    | true =>
      cases closed with
      | true => rw [normalizeAfter_of_separator_closed hc, ih]
      | false =>
        rw [normalizeAfter_of_separator hc, normalizeAfter_of_separator hslash,
          normalizeAfter_of_opens (opens_normalizeAfter chars), ih]

theorem eq_slash_of_mem_normalizeAfter (h : c ∈ normalizeAfter closed chars)
    (hc : isSeparator c = true) : c = '/' := by
  induction chars generalizing closed with
  | nil => simp [normalizeAfter] at h
  | cons d chars ih =>
    cases hd : isSeparator d with
    | false =>
      rw [normalizeAfter_of_not_separator hd] at h
      rcases List.mem_cons.mp h with rfl | h
      · rw [hc] at hd
        cases hd
      · exact ih h
    | true =>
      cases closed with
      | true =>
        rw [normalizeAfter_of_separator_closed hd] at h
        exact ih h
      | false =>
        rw [normalizeAfter_of_separator hd] at h
        rcases List.mem_cons.mp h with rfl | h
        · rfl
        · exact ih h

/-- A normal path ends in a separator where the path it stands for does. -/
theorem closedAfter_normalizeAfter (closed : Bool) (chars : List Char) :
    closedAfter closed (normalizeAfter closed chars) = closedAfter closed chars := by
  induction chars generalizing closed with
  | nil => rfl
  | cons c chars ih =>
    have hafter : closedAfter closed (c :: chars) = closedAfter (isSeparator c) chars := rfl
    rw [hafter]
    cases hc : isSeparator c with
    | false =>
      rw [normalizeAfter_of_not_separator hc, ← ih]
      exact congrArg (closedAfter · (normalizeAfter false chars)) hc
    | true =>
      cases closed with
      | true => rw [normalizeAfter_of_separator_closed hc, ih]
      | false =>
        rw [normalizeAfter_of_separator hc, ← ih]
        rfl

/-- What stands before a path has its say after the path itself was normalised too. -/
theorem normalizeAfter_normal (closed : Bool) (chars : List Char) :
    normalizeAfter closed (normalizeAfter false chars) = normalizeAfter closed chars := by
  cases closed with
  | false => exact normalizeAfter_normalizeAfter false chars
  | true =>
    cases chars with
    | nil => rfl
    | cons c chars =>
      have hslash : isSeparator '/' = true := rfl
      cases hc : isSeparator c with
      | false =>
        rw [normalizeAfter_of_not_separator hc, normalizeAfter_of_not_separator hc,
          normalizeAfter_of_not_separator hc, normalizeAfter_normalizeAfter]
      | true =>
        rw [normalizeAfter_of_separator hc, normalizeAfter_of_separator_closed hslash,
          normalizeAfter_of_separator_closed hc,
          normalizeAfter_of_opens (opens_normalizeAfter chars), normalizeAfter_normalizeAfter]

theorem normalizeAfter_parts (chars rest : List Char) :
    normalizeAfter false (normalizeAfter false chars ++ normalizeAfter false rest) =
      normalizeAfter false (chars ++ rest) := by
  rw [normalizeAfter_append, normalizeAfter_normalizeAfter, closedAfter_normalizeAfter,
    normalizeAfter_normal, ← normalizeAfter_append]

theorem mem_of_mem_normalizeAfter (h : c ∈ normalizeAfter closed chars)
    (hc : isSeparator c = false) : c ∈ chars := by
  induction chars generalizing closed with
  | nil => simp [normalizeAfter] at h
  | cons d chars ih =>
    cases hd : isSeparator d with
    | false =>
      rw [normalizeAfter_of_not_separator hd] at h
      rcases List.mem_cons.mp h with rfl | h
      · exact List.mem_cons_self
      · exact List.mem_cons_of_mem _ (ih h)
    | true =>
      cases closed with
      | true =>
        rw [normalizeAfter_of_separator_closed hd] at h
        exact List.mem_cons_of_mem _ (ih h)
      | false =>
        rw [normalizeAfter_of_separator hd] at h
        rcases List.mem_cons.mp h with rfl | h
        · cases hc
        · exact List.mem_cons_of_mem _ (ih h)

theorem no_double_slash (closed : Bool) (chars : List Char) :
    ¬ ['/', '/'] <:+: normalizeAfter closed chars := by
  induction chars generalizing closed with
  | nil => simp [normalizeAfter]
  | cons c chars ih =>
    cases hc : isSeparator c with
    | false =>
      rw [normalizeAfter_of_not_separator hc, List.infix_cons_iff]
      rintro (hp | hi)
      · obtain ⟨rfl, -⟩ := List.cons_prefix_cons.mp hp
        cases hc
      · exact ih false hi
    | true =>
      cases closed with
      | true =>
        rw [normalizeAfter_of_separator_closed hc]
        exact ih true
      | false =>
        rw [normalizeAfter_of_separator hc, List.infix_cons_iff]
        rintro (hp | hi)
        · obtain ⟨-, hp⟩ := List.cons_prefix_cons.mp hp
          obtain ⟨rest, hrest⟩ := hp
          have hopens := opens_normalizeAfter chars '/' (by rw [← hrest]; rfl)
          cases hopens
        · exact ih true hi

theorem length_normalizeAfter_le (closed : Bool) (chars : List Char) :
    (normalizeAfter closed chars).length ≤ chars.length := by
  induction chars generalizing closed with
  | nil => exact Nat.le_refl _
  | cons c chars ih =>
    cases hc : isSeparator c with
    | false =>
      rw [normalizeAfter_of_not_separator hc]
      exact Nat.succ_le_succ (ih false)
    | true =>
      cases closed with
      | false =>
        rw [normalizeAfter_of_separator hc]
        exact Nat.succ_le_succ (ih true)
      | true =>
        rw [normalizeAfter_of_separator_closed hc]
        exact Nat.le_succ_of_le (ih true)

/-- A normal path has nothing that could have been shortened, before any place in it. -/
theorem normal_of_append (h : normalizeAfter false (chars ++ rest) = chars ++ rest) :
    normalizeAfter false chars = chars := by
  rw [normalizeAfter_append] at h
  have hlength := congrArg List.length h
  rw [List.length_append, List.length_append] at hlength
  have hchars := length_normalizeAfter_le false chars
  have hrest := length_normalizeAfter_le (closedAfter false chars) rest
  exact (List.append_inj h (by omega)).1

theorem normal_of_cons (h : normalizeAfter false (c :: rest) = c :: rest) :
    normalizeAfter false rest = rest := by
  cases hc : isSeparator c with
  | false =>
    rw [normalizeAfter_of_not_separator hc] at h
    exact (List.cons.inj h).2
  | true =>
    rw [normalizeAfter_of_separator hc] at h
    have hrest : normalizeAfter true rest = rest := (List.cons.inj h).2
    rw [← hrest]
    exact normalizeAfter_normalizeAfter true rest

theorem normal_of_suffix (h : normalizeAfter false chars = chars) (hr : rest <:+ chars) :
    normalizeAfter false rest = rest := by
  obtain ⟨before, rfl⟩ := hr
  induction before with
  | nil => exact h
  | cons c before ih => exact ih (normal_of_cons h)

theorem stripLeads_of_no_lead (hdot : ∀ rest, chars = '.' :: '/' :: rest → False)
    (hslash : ∀ rest, chars = '/' :: rest → False) : stripLeads chars = chars := by
  rw [stripLeads]
  · exact hdot
  · exact hslash

theorem stripLeads_suffix (chars : List Char) : stripLeads chars <:+ chars := by
  induction chars using stripLeads.induct with
  | case1 rest ih =>
    rw [stripLeads]
    exact (ih.trans (List.suffix_cons _ _)).trans (List.suffix_cons _ _)
  | case2 rest ih =>
    rw [stripLeads]
    exact ih.trans (List.suffix_cons _ _)
  | case3 path hdot hslash =>
    rewrite [stripLeads_of_no_lead hdot hslash]
    exact List.suffix_rfl

theorem stripLeads_stripLeads (chars : List Char) :
    stripLeads (stripLeads chars) = stripLeads chars := by
  induction chars using stripLeads.induct with
  | case1 rest ih => rw [stripLeads, ih]
  | case2 rest ih => rw [stripLeads, ih]
  | case3 path hdot hslash =>
    have hpath : stripLeads path = path := stripLeads_of_no_lead hdot hslash
    rw [hpath, hpath]

theorem ne_of_lead {lead : List Char} (hne : lead ≠ [])
    (h : stripLeads (lead ++ rest) = stripLeads rest) :
    stripLeads (lead ++ rest) ≠ lead ++ rest := by
  intro he
  have hlength := congrArg List.length (h.symm.trans he)
  have hle := (stripLeads_suffix rest).length_le
  have hpos := List.length_pos_iff.mpr hne
  rw [List.length_append] at hlength
  omega

/-- Nothing is stripped unless a lead stands first. -/
theorem bare_iff : stripLeads chars = chars ↔
    ¬ ['/'] <+: chars ∧ ¬ ['.', '/'] <+: chars := by
  constructor
  · intro h
    constructor
    · intro hp
      obtain ⟨rest, rfl⟩ := hp
      exact ne_of_lead (List.cons_ne_nil _ _) (by simp [stripLeads]) h
    · intro hp
      obtain ⟨rest, rfl⟩ := hp
      exact ne_of_lead (List.cons_ne_nil _ _) (by simp [stripLeads]) h
  · intro h
    obtain ⟨hslash, hdot⟩ := h
    apply stripLeads_of_no_lead
    · intro rest hr
      exact hdot ⟨rest, hr.symm⟩
    · intro rest hr
      exact hslash ⟨rest, hr.symm⟩

theorem Plain.opens (h : Plain chars) : Opens chars := by
  intro c hc
  cases hs : isSeparator c with
  | false => rfl
  | true =>
    have hm : c ∈ normalizeAfter false chars := by
      rw [h.normal]
      exact List.mem_of_mem_head? hc
    obtain rfl := eq_slash_of_mem_normalizeAfter hm hs
    obtain ⟨rest, rfl⟩ := List.head?_eq_some_iff.mp hc
    exact absurd ⟨rest, rfl⟩ (bare_iff.mp h.bare).1

theorem Plain.of_append (h : Plain (chars ++ rest)) : Plain chars where
  normal := normal_of_append h.normal
  bare := by
    obtain ⟨hslash, hdot⟩ := bare_iff.mp h.bare
    apply bare_iff.mpr
    constructor
    · intro hp
      exact hslash (hp.trans (List.prefix_append chars rest))
    · intro hp
      exact hdot (hp.trans (List.prefix_append chars rest))

/-- What ends in no slash ends in no separator. -/
theorem closedAfter_of_normal (h : normalizeAfter false chars = chars)
    (hlast : chars.getLast? ≠ some '/') : closedAfter false chars = false := by
  rcases List.eq_nil_or_concat chars with rfl | ⟨init, c, rfl⟩
  · rfl
  · rw [List.concat_eq_append] at h hlast ⊢
    rw [closedAfter_concat]
    cases hc : isSeparator c with
    | false => rfl
    | true =>
      have hm : c ∈ normalizeAfter false (init ++ [c]) := by rw [h]; simp
      obtain rfl := eq_slash_of_mem_normalizeAfter hm hc
      simp at hlast

/-- One plain path below another. Below a lone dot it would not be plain: the dot is a lead then. -/
theorem Plain.below (hbase : Plain base) (hpath : Plain path) (hne : base ≠ [])
    (hdot : base ≠ ['.']) (hlast : base.getLast? ≠ some '/') : Plain (base ++ '/' :: path) where
  normal := by
    have hslash : isSeparator '/' = true := rfl
    rw [normalizeAfter_append, closedAfter_of_normal hbase.normal hlast, hbase.normal,
      normalizeAfter_of_separator hslash, normalizeAfter_of_opens hpath.opens, hpath.normal]
  bare := by
    obtain ⟨hbslash, hbdot⟩ := bare_iff.mp hbase.bare
    apply bare_iff.mpr
    obtain ⟨c, rest, rfl⟩ := List.exists_cons_of_ne_nil hne
    constructor
    · intro hp
      obtain ⟨rfl, -⟩ := List.cons_prefix_cons.mp hp
      exact hbslash ⟨rest, rfl⟩
    · intro hp
      obtain ⟨hc, htail⟩ := List.cons_prefix_cons.mp hp
      subst hc
      cases rest with
      | nil => exact hdot rfl
      | cons d rest =>
        obtain ⟨rfl, -⟩ : '/' = d ∧ _ := List.cons_prefix_cons.mp htail
        exact hbdot ⟨rest, rfl⟩

theorem trimEndChars_prefix (c : Char) (chars : List Char) : trimEndChars c chars <+: chars := by
  have h := List.dropWhile_suffix (l := chars.reverse) (· == c)
  rw [← List.reverse_prefix, List.reverse_reverse] at h
  exact h

theorem getLast?_trimEndChars (c : Char) (chars : List Char) :
    (trimEndChars c chars).getLast? ≠ some c := by
  rw [trimEndChars, List.getLast?_reverse]
  intro h
  have hnot := List.head?_dropWhile_not (· == c) chars.reverse
  rw [h] at hnot
  simp at hnot

theorem Plain.trimEndChars (h : Plain chars) (c : Char) : Plain (trimEndChars c chars) := by
  obtain ⟨rest, hr⟩ := trimEndChars_prefix c chars
  rw [← hr] at h
  exact h.of_append

end

theorem normalize_normalize (path : String) : normalize (normalize path) = normalize path := by
  rw [normalize, normalize, String.toList_ofList, normalizeAfter_normalizeAfter]

/-- Two paths may be normalised apart, but where they meet separators may still run together. -/
theorem normalize_parts (first second : String) :
    normalize (normalize first ++ normalize second) = normalize (first ++ second) := by
  simp only [normalize, String.toList_append, String.toList_ofList, normalizeAfter_parts]

theorem plain_relative (path : String) : Plain (relative path).toList where
  normal := by
    rw [relative, String.toList_ofList]
    exact normal_of_suffix (normalizeAfter_normalizeAfter false path.toList)
      (stripLeads_suffix _)
  bare := by
    rw [relative, String.toList_ofList, stripLeads_stripLeads]

theorem Plain.relative {path : String} (h : Plain path.toList) : Path.relative path = path := by
  rw [Path.relative, h.normal, h.bare, String.ofList_toList]

theorem relative_relative (path : String) : relative (relative path) = relative path :=
  (plain_relative path).relative

section
variable {root base : String}

theorem join_of_slash (h : root.toList.getLast? = some '/') (path : String) :
    join root path = root ++ path := by
  rw [join, h]
  rfl

theorem join_of_name (hne : root ≠ "") (h : root.toList.getLast? ≠ some '/') (path : String) :
    join root path = root ++ "/" ++ path := by
  unfold join
  split
  · next hnone =>
    rw [List.getLast?_eq_none_iff, String.toList_eq_nil_iff] at hnone
    exact absurd hnone hne
  · next hslash => exact absurd hslash h
  · rfl

theorem getLast?_join (hne : base ≠ "") :
    (join root base).toList.getLast? = base.toList.getLast? := by
  obtain ⟨c, hc⟩ : ∃ c, base.toList.getLast? = some c := by
    rw [← Option.ne_none_iff_exists', ne_eq, List.getLast?_eq_none_iff, String.toList_eq_nil_iff]
    exact hne
  have hlast : ∀ before : String, (before ++ base).toList.getLast? = some c := by
    intro before
    rw [String.toList_append, List.getLast?_append, hc, Option.some_or]
  unfold join
  split
  · rw [hlast, hc]
  · rw [hlast, hc]
  · rw [hlast, hc]

theorem join_ne_empty (hne : base ≠ "") : join root base ≠ "" := by
  intro he
  have hlast : (join root base).toList.getLast? = base.toList.getLast? := getLast?_join hne
  rw [he] at hlast
  have hnil : base.toList = [] := List.getLast?_eq_none_iff.mp hlast.symm
  exact hne (String.toList_eq_nil_iff.mp hnil)

/-- Joining twice leaves out nothing and writes no separator twice. -/
theorem join_join (hne : base ≠ "") (hlast : base.toList.getLast? ≠ some '/') (path : String) :
    join (join root base) path = join root (base ++ "/" ++ path) := by
  have hjoined : (join root base).toList.getLast? ≠ some '/' := by
    rw [getLast?_join hne]
    exact hlast
  rw [join_of_name (join_ne_empty hne) hjoined]
  unfold join
  split
  · simp only [String.append_assoc]
  · simp only [String.append_assoc]
  · simp only [String.append_assoc]

theorem join_join_empty (hne : root ≠ "") (path : String) :
    join (join root "") path = join root path := by
  by_cases h : root.toList.getLast? = some '/'
  · rw [join_of_slash h "", String.append_empty]
  · rw [join_of_name hne h, join_of_name hne h, String.append_empty, join_of_slash (by simp)]

/-- How a view names its place, as a joined path. -/
theorem normalize_eq_join (hroot : normalizeAfter false root.toList = root.toList)
    (hne : root ≠ "") (hbase : Plain base.toList) :
    normalize (root ++ "/" ++ base) = join root base := by
  have hslash : isSeparator '/' = true := rfl
  have hchars : (root ++ "/" ++ base).toList = root.toList ++ '/' :: base.toList := by simp
  rw [normalize, hchars, normalizeAfter_append, hroot]
  by_cases h : root.toList.getLast? = some '/'
  · obtain ⟨init, hinit⟩ := List.getLast?_eq_some_iff.mp h
    have hclosed : closedAfter false root.toList = true := by
      rw [hinit, closedAfter_concat, hslash]
    rw [hclosed, normalizeAfter_of_separator_closed hslash, normalizeAfter_of_opens hbase.opens,
      hbase.normal, join_of_slash h, ← String.toList_append, String.ofList_toList]
  · rw [closedAfter_of_normal hroot h, normalizeAfter_of_separator hslash,
      normalizeAfter_of_opens hbase.opens, hbase.normal, join_of_name hne h, ← hchars,
      String.ofList_toList]

end
end LayeredAssets.Path
