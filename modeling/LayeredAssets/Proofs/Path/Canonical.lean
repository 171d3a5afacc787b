import LayeredAssets.Proofs.Path.Normal

namespace LayeredAssets.Path

/-- One more character of a path, written behind what stands there already. -/
def write (written : List Char) (c : Char) : List Char :=
  let c := if c = '\\' then '/' else c
  if c = '/' ∧ written.getLast? = some '/' then written else written ++ [c]

/-- One lead is taken away. -/
inductive Strips : List Char → List Char → Prop
  | dot (rest : List Char) : Strips ('.' :: '/' :: rest) rest
  | slash (rest : List Char) : Strips ('/' :: rest) rest

/-- So many leads, one after the other. -/
inductive StripsAll : Nat → List Char → List Char → Prop
  | done (path : List Char) : StripsAll 0 path path
  | step {k : Nat} {path next last : List Char} (h : Strips path next)
    (hs : StripsAll k next last) : StripsAll (k + 1) path last

section
variable {chars written path next last : List Char} {c : Char} {closed : Bool} {k : Nat}

theorem write_of_not_separator (h : isSeparator c = false) (written : List Char) :
    write written c = written ++ [c] := by
  obtain ⟨hslash, hback⟩ : c ≠ '/' ∧ c ≠ '\\' := by simpa [isSeparator] using h
  simp [write, hslash, hback]

theorem write_of_separator (h : isSeparator c = true) (written : List Char) :
    write written c = if written.getLast? = some '/' then written else written ++ ['/'] := by
  have hc : c = '/' ∨ c = '\\' := by simpa [isSeparator] using h
  rcases hc with rfl | rfl
  · simp [write]
  · simp [write]

/-- All that counts of what stands there already is whether it ends with a slash. -/
theorem foldl_write (chars : List Char) (h : written.getLast? = some '/' ↔ closed = true) :
    chars.foldl write written = written ++ normalizeAfter closed chars := by
  induction chars generalizing written closed with
  | nil => simp [normalizeAfter]
  | cons c chars ih =>
    rw [List.foldl_cons]
    cases hc : isSeparator c with
    | false =>
      have hne : c ≠ '/' := by
        rintro rfl
        cases hc
      have hopen : (written ++ [c]).getLast? = some '/' ↔ false = true := by simp [hne]
      rw [write_of_not_separator hc, ih hopen, normalizeAfter_of_not_separator hc,
        List.append_assoc, List.singleton_append]
    | true =>
      rw [write_of_separator hc]
      cases closed with
      | true =>
        have hslash : written.getLast? = some '/' := h.mpr rfl
        rw [if_pos hslash, ih h, normalizeAfter_of_separator_closed hc]
      | false =>
        have hslash : ¬ written.getLast? = some '/' := fun hl => Bool.false_ne_true (h.mp hl)
        have hclosed : (written ++ ['/']).getLast? = some '/' ↔ true = true := by simp
        rw [if_neg hslash, ih hclosed, normalizeAfter_of_separator hc, List.append_assoc,
          List.singleton_append]

theorem toList_normalize (path : String) :
    (normalize path).toList = path.toList.foldl write [] := by
  have hopen : ([] : List Char).getLast? = some '/' ↔ false = true := by simp
  rw [normalize, String.toList_ofList, foldl_write _ hopen, List.nil_append]

theorem Strips.length_lt (h : Strips path next) : next.length < path.length := by
  cases h with
  | dot => simp only [List.length_cons]; omega
  | slash => simp only [List.length_cons]; omega

theorem Strips.stripLeads_eq (h : Strips path next) : stripLeads path = stripLeads next := by
  cases h with
  | dot => rw [stripLeads]
  | slash => rw [stripLeads]

theorem StripsAll.length_le (h : StripsAll k path last) : k + last.length ≤ path.length := by
  induction h with
  | done => omega
  | step h _ ih =>
    have hlt := h.length_lt
    omega

theorem StripsAll.stripLeads_eq (h : StripsAll k path last) :
    stripLeads path = stripLeads last := by
  induction h with
  | done => rfl
  | step h _ ih => rw [h.stripLeads_eq, ih]

theorem exists_stripsAll (path : List Char) : ∃ k, StripsAll k path (stripLeads path) := by
  induction path using stripLeads.induct with
  | case1 rest ih =>
    obtain ⟨k, hs⟩ := ih
    rw [stripLeads]
    exact ⟨k + 1, .step (.dot rest) hs⟩
  | case2 rest ih =>
    obtain ⟨k, hs⟩ := ih
    rw [stripLeads]
    exact ⟨k + 1, .step (.slash rest) hs⟩
  | case3 path hdot hslash =>
    rw [stripLeads_of_no_lead hdot hslash]
    exact ⟨0, .done path⟩

/-- Nothing is left to take away. -/
theorem bare_iff_not_strips : stripLeads path = path ↔ ∀ next, ¬ Strips path next := by
  rw [bare_iff]
  constructor
  · intro hbare next h
    obtain ⟨hslash, hdot⟩ := hbare
    cases h with
    | dot => exact hdot ⟨next, rfl⟩
    | slash => exact hslash ⟨next, rfl⟩
  · intro h
    constructor
    · rintro ⟨rest, rfl⟩
      exact h rest (.slash rest)
    · rintro ⟨rest, rfl⟩
      exact h rest (.dot rest)

/-- However many leads are gone, there are none left at one place and nowhere else. -/
theorem StripsAll.ended_iff (h : StripsAll k path last) :
    (∀ next, ¬ Strips last next) ↔ last = stripLeads path := by
  rw [← bare_iff_not_strips, h.stripLeads_eq]
  exact eq_comm

theorem Plain.no_backslash (h : Plain chars) : '\\' ∉ chars := by
  intro hm
  rw [← h.normal] at hm
  have hslash : '\\' = '/' := eq_slash_of_mem_normalizeAfter hm rfl
  cases hslash

theorem Plain.slashes_apart (h : Plain chars) : ¬ ['/', '/'] <:+: chars := by
  rw [← h.normal]
  exact no_double_slash false chars

end

theorem toList_relative (path : String) :
    (relative path).toList = stripLeads (normalize path).toList := by
  rw [relative, normalize, String.toList_ofList, String.toList_ofList]

theorem relative_normalize (path : String) : relative (normalize path) = relative path := by
  rw [relative, normalize, String.toList_ofList, normalizeAfter_normalizeAfter, relative]

theorem relative_lead {lead : String} (h : Lead lead.toList) (path : String) :
    relative (lead ++ path) = relative path := by
  rw [relative, String.toList_append, stripLeads_lead h, relative]

theorem lead_join {leads : List String} (h : leads ⊆ ["/", "\\", "./"]) :
    Lead (String.join leads).toList := by
  induction leads with
  | nil => exact .nil
  | cons lead leads ih =>
    obtain ⟨hmem, hleads⟩ := List.cons_subset.mp h
    have hlead : lead = "/" ∨ lead = "\\" ∨ lead = "./" := by simpa using hmem
    have hrest := ih hleads
    rw [String.join_cons, String.toList_append]
    rcases hlead with rfl | rfl | rfl
    · exact .separator (c := '/') rfl hrest
    · exact .separator (c := '\\') rfl hrest
    · exact .dot (c := '/') rfl hrest

/-- A path is written character by character, and then loses its leads one by one until there are
none. What is left needs no writing again, and tells nothing of the leads that stood before. -/
theorem relative_canonical (path : String) :
    (normalize path).toList = path.toList.foldl write [] ∧
      (∃ k, StripsAll k (normalize path).toList (relative path).toList) ∧
      (∀ k last, StripsAll k (normalize path).toList last → k ≤ (normalize path).length ∧
        ((∀ next, ¬ Strips last next) ↔ last = (relative path).toList)) ∧
      ('\\' ∉ (relative path).toList ∧ ¬ ['/', '/'] <:+: (relative path).toList ∧
        ¬ ['/'] <+: (relative path).toList ∧ ¬ ['.', '/'] <+: (relative path).toList) ∧
      relative (relative path) = relative path ∧ relative (normalize path) = relative path ∧
      (∀ leads : List String, leads ⊆ ["/", "\\", "./"] →
        relative (String.join leads ++ path) = relative path) ∧
      ∀ rest, normalize (path ++ rest) = normalize (normalize path ++ normalize rest) := by
  have hplain := plain_relative path
  obtain ⟨hslash, hdot⟩ := bare_iff.mp hplain.bare
  refine ⟨toList_normalize path, ?_, ?_,
    ⟨hplain.no_backslash, hplain.slashes_apart, hslash, hdot⟩,
    relative_relative path, relative_normalize path, ?_, ?_⟩
  · rw [toList_relative]
    exact exists_stripsAll _
  · intro k last hs
    have hle := hs.length_le
    rw [String.length_toList] at hle
    rw [toList_relative]
    exact ⟨by omega, hs.ended_iff⟩
  · intro leads hleads
    exact relative_lead (lead_join hleads) path
  · intro rest
    exact (normalize_parts path rest).symm

/-- A slash that goes brings up a dot. -/
theorem relative_canonical_mixed :
    StripsAll 2 (normalize "\\.\\/a").toList ['a'] ∧ 2 ≤ (normalize "\\.\\/a").length ∧
      ((∀ next, ¬ Strips ['a'] next) ↔ ['a'] = (relative "\\.\\/a").toList) ∧
      ["\\", "./", "/"] ⊆ ["/", "\\", "./"] ∧
      relative (String.join ["\\", "./", "/"] ++ "\\.\\/a") = relative "\\.\\/a" := by
  have hs : StripsAll 2 (normalize "\\.\\/a").toList ['a'] :=
    .step (.slash _) (.step (.dot _) (.done _))
  have hleads : ["\\", "./", "/"] ⊆ ["/", "\\", "./"] := by decide
  obtain ⟨-, -, hstrips, -, -, -, hprepended, -⟩ := relative_canonical "\\.\\/a"
  obtain ⟨hk, hended⟩ := hstrips 2 ['a'] hs
  exact ⟨hs, hk, hended, hleads, hprepended _ hleads⟩

end LayeredAssets.Path
