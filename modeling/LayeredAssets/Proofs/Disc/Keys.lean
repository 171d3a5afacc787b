import LayeredAssets.Proofs.Disc.Ways
import Mathlib.Data.List.TakeWhile

namespace LayeredAssets

namespace Path

section
variable {parts : List String} {part : String}

theorem Part.plain (h : Part part) : Plain part.toList where
  normal := by
    have hn := normalizeAfter_chars_append h.chars h.ne_nil false []
    rwa [List.append_nil, normalizeAfter, List.append_nil] at hn
  bare := by
    have hb := h.stripLeads []
    rwa [List.append_nil] at hb

theorem Part.last (h : Part part) : part.toList.getLast? ≠ some '/' := by
  intro hlast
  cases h.chars _ (List.mem_of_getLast? hlast)

/-- Parts with one slash between them are a path as a backend takes it. -/
theorem plain_intercalate (hparts : ∀ part ∈ parts, Part part) :
    Plain ("/".intercalate parts).toList ∧
      ("/".intercalate parts).toList.getLast? ≠ some '/' := by
  induction parts with
  | nil => exact ⟨⟨rfl, rfl⟩, by simp⟩
  | cons part parts ih =>
    have hpart := hparts part List.mem_cons_self
    cases parts with
    | nil =>
      rw [String.intercalate_singleton]
      exact ⟨hpart.plain, hpart.last⟩
    | cons next parts =>
      obtain ⟨hplain, hlast⟩ := ih fun p hp => hparts p (List.mem_cons_of_mem _ hp)
      have hchars : ("/".intercalate (part :: next :: parts)).toList =
          part.toList ++ '/' :: ("/".intercalate (next :: parts)).toList := by
        simp [String.intercalate_cons_cons]
      have hnext : ("/".intercalate (next :: parts)).toList ≠ [] := by
        obtain ⟨rest, hr⟩ := Disc.intercalate_cons next parts
        have := (hparts next (by simp)).ne_nil
        simp [hr, this]
      rw [hchars]
      constructor
      · exact hpart.plain.below hplain hpart.ne_nil hpart.not_dot hpart.last
      · rwa [List.getLast?_append_of_ne_nil _ (by simp), List.getLast?_cons_of_ne_nil hnext]

theorem join_intercalate (hparts : ∀ part ∈ parts, Part part) (name : String) :
    join ("/".intercalate parts) name = "/".intercalate (parts ++ [name]) := by
  cases parts with
  | nil => simp [join]
  | cons part parts =>
    have hne : "/".intercalate (part :: parts) ≠ "" := by
      obtain ⟨rest, hr⟩ := Disc.intercalate_cons part parts
      have := (hparts part List.mem_cons_self).ne_nil
      intro he
      rw [hr, ← String.toList_eq_nil_iff, String.toList_append] at he
      exact this (List.append_eq_nil_iff.mp he).1
    rw [join_of_name hne (plain_intercalate hparts).2,
      String.intercalate_append_of_ne_nil (by simp) (by simp), String.intercalate_singleton]

/-- All that stands before the last of some parts. -/
theorem exists_lead (parts : List String) : ∃ lead : String,
    (∀ name, "/".intercalate (parts ++ [name]) = lead ++ name) ∧
      ∀ c ∈ lead.toList, c = '/' ∨ ∃ part ∈ parts, c ∈ part.toList := by
  cases parts with
  | nil => exact ⟨"", by simp, by simp⟩
  | cons part parts =>
    refine ⟨"/".intercalate (part :: parts) ++ "/", fun name => ?_, fun c hc => ?_⟩
    · rw [String.intercalate_append_of_ne_nil (by simp) (by simp), String.intercalate_singleton]
    · rw [String.toList_append] at hc
      rcases List.mem_append.mp hc with hc | hc
      · exact Disc.mem_intercalate hc
      · exact Or.inl (by simpa using hc)

end
end Path

namespace Disc

/-- What is looked up in place of a path: only what stands before the first version in it. -/
def lookedUp (path : String) : String :=
  String.ofList (Path.trimEndChars '/' (beforeVersion (Path.relative path).toList))

theorem key_eq (path : String) : Image.key path = Text.uppercase (lookedUp path) := rfl

theorem mark_notMem_beforeVersion (chars : List Char) : ';' ∉ beforeVersion chars := by
  intro hm
  have := List.mem_takeWhile_imp hm
  simp at this

theorem mark_notMem_cut (chars : List Char) :
    ';' ∉ Path.trimEndChars '.' (beforeVersion chars) :=
  fun hm => mark_notMem_beforeVersion chars ((Path.trimEndChars_prefix '.' _).subset hm)

theorem beforeVersion_of_notMem {chars : List Char} (h : ';' ∉ chars) :
    beforeVersion chars = chars := by
  have hcut : beforeVersion (chars ++ []) = chars :=
    beforeVersion_append (fun c hc he => h (he ▸ hc)) (Or.inl rfl)
  rwa [List.append_nil] at hcut

section
variable {spelled : List String} {name : String}

/-- Whatever stands below a folder is looked up under the folder's path and its own name up to the
version. -/
theorem key_join (hparts : ∀ part ∈ spelled, Path.Part part)
    (hmark : ∀ part ∈ spelled, ';' ∉ part.toList) (hname : Path.Part name)
    (hbefore : beforeVersion name.toList ≠ []) :
    Image.key (Path.join ("/".intercalate spelled) name) =
      pathOf (spelled ++ [String.ofList (beforeVersion name.toList)]) := by
  have hall : ∀ part ∈ spelled ++ [name], Path.Part part := by
    intro part hp
    rcases List.mem_append.mp hp with hp | hp
    · exact hparts part hp
    · rwa [List.mem_singleton.mp hp]
  obtain ⟨lead, hlead, hchars⟩ := Path.exists_lead spelled
  have hfree : ∀ c ∈ lead.toList, (c != ';') = true := by
    intro c hc
    apply bne_iff_ne.mpr
    intro he
    subst he
    rcases hchars _ hc with he | ⟨part, hp, hm⟩
    · cases he
    · exact hmark part hp hm
  have hversion : beforeVersion (lead ++ name).toList =
      lead.toList ++ beforeVersion name.toList := by
    rw [beforeVersion, String.toList_append, List.takeWhile_append_of_pos hfree]
    rfl
  have hlast : (lead.toList ++ beforeVersion name.toList).getLast? ≠ some '/' := by
    rw [List.getLast?_append_of_ne_nil _ hbefore]
    intro hlast
    have hm := List.takeWhile_subset _ (List.mem_of_getLast? hlast)
    cases hname.chars _ hm
  have hplain := (Path.plain_intercalate hall).1
  rw [Path.join_intercalate hparts, key_eq, lookedUp, hplain.relative, hlead, hversion,
    Path.trimEndChars_of_last hlast, ← uppercase_eq_pathOf, hlead]
  congr 1
  simp

theorem key_intercalate (hparts : ∀ part ∈ spelled, Path.Part part)
    (hmark : ∀ part ∈ spelled, ';' ∉ part.toList) :
    Image.key ("/".intercalate spelled) = pathOf spelled := by
  obtain ⟨hplain, hlast⟩ := Path.plain_intercalate hparts
  have hfree : ';' ∉ ("/".intercalate spelled).toList := by
    intro hm
    rcases mem_intercalate hm with he | ⟨part, hp, hm⟩
    · cases he
    · exact hmark part hp hm
  rw [key_eq, lookedUp, hplain.relative, beforeVersion_of_notMem hfree,
    Path.trimEndChars_of_last hlast, String.ofList_toList, uppercase_eq_pathOf]

end
end Disc
end LayeredAssets
