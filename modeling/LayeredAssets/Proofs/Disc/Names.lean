import LayeredAssets.Disc.Image
import LayeredAssets.Proofs.Path
import LayeredAssets.Proofs.Text.Ascii
import Mathlib.Data.List.Forall2

namespace LayeredAssets.Disc

/-- The printable characters of ASCII that mean nothing in a path. -/
structure NameChar (c : Char) : Prop where
  low : 32 ≤ c.toNat
  high : c.toNat < 127
  not_slash : c ≠ '/'
  not_backslash : c ≠ '\\'
  not_semicolon : c ≠ ';'

/-- A name that is found again by a path. -/
structure PlainName (name : String) : Prop where
  ne_nil : name.toList ≠ []
  chars : ∀ c ∈ name.toList, NameChar c
  last : name.toList.getLast? ≠ some '.'

/-- The case of letters apart. -/
def SameName (a b : String) : Prop := a.toUpper = b.toUpper

namespace SameName

theorem refl (a : String) : SameName a a := rfl

theorem symm {a b : String} (h : SameName a b) : SameName b a := Eq.symm h

theorem trans {a b c : String} (h : SameName a b) (h' : SameName b c) : SameName a c :=
  Eq.trans h h'

end SameName

theorem toUpper_cases (c : Char) :
    c.toUpper = c ∨ (97 ≤ c.toNat ∧ c.toNat ≤ 122 ∧ c.toUpper.toNat + 32 = c.toNat) := by
  by_cases h : 97 ≤ c.toNat ∧ c.toNat ≤ 122
  · have hletter : ∀ n < 123, 97 ≤ n → (Char.ofNat n).toUpper.toNat + 32 = n := by decide
    have := hletter c.toNat (by omega) h.1
    rw [Char.ofNat_toNat] at this
    exact .inr ⟨h.1, h.2, this⟩
  · exact .inl (dif_neg h)

theorem nameChar_iff (c : Char) : NameChar c ↔
    32 ≤ c.toNat ∧ c.toNat < 127 ∧ c.toNat ≠ 47 ∧ c.toNat ≠ 92 ∧ c.toNat ≠ 59 := by
  have hslash : c = '/' ↔ c.toNat = 47 := Char.toNat_inj.symm
  have hbackslash : c = '\\' ↔ c.toNat = 92 := Char.toNat_inj.symm
  have hsemicolon : c = ';' ↔ c.toNat = 59 := Char.toNat_inj.symm
  constructor
  · rintro ⟨hl, hh, hs, hb, hc⟩
    exact ⟨hl, hh, hslash.not.mp hs, hbackslash.not.mp hb, hsemicolon.not.mp hc⟩
  · rintro ⟨hl, hh, hs, hb, hc⟩
    exact ⟨hl, hh, hslash.not.mpr hs, hbackslash.not.mpr hb, hsemicolon.not.mpr hc⟩

/-- Letters keep to themselves, so nothing is gained or lost by another case. -/
theorem nameChar_toUpper_iff (c : Char) : NameChar c.toUpper ↔ NameChar c := by
  rw [nameChar_iff, nameChar_iff]
  rcases toUpper_cases c with h | ⟨hl, hh, hu⟩
  · rw [h]
  · omega

theorem toUpper_eq_dot_iff (c : Char) : c.toUpper = '.' ↔ c = '.' := by
  rcases toUpper_cases c with h | ⟨hl, hh, hu⟩
  · rw [h]
  · have hd : '.'.toNat = 46 := by decide
    constructor
    · intro h
      rw [h, hd] at hu
      omega
    · rintro rfl
      omega

theorem toList_toUpper (name : String) : name.toUpper.toList = name.toList.map Char.toUpper :=
  String.toList_map

theorem plainName_toUpper_iff (name : String) : PlainName name.toUpper ↔ PlainName name := by
  have hlast : name.toUpper.toList.getLast? = some '.' ↔ name.toList.getLast? = some '.' := by
    rw [toList_toUpper, List.getLast?_map, Option.map_eq_some_iff]
    simp only [toUpper_eq_dot_iff, exists_eq_right]
  have hchars : (∀ c ∈ name.toUpper.toList, NameChar c) ↔ ∀ c ∈ name.toList, NameChar c := by
    rw [toList_toUpper]
    simp only [List.mem_map, forall_exists_index, and_imp, forall_apply_eq_imp_iff₂,
      nameChar_toUpper_iff]
  have hnil : name.toUpper.toList = [] ↔ name.toList = [] := by
    rw [toList_toUpper, List.map_eq_nil_iff]
  constructor
  · intro h
    exact ⟨fun hn => h.ne_nil (hnil.mpr hn), hchars.mp h.chars, fun hd => h.last (hlast.mpr hd)⟩
  · intro h
    exact ⟨fun hn => h.ne_nil (hnil.mp hn), hchars.mpr h.chars, fun hd => h.last (hlast.mp hd)⟩

theorem SameName.plain {a b : String} (h : SameName a b) (hb : PlainName b) : PlainName a :=
  (plainName_toUpper_iff a).mp (h ▸ (plainName_toUpper_iff b).mpr hb)

theorem beforeVersion_append {chars version : List Char} (h : ∀ c ∈ chars, c ≠ ';')
    (hv : version = [] ∨ ∃ rest, version = ';' :: rest) :
    beforeVersion (chars ++ version) = chars := by
  have hchars : ∀ c ∈ chars, (c != ';') = true := fun c hc => bne_iff_ne.mpr (h c hc)
  rw [beforeVersion, List.takeWhile_append_of_pos hchars]
  rcases hv with rfl | ⟨rest, rfl⟩
  · rw [List.takeWhile_nil, List.append_nil]
  · rw [List.takeWhile_cons_of_neg (by simp), List.append_nil]

/-- The names of a path in capitals. -/
def keyOf (names : List String) : String := "/".intercalate (names.map String.toUpper)

/-- A path by which a reader may ask for these names: in any case, with either separator, as many
separators as one likes, and a version at the end. -/
def Spells (path : String) (names : List String) : Prop :=
  ∃ lead spelled body version, path.toList = lead ++ (body ++ version) ∧ Path.Lead lead ∧
    Path.Joined spelled body ∧ List.Forall₂ SameName spelled names ∧
      (version = [] ∨ ∃ rest, version = ';' :: rest)

theorem NameChar.not_separator {c : Char} (h : NameChar c) : Path.isSeparator c = false := by
  rw [Path.isSeparator, Bool.or_eq_false_iff, beq_eq_false_iff_ne, beq_eq_false_iff_ne]
  exact ⟨h.not_slash, h.not_backslash⟩

theorem PlainName.part {name : String} (h : PlainName name) : Path.Part name := by
  refine ⟨h.ne_nil, fun c hc => (h.chars c hc).not_separator, fun hd => h.last ?_⟩
  rw [hd]
  rfl

theorem sameNames_iff {names names' : List String} :
    List.Forall₂ SameName names names' ↔ names.map String.toUpper = names'.map String.toUpper := by
  rw [← List.forall₂_eq_eq_eq, List.forall₂_map_left_iff, List.forall₂_map_right_iff]
  rfl

theorem sameNames_plain {names names' : List String} (h : List.Forall₂ SameName names names')
    (hp : ∀ name ∈ names', PlainName name) : ∀ name ∈ names, PlainName name := by
  intro name hm
  have hu := List.mem_map_of_mem (f := String.toUpper) hm
  rw [sameNames_iff.mp h] at hu
  obtain ⟨name', hm', hs⟩ := List.mem_map.mp hu
  exact SameName.plain hs.symm (hp name' hm')

section
variable {names names' : List String}

theorem intercalate_cons (name : String) (names : List String) :
    ∃ rest, "/".intercalate (name :: names) = name ++ rest := by
  cases names with
  | nil => exact ⟨"", by simp⟩
  | cons next names => exact ⟨"/" ++ "/".intercalate (next :: names), by simp [String.append_assoc]⟩

theorem keyOf_ne_empty {name : String} (hp : PlainName name) (names : List String) :
    keyOf (name :: names) ≠ "" := by
  have hne := ((plainName_toUpper_iff name).mpr hp).ne_nil
  obtain ⟨rest, hr⟩ := intercalate_cons name.toUpper (names.map String.toUpper)
  intro h
  rw [keyOf, List.map_cons, hr] at h
  have hl := congrArg String.toList h
  rw [String.toList_append] at hl
  exact hne (List.append_eq_nil_iff.mp hl).1

theorem keyOf_concat (hp : ∀ name ∈ names, PlainName name) (name : String) :
    keyOf (names ++ [name]) =
      if keyOf names = "" then name.toUpper else keyOf names ++ "/" ++ name.toUpper := by
  cases names with
  | nil => simp [keyOf]
  | cons first names =>
    rw [if_neg (keyOf_ne_empty (hp first List.mem_cons_self) names), keyOf, List.map_append,
      String.intercalate_append_of_ne_nil (by simp) (by simp)]
    simp [keyOf]

theorem slash_notMem {name : String} (hp : PlainName name) : '/' ∉ name.toUpper.toList :=
  fun hm => (((plainName_toUpper_iff name).mpr hp).chars _ hm).not_slash rfl

/-- Paths have one key only if they differ by case at most. -/
theorem sameNames_of_keyOf (hp : ∀ name ∈ names, PlainName name)
    (hp' : ∀ name ∈ names', PlainName name) (h : keyOf names = keyOf names') :
    List.Forall₂ SameName names names' := by
  have hsplit : ∀ {names : List String}, (∀ name ∈ names, PlainName name) → names ≠ [] →
      (keyOf names).toList.splitOn '/' = (names.map String.toUpper).map String.toList := by
    intro names hp hne
    rw [keyOf, String.toList_intercalate]
    refine List.splitOn_intercalate '/' (fun chars hm => ?_) (by simpa using hne)
    rw [List.map_map, List.mem_map] at hm
    obtain ⟨name, hm, rfl⟩ := hm
    exact slash_notMem (hp name hm)
  cases names with
  | nil =>
    cases names' with
    | nil => exact .nil
    | cons name names' => exact absurd h.symm (keyOf_ne_empty (hp' name List.mem_cons_self) _)
  | cons name names =>
    cases names' with
    | nil => exact absurd h (keyOf_ne_empty (hp name List.mem_cons_self) _)
    | cons name' names' =>
      have hmap := hsplit hp (List.cons_ne_nil _ _)
      rw [h, hsplit hp' (List.cons_ne_nil _ _)] at hmap
      have hinj : Function.Injective String.toList := fun _ _ => String.toList_inj.mp
      exact sameNames_iff.mpr (List.map_injective_iff.mpr hinj hmap.symm)

theorem toUpper_intercalate (names : List String) :
    ("/".intercalate names).toUpper = keyOf names := by
  have happ : ∀ a b : String, (a ++ b).toUpper = a.toUpper ++ b.toUpper := fun a b =>
    String.toList_inj.mp (by simp [toList_toUpper])
  have hslash : "/".toUpper = "/" := String.toList_inj.mp (by rw [toList_toUpper]; decide)
  induction names with
  | nil => exact String.toList_inj.mp (by simp [toList_toUpper, keyOf])
  | cons name names ih =>
    cases names with
    | nil => simp [keyOf]
    | cons next names =>
      rw [String.intercalate_cons_cons, happ, happ, hslash, ih]
      simp only [keyOf, List.map_cons, String.intercalate_cons_cons]

theorem mem_intercalate {c : Char} (h : c ∈ ("/".intercalate names).toList) :
    c = '/' ∨ ∃ name ∈ names, c ∈ name.toList := by
  induction names with
  | nil => simp at h
  | cons name names ih =>
    cases names with
    | nil =>
      rw [String.intercalate_singleton] at h
      exact .inr ⟨name, List.mem_cons_self, h⟩
    | cons next names =>
      rw [String.intercalate_cons_cons, String.toList_append, String.toList_append] at h
      rcases List.mem_append.mp h with h | h
      · rcases List.mem_append.mp h with h | h
        · exact .inr ⟨name, List.mem_cons_self, h⟩
        · exact .inl (List.mem_singleton.mp h)
      · exact (ih h).imp_right fun ⟨name, hm, hc⟩ => ⟨name, List.mem_cons_of_mem _ hm, hc⟩

theorem intercalate_last (hp : ∀ name ∈ names, PlainName name) :
    ("/".intercalate names).toList.getLast? ≠ some '/' := by
  induction names with
  | nil => simp
  | cons name names ih =>
    have hname := hp name List.mem_cons_self
    cases names with
    | nil =>
      intro h
      rw [String.intercalate_singleton] at h
      exact (hname.chars _ (List.mem_of_getLast? h)).not_slash rfl
    | cons next names =>
      have hnext : ("/".intercalate (next :: names)).toList ≠ [] := by
        obtain ⟨rest, hr⟩ := intercalate_cons next names
        rw [hr, String.toList_append]
        intro he
        exact (hp next (by simp)).ne_nil (List.append_eq_nil_iff.mp he).1
      rw [String.intercalate_cons_cons, String.toList_append,
        List.getLast?_append_of_ne_nil _ hnext]
      exact ih fun n hm => hp n (List.mem_cons_of_mem _ hm)

/-- A path loses what leads nowhere, and keeps its names with one slash between them. -/
theorem relative_of_spells {path : String} (h : Spells path names)
    (hp : ∀ name ∈ names, PlainName name) :
    ∃ spelled tail version, List.Forall₂ SameName spelled names ∧ (tail = [] ∨ tail = ['/']) ∧
      (version = [] ∨ ∃ rest, version = ';' :: rest) ∧
      (Path.relative path).toList = ("/".intercalate spelled).toList ++ tail ++ version := by
  obtain ⟨lead, spelled, body, version, hpath, hlead, hjoined, hsame, hversion⟩ := h
  have hpart : ∀ name ∈ spelled, Path.Part name :=
    fun name hm => (sameNames_plain hsame hp name hm).part
  have hopens : Path.Opens version := by
    rcases hversion with rfl | ⟨rest, rfl⟩
    · rintro c ⟨⟩
    · rintro c ⟨⟩
      decide
  have hrest : Path.normalizeAfter false version = [] ∨
      ∃ rest, Path.normalizeAfter false version = ';' :: rest := by
    rcases hversion with rfl | ⟨rest, rfl⟩
    · exact .inl rfl
    · exact .inr ⟨_, Path.normalizeAfter_of_not_separator (by decide) _ _⟩
  rw [Path.relative, String.toList_ofList, hpath,
    Path.stripLeads_lead hlead]
  obtain ⟨tail, ht, hbody⟩ := hjoined.normalizeAfter hpart hopens
  cases hjoined with
  | nil =>
    refine ⟨[], [], _, hsame, .inl rfl, hrest, ?_⟩
    rw [List.nil_append]
    rcases hrest with he | ⟨rest, he⟩
    · rw [he]
      rfl
    · rw [he]
      rfl
  | @cons rest body name gap =>
    refine ⟨name :: rest, tail, _, hsame, ht, hrest, ?_⟩
    obtain ⟨after, ha⟩ := intercalate_cons name rest
    rw [hbody, ha, String.toList_append, List.append_assoc, List.append_assoc,
      (hpart name List.mem_cons_self).stripLeads]

theorem char_of_intercalate (hp : ∀ name ∈ names, PlainName name) {c : Char}
    (h : c ∈ ("/".intercalate names).toList) : c = '/' ∨ NameChar c :=
  (mem_intercalate h).imp_right fun ⟨name, hm, hc⟩ => (hp name hm).chars c hc

theorem uppercase_intercalate (hp : ∀ name ∈ names, PlainName name) :
    Text.uppercase ("/".intercalate names) = keyOf names := by
  rw [Text.uppercase_of_lt ?_, toUpper_intercalate]
  intro c hc
  rcases char_of_intercalate hp hc with rfl | hn
  · decide
  · exact Nat.lt_trans hn.high (by decide)

theorem beforeVersion_intercalate (hp : ∀ name ∈ names, PlainName name) {path : String}
    {tail version : List Char} (ht : tail = [] ∨ tail = ['/'])
    (hv : version = [] ∨ ∃ rest, version = ';' :: rest)
    (h : path.toList = ("/".intercalate names).toList ++ tail ++ version) :
    beforeVersion path.toList = ("/".intercalate names).toList ++ tail := by
  rw [h]
  refine beforeVersion_append (fun c hc => ?_) hv
  rcases List.mem_append.mp hc with hc | hc
  · rcases char_of_intercalate hp hc with rfl | hn
    · decide
    · exact hn.not_semicolon
  · rcases ht with rfl | rfl
    · cases hc
    · rw [List.mem_singleton.mp hc]
      decide

theorem trimEnd_intercalate (hp : ∀ name ∈ names, PlainName name) {tail : List Char}
    (ht : tail = [] ∨ tail = ['/']) :
    Path.trimEndChars '/' (("/".intercalate names).toList ++ tail) =
      ("/".intercalate names).toList := by
  rcases ht with rfl | rfl
  · rw [List.append_nil, Path.trimEndChars_of_last (intercalate_last hp)]
  · rw [Path.trimEndChars_append_self, Path.trimEndChars_of_last (intercalate_last hp)]

theorem key_of_spells {path : String} (h : Spells path names)
    (hp : ∀ name ∈ names, PlainName name) : Image.key path = keyOf names := by
  obtain ⟨spelled, tail, version, hsame, ht, hv, hrel⟩ := relative_of_spells h hp
  have hplain := sameNames_plain hsame hp
  rw [Image.key, beforeVersion_intercalate hplain ht hv hrel, trimEnd_intercalate hplain ht,
    String.ofList_toList, uppercase_intercalate hplain, keyOf, keyOf, sameNames_iff.mp hsame]

end
end LayeredAssets.Disc
