import LayeredAssets.Proofs.Host
import LayeredAssets.Text.Uppercase

namespace LayeredAssets

namespace Text

section
variable {c d mark : Char} {letters rest : List Char} {s : String}

/-- What is true of so many codes is true of the characters that have them. -/
theorem forall_char_lt {P : Char → Prop} {bound : Nat} (h : ∀ n < bound, P (Char.ofNat n)) :
    ∀ c : Char, c.toNat < bound → P c := by
  intro c hc
  have hp := h c.toNat hc
  rwa [Char.ofNat_toNat] at hp

/-- Digits, and the marks before the letters, are their own capitals. -/
theorem capital_of_lt (h : c.toNat < 65) : capital c = [c] := by
  have hlow : ∀ c : Char, c.toNat < 65 → c.toUpper = c := forall_char_lt (by decide)
  have hascii : capital c = [c.toUpper] := if_pos (by omega)
  rw [hascii, hlow c h]

theorem spelling_of_lookup {n : Nat} {spelling : List Nat}
    (h : capitalSpellings.lookup n = some spelling) :
    spelling ≠ [] ∧ ∀ m ∈ spelling, 65 ≤ (Char.ofNat m).toNat := by
  have hall : ∀ entry ∈ capitalSpellings,
      entry.2 ≠ [] ∧ ∀ m ∈ entry.2, 65 ≤ (Char.ofNat m).toNat := by decide +kernel
  obtain ⟨before, after, hsplit, -⟩ := List.lookup_eq_some_iff.mp h
  have hm : (n, spelling) ∈ capitalSpellings := by simp [hsplit]
  exact hall _ hm

/-- No run beyond the ASCII letters leads down to a mark, and none to what is no character. -/
theorem CapitalRun.high {run : CapitalRun} {n : Nat} (hm : run ∈ capitalRuns)
    (hc : run.covers n = true) (hn : 128 ≤ n) :
    65 ≤ (Char.ofNat (n + run.shift).toNat).toNat := by
  have hall : ∀ run ∈ capitalRuns, run.last < 128 ∨ 65 ≤ run.first + run.shift ∧
      (run.last + run.shift < 0xd800 ∨
        0xdfff < run.first + run.shift ∧ run.last + run.shift < 0x110000) := by decide +kernel
  simp only [covers, Bool.and_eq_true, decide_eq_true_eq] at hc
  have hrun := hall run hm
  have hvalid : (n + run.shift).toNat.isValidChar := by
    unfold Nat.isValidChar
    omega
  have hcode : (Char.ofNat (n + run.shift).toNat).toNat = (n + run.shift).toNat := by
    rw [Char.ofNat, dif_pos hvalid]
    rfl
  omega

/-- No capital is a mark but the mark's own. -/
theorem eq_of_mem_capital (h : d ∈ capital c) (hd : d.toNat < 65) : c = d := by
  unfold capital at h
  split at h
  · next hc =>
    have hlow : ∀ c : Char, c.toNat < 128 → c.toUpper.toNat < 65 → c = c.toUpper :=
      forall_char_lt (by decide)
    obtain rfl := List.mem_singleton.mp h
    exact hlow c hc hd
  · next hc =>
    split at h
    · next spelling hs =>
      obtain ⟨m, hm, rfl⟩ := List.mem_map.mp h
      have := (spelling_of_lookup hs).2 m hm
      omega
    · split at h
      · next run hrun =>
        obtain rfl := List.mem_singleton.mp h
        have hfound := List.find?_some hrun
        have := CapitalRun.high (List.mem_of_find?_eq_some hrun) hfound (by omega)
        omega
      · exact (List.mem_singleton.mp h).symm

theorem capital_ne_nil (c : Char) : capital c ≠ [] := by
  unfold capital
  split
  · simp
  · split
    · next spelling hs =>
      have := (spelling_of_lookup hs).1
      simpa using this
    · split
      · simp
      · simp

theorem uppercase_append (s t : String) : uppercase (s ++ t) = uppercase s ++ uppercase t := by
  simp [uppercase]

theorem toList_uppercase (s : String) : (uppercase s).toList = s.toList.flatMap capital :=
  String.toList_ofList

theorem mem_uppercase_iff (hd : d.toNat < 65) : d ∈ (uppercase s).toList ↔ d ∈ s.toList := by
  rw [toList_uppercase, List.mem_flatMap]
  constructor
  · intro h
    obtain ⟨c, hc, hcapital⟩ := h
    rwa [← eq_of_mem_capital hcapital hd]
  · intro h
    exact ⟨d, h, by simp [capital_of_lt hd]⟩

theorem uppercase_eq_empty_iff : uppercase s = "" ↔ s = "" := by
  rw [← String.toList_eq_nil_iff, ← String.toList_eq_nil_iff, toList_uppercase,
    List.flatMap_eq_nil_iff]
  constructor
  · intro h
    apply List.eq_nil_iff_forall_not_mem.mpr
    intro c hc
    exact capital_ne_nil c (h c hc)
  · intro h
    simp [h]

theorem getLast?_uppercase_iff (hd : d.toNat < 65) :
    (uppercase s).toList.getLast? = some d ↔ s.toList.getLast? = some d := by
  rw [toList_uppercase]
  rcases List.eq_nil_or_concat s.toList with hs | ⟨init, c, hs⟩
  · simp [hs]
  · rw [hs, List.concat_eq_append, List.flatMap_append, List.flatMap_singleton,
      List.getLast?_append_of_ne_nil _ (capital_ne_nil c), List.getLast?_concat]
    constructor
    · intro h
      rw [eq_of_mem_capital (List.mem_of_getLast? h) hd]
    · intro h
      obtain rfl := Option.some.inj h
      simp [capital_of_lt hd]

theorem splitAt_append_of_notMem (h : mark ∉ letters) {part : List Char}
    {parts : List (List Char)} (hr : splitAt mark rest = part :: parts) :
    splitAt mark (letters ++ rest) = (letters ++ part) :: parts := by
  induction letters with
  | nil => exact hr
  | cons c letters ih =>
    obtain ⟨hc, hl⟩ := not_or.mp (List.mem_cons.not.mp h)
    rw [List.cons_append, splitAt, if_neg (Ne.symm hc), ih hl]
    rfl

theorem splitAt_of_notMem (h : mark ∉ letters) : splitAt mark letters = [letters] := by
  have hnil : splitAt mark [] = [[]] := rfl
  have hsplit := splitAt_append_of_notMem h hnil
  rwa [List.append_nil] at hsplit

/-- A path falls into the same parts in any case. -/
theorem splitAt_capitals (hm : mark.toNat < 65) (chars : List Char) :
    splitAt mark (chars.flatMap capital) =
      (splitAt mark chars).map fun part => part.flatMap capital := by
  induction chars with
  | nil => rfl
  | cons c chars ih =>
    obtain ⟨part, parts, hparts⟩ := List.exists_cons_of_ne_nil (splitAt_ne_nil mark chars)
    rw [hparts] at ih
    rw [List.flatMap_cons, splitAt]
    split
    · next hc =>
      subst hc
      rw [capital_of_lt hm, List.singleton_append, splitAt, if_pos rfl, ih, hparts]
      rfl
    · next hc =>
      have hletters : mark ∉ capital c := fun h => hc (eq_of_mem_capital h hm)
      rw [splitAt_append_of_notMem hletters ih, hparts]
      rfl

end
end Text

theorem Path.parts_uppercase (path : String) :
    parts (Text.uppercase path) = (parts path).map Text.uppercase := by
  rw [parts, parts, Text.toList_uppercase, Text.splitAt_capitals (by decide), List.map_map,
    List.map_map]
  apply List.map_congr_left
  intro part _
  simp [Text.uppercase]

end LayeredAssets
