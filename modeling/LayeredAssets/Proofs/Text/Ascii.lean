import LayeredAssets.Text.Uppercase
import LayeredAssets.Text.Utf8

namespace LayeredAssets.Text

/-- One byte a character. -/
def ascii (chars : List Char) : Bytes := chars.map fun c => UInt8.ofNat c.toNat

theorem decodeOnto_eq_append (done : List (Option Char)) (bytes : Bytes) :
    decodeOnto done bytes = decodeOnto [] bytes ++ done := by
  induction hn : bytes.length using Nat.strongRecOn generalizing done bytes with
  | ind n ih =>
    cases bytes with
    | nil => rw [decodeOnto, decodeOnto, List.nil_append]
    | cons b rest =>
      have hl : (firstChar b rest).2.length < n :=
        hn ▸ Nat.lt_succ_of_le (firstChar_length_le b rest)
      rw [decodeOnto, decodeOnto, ih _ hl _ _ rfl, ih _ hl [_] _ rfl, List.append_assoc]
      rfl

theorem decode_cons_of_lt {b : UInt8} (h : b.toNat < 128) (rest : Bytes) :
    decode (b :: rest) = some (Char.ofNat b.toNat) :: decode rest := by
  have hfirst : firstChar b rest = (some (Char.ofNat b.toNat), rest) := by
    simp only [firstChar, lead?, if_pos h, continueChar]
  rw [decode, decodeOnto, decodeOnto_eq_append, hfirst, List.reverse_append]
  rfl

theorem decode_ascii_append {chars : List Char} (h : ∀ c ∈ chars, c.toNat < 128) (rest : Bytes) :
    decode (ascii chars ++ rest) = chars.map some ++ decode rest := by
  induction chars with
  | nil => rfl
  | cons c chars ih =>
    have hc := h c List.mem_cons_self
    have hb : (UInt8.ofNat c.toNat).toNat = c.toNat := by
      rw [UInt8.toNat_ofNat']
      exact Nat.mod_eq_of_lt (by omega)
    rw [ascii, List.map_cons, List.cons_append, decode_cons_of_lt (by rw [hb]; exact hc), hb,
      Char.ofNat_toNat, ← ascii, ih fun c hc => h c (List.mem_cons_of_mem _ hc)]
    rfl

theorem readLossy_ascii_append {chars : List Char} (h : ∀ c ∈ chars, c.toNat < 128)
    (rest : Bytes) :
    (readLossy (ascii chars ++ rest)).toList = chars ++ (readLossy rest).toList := by
  rw [readLossy, readLossy, decode_ascii_append h, List.map_append, List.map_map,
    String.toList_ofList, String.toList_ofList]
  exact congrArg (· ++ _) (List.map_id chars)

theorem uppercase_of_lt {s : String} (h : ∀ c ∈ s.toList, c.toNat < 128) :
    uppercase s = s.toUpper := by
  have hc : ∀ c ∈ s.toList, capital c = [c.toUpper] := fun c hc => if_pos (h c hc)
  rw [uppercase, String.toUpper, String.map_eq_internal, List.flatMap_def, List.map_congr_left hc,
    ← List.flatMap_def, List.map_eq_flatMap]

end LayeredAssets.Text

namespace LayeredAssets.Bytes

theorem toList_loop_eq (bytes : ByteArray) (i : Nat) (done : Bytes) :
    ByteArray.toList.loop bytes i done = done.reverse ++ bytes.data.toList.drop i := by
  induction hn : bytes.size - i generalizing i done with
  | zero =>
    rw [ByteArray.toList.loop, if_neg (by omega), List.drop_eq_nil_of_le, List.append_nil]
    simpa using (by omega : bytes.size ≤ i)
  | succ n ih =>
    have hi : i < bytes.data.toList.length := by
      have : bytes.data.toList.length = bytes.size := rfl
      omega
    have hget : bytes.get! i = bytes.data.toList[i] := getElem!_pos bytes.data i hi
    rw [ByteArray.toList.loop, if_pos (by omega), ih _ _ (by omega), List.reverse_cons,
      List.append_assoc, hget, List.drop_eq_getElem_cons hi]
    rfl

theorem ofText_eq_data (s : String) : ofText s = s.toUTF8.data.toList :=
  toList_loop_eq s.toUTF8 0 []

end LayeredAssets.Bytes
