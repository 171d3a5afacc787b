import LayeredAssets.Disc.Record
import LayeredAssets.Proofs.Disc.Tree
import Mathlib.Algebra.Group.Nat.Defs

namespace LayeredAssets

namespace Bytes

/-- The lowest digits of a number first. -/
def ofNat : (count n : Nat) → Bytes
  | 0, _ => []
  | count + 1, n => UInt8.ofNat n :: ofNat count (n / 256)

theorem length_ofNat (count n : Nat) : (ofNat count n).length = count := by
  induction count generalizing n with
  | zero => rfl
  | succ count ih => rw [ofNat, List.length_cons, ih]

theorem toNat_ofNat {count n : Nat} (h : n < 256 ^ count) : toNat (ofNat count n) = n := by
  induction count generalizing n with
  | zero =>
    rw [Nat.pow_zero, Nat.lt_one_iff] at h
    exact h.symm
  | succ count ih =>
    have hdiv : n / 256 < 256 ^ count := Nat.div_lt_of_lt_mul (by rwa [← Nat.pow_succ'])
    have hcons : toNat (ofNat (count + 1) n) =
        (UInt8.ofNat n).toNat + 256 * toNat (ofNat count (n / 256)) := rfl
    rw [hcons, ih hdiv, UInt8.toNat_ofNat']
    exact Nat.mod_add_div n 256

end Bytes

namespace Disc

/-- A record as it stands in a folder. What nobody reads stands between what is read: each number
once more in the other byte order, times, and the like. -/
structure Recorded where
  extent : Extent
  flags : UInt8
  identifier : Bytes
  attributes : UInt8
  sectorAgain : Vector UInt8 4
  lengthAgain : Vector UInt8 4
  time : Vector UInt8 7
  volume : Vector UInt8 6
  tail : Bytes
  sector_lt : extent.sector < 256 ^ 4
  length_lt : extent.length < 256 ^ 4
  named : identifier ≠ []
  fits : 33 + identifier.length + tail.length < 256

theorem take_drop_middle {before middle behind : Bytes} {start count : Nat}
    (hs : before.length = start) (hc : middle.length = count) :
    ((before ++ (middle ++ behind)).drop start).take count = middle := by
  rw [List.drop_left' hs, List.take_left' hc]

namespace Recorded

def length (r : Recorded) : Nat := 33 + r.identifier.length + r.tail.length

/-- All that stands before the identifier. -/
def head (r : Recorded) : Bytes :=
  [UInt8.ofNat r.length, r.attributes] ++
    Bytes.ofNat 4 r.extent.sector ++ r.sectorAgain.toList ++
    Bytes.ofNat 4 r.extent.length ++ r.lengthAgain.toList ++
    r.time.toList ++ [r.flags] ++ r.volume.toList ++ [UInt8.ofNat r.identifier.length]

def bytes (r : Recorded) : Bytes := r.head ++ r.identifier ++ r.tail

/-- The second bit of the flags marks a folder. -/
def isFolder (r : Recorded) : Bool := r.flags.toNat.testBit 1

/-- What a record says. -/
def record (r : Recorded) : Record := ⟨recordName r.identifier, r.extent, r.isFolder⟩

theorem length_head (r : Recorded) : r.head.length = 33 := by
  simp [head, Bytes.length_ofNat]

theorem length_bytes (r : Recorded) : r.bytes.length = r.length := by
  rw [bytes, List.length_append, List.length_append, length_head, length]

theorem length_lt_256 (r : Recorded) : r.length < 256 := r.fits

theorem toNat_first (r : Recorded) : (UInt8.ofNat r.length).toNat = r.length := by
  rw [UInt8.toNat_ofNat']
  exact Nat.mod_eq_of_lt r.fits

theorem leastRecord_le (r : Recorded) : leastRecord ≤ r.length := by
  have := List.length_pos_of_ne_nil r.named
  unfold leastRecord length
  omega

theorem parseRecord_bytes (r : Recorded) (rest : Bytes) :
    parseRecord (r.bytes ++ rest) = some r.record := by
  have hsector : ((r.bytes ++ rest).drop 2).take 4 = Bytes.ofNat 4 r.extent.sector := by
    simp only [bytes, head, List.append_assoc]
    exact take_drop_middle rfl (Bytes.length_ofNat _ _)
  have hlength : ((r.bytes ++ rest).drop 10).take 4 = Bytes.ofNat 4 r.extent.length := by
    rw [bytes, head]
    simp only [List.append_assoc]
    rw [← List.append_assoc, ← List.append_assoc]
    exact take_drop_middle (by simp [Bytes.length_ofNat]) (Bytes.length_ofNat _ _)
  have hflags : (r.bytes ++ rest)[25]? = some r.flags := by
    simp [bytes, head, List.getElem?_append, Bytes.length_ofNat]
  have hcount : (r.bytes ++ rest)[32]? = some (UInt8.ofNat r.identifier.length) := by
    simp [bytes, head, List.getElem?_append, Bytes.length_ofNat]
  have hidentifier : Bytes.slice? (r.bytes ++ rest) 33 r.identifier.length =
      some r.identifier := by
    unfold Bytes.slice?
    rw [bytes, List.append_assoc, List.append_assoc,
      take_drop_middle r.length_head rfl]
    exact if_pos rfl
  have hsize : (UInt8.ofNat r.identifier.length).toNat = r.identifier.length := by
    have := r.fits
    rw [UInt8.toNat_ofNat']
    exact Nat.mod_eq_of_lt (by omega)
  have hfirst : (r.bytes ++ rest).head? = some (UInt8.ofNat r.length) := rfl
  have hleast := r.leastRecord_le
  have hlen := r.length_bytes
  unfold parseRecord
  rw [hfirst]
  simp only [Option.bind_eq_bind, Option.bind_some, r.toNat_first, List.getD_eq_getElem?_getD,
    hcount, hflags, Option.getD_some, hsize, hidentifier, hsector, hlength,
    Bytes.toNat_ofNat r.sector_lt, Bytes.toNat_ofNat r.length_lt]
  rw [if_neg (by rw [List.length_append]; omega)]
  have hfolder : (r.flags.toNat / 2 % 2 = 1 : Bool) = r.isFolder := by
    rw [isFolder, Nat.testBit_eq_decide_div_mod_eq, Nat.pow_one]
  exact congrArg (fun folder => some (Record.mk _ _ folder)) hfolder

/-- The identifier is the name, and a version may follow. -/
def Names (r : Recorded) (name : String) : Prop :=
  ∃ version, r.identifier = Text.ascii name.toList ++ version ∧
    (version = [] ∨ ∃ rest, version = 59 :: rest)

theorem record_name {r : Recorded} {name : String} (h : r.Names name) (hp : PlainName name) :
    r.record.name = name := by
  obtain ⟨version, hi, hv⟩ := h
  have hlossy := Text.readLossy_ascii_append
    (fun c hc => Nat.lt_trans (hp.chars c hc).high (by decide)) version
  have hversion : (Text.readLossy version).toList = [] ∨
      ∃ rest, (Text.readLossy version).toList = ';' :: rest := by
    rcases hv with rfl | ⟨rest, rfl⟩
    · left
      simp [Text.readLossy, Text.decode, Text.decodeOnto]
    · right
      rw [Text.readLossy, Text.decode_cons_of_lt (by decide), String.toList_ofList]
      exact ⟨_, rfl⟩
  obtain ⟨c, chars, hc⟩ := List.exists_cons_of_ne_nil hp.ne_nil
  have hlow := (hp.chars c (hc ▸ List.mem_cons_self)).low
  have hhigh := (hp.chars c (hc ▸ List.mem_cons_self)).high
  have hfirst : ∀ b : UInt8, b.toNat < 32 → r.identifier ≠ [b] := by
    intro b hb he
    rw [hi, hc] at he
    have hbyte := congrArg UInt8.toNat (List.cons.inj he).1
    rw [UInt8.toNat_ofNat', Nat.mod_eq_of_lt (by omega)] at hbyte
    omega
  rw [record, recordName, if_neg (hfirst 0 (by decide)), if_neg (hfirst 1 (by decide)), hi, hlossy,
    beforeVersion_append (fun c hc => (hp.chars c hc).not_semicolon) hversion,
    Path.trimEndChars_of_last hp.last, String.ofList_toList]

end Recorded

/-- How records stand in the extent of a folder, where so many bytes stand before them. None goes
across the end of a sector: what is left of it is filled with zeros. -/
inductive Packed : (before : Nat) → List Recorded → Bytes → Prop
  | last {before count} (h : count ≤ sectorSize - before % sectorSize) :
    Packed before [] (List.replicate count 0)
  | padding {before records bytes}
    (h : Packed (before + (sectorSize - before % sectorSize)) records bytes) :
    Packed before records (List.replicate (sectorSize - before % sectorSize) 0 ++ bytes)
  | record {before records bytes} (r : Recorded)
    (hr : before % sectorSize + r.bytes.length ≤ sectorSize)
    (h : Packed (before + r.bytes.length) records bytes) :
    Packed before (r :: records) (r.bytes ++ bytes)

end Disc
end LayeredAssets
