import LayeredAssets.Table
import Mathlib.Data.List.Nodup

namespace LayeredAssets

/-- The last one of that name. -/
def lastNamed {α : Type} (name : α → String) (wanted : String) (declared : List α) : Option α :=
  (declared.filter (fun a => name a == wanted)).getLast?

theorem nodup_eraseDups (names : List String) : names.eraseDups.Nodup := by
  induction h : names.length using Nat.strongRecOn generalizing names with
  | _ n ih =>
    cases names with
    | nil => simp
    | cons name names =>
      rw [List.eraseDups_cons, List.nodup_cons]
      refine ⟨by simp [List.mem_eraseDups], ih _ ?_ _ rfl⟩
      have := List.length_filter_le (fun b => !b == name) names
      simp only [List.length_cons] at h
      omega

namespace Table

section
variable {κ α : Type} [DecidableEq κ]

theorem mem_keys_iff {t : Table κ α} {key : κ} : key ∈ t.keys ↔ (t.get? key).isSome = true := by
  obtain ⟨entries⟩ := t
  simp only [keys, get?]
  induction entries with
  | nil => simp [getIn]
  | cons entry rest ih =>
    obtain ⟨k, a⟩ := entry
    by_cases hk : k = key
    · simp [getIn, hk]
    · simp [getIn, hk, Ne.symm hk, ih]

theorem get?_erase_eq_some_iff {t : Table κ α} {key k : κ} {a : α} :
    (t.erase key).get? k = some a ↔ k ≠ key ∧ t.get? k = some a := by
  rw [get?_erase]
  by_cases hk : key = k
  · simp [hk]
  · simp [hk, Ne.symm hk]

theorem mem_entries_of_get? {t : Table κ α} {key : κ} {a : α} (h : t.get? key = some a) :
    (key, a) ∈ t.entries := by
  obtain ⟨entries⟩ := t
  simp only [get?] at h ⊢
  induction entries with
  | nil => cases h
  | cons entry rest ih =>
    obtain ⟨k, b⟩ := entry
    rw [getIn] at h
    split at h
    · next hk =>
      cases h
      exact hk ▸ List.mem_cons_self
    · exact List.mem_cons_of_mem _ (ih h)

/-- With one entry a key, an entry is what its key finds. -/
theorem mem_entries_iff {t : Table κ α} (hu : t.keys.Nodup) {key : κ} {a : α} :
    (key, a) ∈ t.entries ↔ t.get? key = some a := by
  obtain ⟨entries⟩ := t
  simp only [keys, get?] at hu ⊢
  induction entries with
  | nil => simp [getIn]
  | cons entry rest ih =>
    obtain ⟨k, b⟩ := entry
    rw [List.map_cons, List.nodup_cons] at hu
    by_cases hk : k = key
    · subst hk
      have hn : (k, a) ∉ rest := fun hm => hu.1 (List.mem_map.mpr ⟨(k, a), hm, rfl⟩)
      simp [getIn, hn, eq_comm]
    · simp [getIn, hk, Ne.symm hk, ih hu.2]

theorem keys_setIn (key : κ) (a : α) (entries : List (κ × α)) :
    (setIn key a entries).map Prod.fst =
      if key ∈ entries.map Prod.fst then entries.map Prod.fst
      else entries.map Prod.fst ++ [key] := by
  induction entries with
  | nil => simp [setIn]
  | cons entry rest ih =>
    obtain ⟨k, b⟩ := entry
    by_cases hk : k = key
    · simp [setIn, hk]
    · simp only [setIn, hk, ↓reduceIte, List.map_cons, ih, List.mem_cons, Ne.symm hk, false_or]
      split <;> rfl

theorem nodup_keys_set {t : Table κ α} (hu : t.keys.Nodup) (key : κ) (a : α) :
    (t.set key a).keys.Nodup := by
  simp only [keys, set, keys_setIn]
  split
  · exact hu
  · next hn => exact List.nodup_append'.mpr ⟨hu, List.nodup_singleton key, by simpa using hn⟩

theorem nodup_keys_erase {t : Table κ α} (hu : t.keys.Nodup) (key : κ) :
    (t.erase key).keys.Nodup :=
  hu.sublist (List.filter_sublist.map Prod.fst)

theorem getIn_eq_lookup (key : κ) (entries : List (κ × α)) :
    getIn key entries = entries.lookup key := by
  induction entries with
  | nil => rfl
  | cons entry rest ih =>
    obtain ⟨k, a⟩ := entry
    by_cases hk : k = key
    · simp [getIn, hk]
    · have hne : (key == k) = false := by simpa using Ne.symm hk
      simp [getIn, hk, List.lookup_cons, hne, ih]

/-- With one entry a key, the keys and what they find are all there is. -/
theorem entries_eq_filterMap_keys {t : Table κ α} (hu : t.keys.Nodup) :
    t.entries = t.keys.filterMap fun key => (t.get? key).map (key, ·) := by
  obtain ⟨entries⟩ := t
  simp only [keys, get?] at hu ⊢
  induction entries with
  | nil => rfl
  | cons entry rest ih =>
    obtain ⟨k, a⟩ := entry
    rw [List.map_cons, List.nodup_cons] at hu
    have hrest : ∀ key ∈ rest.map Prod.fst,
        (getIn key ((k, a) :: rest)).map (key, ·) = (getIn key rest).map (key, ·) := by
      intro key hkey
      have hne : k ≠ key := fun he => hu.1 (he ▸ hkey)
      rw [getIn, if_neg hne]
    rw [List.map_cons, List.filterMap_cons, List.filterMap_congr hrest, ← ih hu.2]
    simp [getIn]

end

section
variable {α β : Type}

/-- Every value is set under its name, one after the other. -/
def setAll (name : β → String) (value : β → α) (t : Table String α) (entries : List β) :
    Table String α :=
  entries.foldl (fun t b => t.set (name b) (value b)) t

/-- Of a name that is set more than once the last value counts. -/
theorem get?_setAll (name : β → String) (value : β → α) (t : Table String α) (entries : List β)
    (wanted : String) : (t.setAll name value entries).get? wanted =
      ((lastNamed name wanted entries).map value).or (t.get? wanted) := by
  unfold setAll
  induction entries generalizing t with
  | nil => rfl
  | cons b entries ih =>
    rw [List.foldl_cons, ih, get?_set]
    by_cases hb : name b = wanted
    · rw [if_pos hb, lastNamed, lastNamed, List.filter_cons_of_pos (by simpa using hb),
        List.getLast?_cons]
      cases (entries.filter (fun b => name b == wanted)).getLast? with
      | none => rfl
      | some last => rfl
    · rw [if_neg hb, lastNamed, lastNamed, List.filter_cons_of_neg (by simpa using hb)]

theorem get?_setAll_id (name : α → String) (t : Table String α) (entries : List α)
    (wanted : String) : (t.setAll name id entries).get? wanted =
      (lastNamed name wanted entries).or (t.get? wanted) := by
  rw [get?_setAll, Option.map_id_apply]

theorem setAll_append (name : β → String) (value : β → α) (t : Table String α)
    (first second : List β) :
    t.setAll name value (first ++ second) = (t.setAll name value first).setAll name value second :=
  List.foldl_append

/-- A name keeps the place in which it is set first. -/
theorem keys_setAll (name : β → String) (value : β → α) (t : Table String α) (entries : List β) :
    (t.setAll name value entries).keys =
      t.keys ++ ((entries.map name).filter fun key => !t.keys.contains key).eraseDups := by
  unfold setAll
  induction entries generalizing t with
  | nil => simp
  | cons b entries ih =>
    have hset : (t.set (name b) (value b)).keys =
        if name b ∈ t.keys then t.keys else t.keys ++ [name b] := keys_setIn _ _ _
    rw [List.foldl_cons, ih, hset]
    by_cases hb : name b ∈ t.keys
    · rw [if_pos hb, List.map_cons, List.filter_cons_of_neg (by simp [hb])]
    · -- what is new next to the longer list is what is new next to the shorter and not this name
      have hfilter : ((entries.map name).filter fun key => !(t.keys ++ [name b]).contains key) =
          ((entries.map name).filter fun key => !t.keys.contains key).filter
            fun key => !key == name b := by
        rw [List.filter_filter]
        apply List.filter_congr
        intro key _
        by_cases hk : key = name b <;> simp [hk]
      rw [if_neg hb, hfilter, List.map_cons, List.filter_cons_of_pos (by simp [hb]),
        List.eraseDups_cons, List.append_assoc, List.singleton_append]

end
end Table
end LayeredAssets
