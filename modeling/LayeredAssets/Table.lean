namespace LayeredAssets

/-- Values by key, in the order in which their keys came first. -/
structure Table (κ α : Type) where
  entries : List (κ × α)
  deriving DecidableEq, Repr

namespace Table

variable {κ α : Type} [DecidableEq κ]

def empty : Table κ α := ⟨[]⟩

def getIn (key : κ) : List (κ × α) → Option α
  | [] => none
  | (k, a) :: rest => if k = key then some a else getIn key rest

def get? (t : Table κ α) (key : κ) : Option α := getIn key t.entries

/-- A key that is there keeps its place. -/
def setIn (key : κ) (a : α) : List (κ × α) → List (κ × α)
  | [] => [(key, a)]
  | (k, b) :: rest => if k = key then (key, a) :: rest else (k, b) :: setIn key a rest

def set (t : Table κ α) (key : κ) (a : α) : Table κ α := ⟨setIn key a t.entries⟩

def erase (t : Table κ α) (key : κ) : Table κ α :=
  ⟨t.entries.filter (fun entry => entry.1 ≠ key)⟩

def contains (t : Table κ α) (key : κ) : Bool := (t.get? key).isSome

def keys (t : Table κ α) : List κ := t.entries.map Prod.fst

def size (t : Table κ α) : Nat := t.entries.length

def ofList (entries : List (κ × α)) : Table κ α :=
  entries.foldl (fun t entry => t.set entry.1 entry.2) empty

theorem getIn_setIn (key k : κ) (a : α) (entries : List (κ × α)) :
    getIn k (setIn key a entries) = if key = k then some a else getIn k entries := by
  induction entries with
  | nil => simp [getIn, setIn]
  | cons entry rest ih =>
    obtain ⟨k', b⟩ := entry
    by_cases hk : k' = key
    · subst hk
      by_cases h : k' = k <;> simp [getIn, setIn, h]
    · by_cases h : k' = k
      · subst h
        simp [getIn, setIn, hk, Ne.symm hk]
      · simp [getIn, setIn, hk, h, ih]

theorem get?_set (t : Table κ α) (key k : κ) (a : α) :
    (t.set key a).get? k = if key = k then some a else t.get? k :=
  getIn_setIn key k a t.entries

theorem get?_erase (t : Table κ α) (key k : κ) :
    (t.erase key).get? k = if key = k then none else t.get? k := by
  obtain ⟨entries⟩ := t
  simp only [erase, get?]
  induction entries with
  | nil => simp [getIn]
  | cons entry rest ih =>
    obtain ⟨k', b⟩ := entry
    by_cases hk : k' = key
    · subst hk
      by_cases h : k' = k
      · subst h
        simpa [getIn] using ih
      · simpa [getIn, h] using ih
    · by_cases h : k' = k
      · subst h
        simp [getIn, hk, Ne.symm hk]
      · simpa [getIn, hk, h] using ih

def totalIn (f : α → Nat) : List (κ × α) → Nat
  | [] => 0
  | (_, a) :: rest => f a + totalIn f rest

/-- The sum of a measure over all values. -/
def total (f : α → Nat) (t : Table κ α) : Nat := totalIn f t.entries

theorem total_set_le (f : α → Nat) (t : Table κ α) (key : κ) (a : α) :
    (t.set key a).total f ≤ t.total f + f a := by
  obtain ⟨entries⟩ := t
  simp only [total, set]
  induction entries with
  | nil => simp [setIn, totalIn]
  | cons entry rest ih =>
    obtain ⟨k, b⟩ := entry
    simp only [setIn]
    split
    · simp only [totalIn]
      omega
    · simp only [totalIn]
      omega

theorem total_erase_le (f : α → Nat) (t : Table κ α) (key : κ) :
    (t.erase key).total f ≤ t.total f := by
  obtain ⟨entries⟩ := t
  simp only [total, erase]
  induction entries with
  | nil => simp
  | cons entry rest ih =>
    simp only [List.filter_cons]
    split <;> simp only [totalIn] <;> omega

theorem total_erase_add_le {f : α → Nat} {t : Table κ α} {key : κ} {a : α}
    (h : t.get? key = some a) : (t.erase key).total f + f a ≤ t.total f := by
  obtain ⟨entries⟩ := t
  simp only [get?] at h
  induction entries with
  | nil => simp [getIn] at h
  | cons entry rest ih =>
    obtain ⟨k, b⟩ := entry
    simp only [getIn] at h
    by_cases hk : k = key
    · rw [if_pos hk] at h
      obtain rfl := Option.some.inj h
      have := total_erase_le f ⟨rest⟩ key
      simp only [total, erase, List.filter_cons, hk, ne_eq, not_true_eq_false, decide_false,
        Bool.false_eq_true, ↓reduceIte, totalIn] at this ⊢
      omega
    · rw [if_neg hk] at h
      have := ih h
      simp only [total, erase, List.filter_cons, ne_eq, hk, not_false_eq_true, decide_true,
        ↓reduceIte, totalIn] at this ⊢
      omega

end Table
end LayeredAssets
