import LayeredAssets.Proofs.Json.Objects
import LayeredAssets.Proofs.Table

namespace LayeredAssets.Json

/-- A member with its name. -/
def member (m : String × Json) : Option String × Json := (some m.1, m.2)

/-- An object whose members all have names, in the order in which they stand there. A name may stand
there more than once. -/
def keyed (members : List (String × Json)) : Json := .object (members.map member)

/-- The keys of an object, each where it stands first. -/
def keysOf (members : List (String × Json)) : List String := (members.map Prod.fst).eraseDups

/-- What an object has under a key: the last value that stands there. -/
def lastUnder (members : List (String × Json)) (key : String) : Option Json :=
  (lastNamed Prod.fst key members).map Prod.snd

section
variable {members : List (String × Json)} {room : Nat} {key : String}

/-- What can be read has no member without a name. -/
theorem exists_members_of_readable {inner : List (Option String × Json)}
    (h : readableMembers room inner = true) :
    ∃ members : List (String × Json), inner = members.map member := by
  induction inner with
  | nil => exact ⟨[], rfl⟩
  | cons m inner ih =>
    obtain ⟨key, j⟩ := m
    simp only [readableMembers, Bool.and_eq_true] at h
    obtain ⟨⟨hkey, -⟩, hrest⟩ := h
    obtain ⟨key, rfl⟩ := Option.isSome_iff_exists.mp hkey
    obtain ⟨members, rfl⟩ := ih hrest
    exact ⟨(key, j) :: members, rfl⟩

theorem member_injective : Function.Injective member := by
  rintro ⟨key, j⟩ ⟨key', j'⟩ h
  simpa [member] using h

theorem keyed_injective : Function.Injective keyed := by
  intro members members' h
  exact List.map_injective_iff.mpr member_injective (Json.object.inj h)

theorem readableMembers_iff : readableMembers room (members.map member) = true ↔
    ∀ m ∈ members, m.2.isReadable room = true := by
  induction members with
  | nil => simp [readableMembers]
  | cons m members ih => simp [readableMembers, member, ih]

theorem isReadable_keyed_iff : (keyed members).isReadable room = true ↔
    0 < room ∧ ∀ m ∈ members, m.2.isReadable (room - 1) = true := by
  rw [keyed, isReadable, Bool.and_eq_true, decide_eq_true_eq, readableMembers_iff]

/-- What stands in a value that can be read can be read. -/
theorem readable_of_mem (h : (keyed members).isReadable room = true) {m : String × Json}
    (hm : m ∈ members) : m.2.isReadable (room - 1) = true :=
  (isReadable_keyed_iff.mp h).2 m hm

theorem filter_key_eq_nil (h : ∀ m ∈ members, m.1 ≠ key) :
    members.filter (fun m => m.1 == key) = [] := by
  rw [List.filter_eq_nil_iff]
  intro m hm
  simpa using h m hm

theorem mem_of_lastUnder {j : Json} (h : lastUnder members key = some j) : (key, j) ∈ members := by
  obtain ⟨⟨key', j'⟩, hlast, rfl⟩ := Option.map_eq_some_iff.mp h
  obtain ⟨hm, hkey⟩ := List.mem_filter.mp (List.mem_of_getLast? hlast)
  exact beq_iff_eq.mp hkey ▸ hm

theorem mergedMembers_keyed (members : List (String × Json)) :
    mergedMembers (members.map member) = (members.map fun m => (m.1, m.2.merged)).map member := by
  induction members with
  | nil => rfl
  | cons m members ih => simp only [List.map_cons, member, mergedMembers, ih]

theorem exists_keyed_of_readable {inner : List (Option String × Json)}
    (h : (Json.object inner).isReadable room = true) :
    ∃ members : List (String × Json), inner = members.map member := by
  rw [isReadable, Bool.and_eq_true] at h
  exact exists_members_of_readable h.2

theorem setIn_member (key : String) (j : Json) (members : List (String × Json)) :
    Table.setIn (some key) j (members.map member) = (Table.setIn key j members).map member := by
  induction members with
  | nil => rfl
  | cons m members ih =>
    by_cases hm : m.1 = key
    · simp [Table.setIn, member, hm]
    · simpa [Table.setIn, member, hm] using ih

theorem entries_member (members : List (String × Json)) :
    entries (members.map member) = members := by
  induction members with
  | nil => rfl
  | cons m members ih => simpa [entries, member] using ih

theorem foldl_set_member (members : List (String × Json)) (t : Table String Json) :
    (members.map member).foldl (fun t entry => t.set entry.1 entry.2)
        (⟨t.entries.map member⟩ : Table (Option String) Json) =
      ⟨(t.setAll Prod.fst Prod.snd members).entries.map member⟩ := by
  induction members generalizing t with
  | nil => rfl
  | cons m members ih =>
    have hset : (⟨t.entries.map member⟩ : Table (Option String) Json).set (member m).1
        (member m).2 = ⟨(t.set m.1 m.2).entries.map member⟩ :=
      congrArg Table.mk (setIn_member m.1 m.2 t.entries)
    rw [List.map_cons, List.foldl_cons, hset, ih]
    rfl

theorem mergeMembers_keyed (members : List (String × Json)) :
    mergeMembers (mergedMembers (members.map member)) =
      (Table.empty.setAll Prod.fst Prod.snd
        (members.map fun m => (m.1, m.2.merged))).entries.map member := by
  have hempty : (⟨[]⟩ : Table (Option String) Json) =
      ⟨(Table.empty : Table String Json).entries.map member⟩ := rfl
  rw [mergedMembers_keyed, mergeMembers, Table.ofList, Table.empty, hempty, foldl_set_member]

/-- An object counts as its members do, put into a table one after the other. -/
theorem named_member (members : List (String × Json)) :
    named (members.map member) =
      (Table.empty.setAll Prod.fst Prod.snd (members.map fun m => (m.1, m.2.merged))).entries := by
  rw [named, mergeMembers_keyed, entries_member]

theorem merged_keyed (members : List (String × Json)) :
    (keyed members).merged = keyed (named (members.map member)) := by
  rw [keyed, merged, mergeMembers_keyed, ← named_member]
  rfl

theorem lastUnder_merged (members : List (String × Json)) (key : String) :
    lastUnder (members.map fun m => (m.1, m.2.merged)) key =
      (lastUnder members key).map merged := by
  simp [lastUnder, lastNamed, List.filter_map, List.getLast?_map, Function.comp_def]

theorem lookup_named (members : List (String × Json)) (key : String) :
    (named (members.map member)).lookup key = (lastUnder members key).map merged := by
  rw [named_member, ← Table.getIn_eq_lookup]
  change Table.get? _ key = _
  rw [Table.get?_setAll, ← lastUnder_merged]
  simp [Table.empty, Table.get?, Table.getIn, lastUnder]

theorem keys_named (members : List (String × Json)) :
    (named (members.map member)).map Prod.fst = keysOf members := by
  rw [named_member]
  change Table.keys _ = _
  rw [Table.keys_setAll]
  simp [Table.empty, Table.keys, keysOf, Function.comp_def]

theorem nodup_keysOf (members : List (String × Json)) : (keysOf members).Nodup :=
  nodup_eraseDups _

/-- Of a repeated key the first place and the last value count. -/
theorem named_eq (members : List (String × Json)) :
    named (members.map member) = (keysOf members).filterMap fun key =>
      (lastUnder members key).map fun j => (key, j.merged) := by
  have hu : (⟨named (members.map member)⟩ : Table String Json).keys.Nodup := by
    rw [Table.keys, keys_named]
    exact nodup_keysOf members
  have hentries := Table.entries_eq_filterMap_keys hu
  rw [Table.keys, keys_named] at hentries
  refine hentries.trans ?_
  apply List.filterMap_congr
  intro key _
  rw [Table.get?, Table.getIn_eq_lookup, lookup_named, Option.map_map]
  rfl

theorem exists_lastUnder (h : key ∈ keysOf members) : ∃ j, lastUnder members key = some j := by
  obtain ⟨m, hm, hkey⟩ := List.mem_map.mp (List.mem_eraseDups.mp h)
  have hne : members.filter (fun m => m.1 == key) ≠ [] :=
    List.ne_nil_of_mem (List.mem_filter.mpr ⟨hm, by simpa using hkey⟩)
  exact ⟨_, by rw [lastUnder, lastNamed, List.getLast?_eq_some_getLast hne]; rfl⟩

/-- What is made of the members of an object one by one is made of the last value of each key. -/
theorem forall₂_named_iff {α : Type} {R : Json → α → Prop} {found : List (String × α)} :
    List.Forall₂ (fun m f => f.1 = m.1 ∧ R m.2 f.2) (named (members.map member)) found ↔
      found.map Prod.fst = keysOf members ∧
        ∀ f ∈ found, ∃ j, lastUnder members f.1 = some j ∧ R j.merged f.2 := by
  rw [named_eq]
  have hall : ∀ key ∈ keysOf members, ∃ j, lastUnder members key = some j :=
    fun _ => exists_lastUnder
  generalize keysOf members = keys at hall ⊢
  induction keys generalizing found with
  | nil =>
    rw [List.filterMap_nil, List.forall₂_nil_left_iff, List.map_eq_nil_iff]
    constructor
    · rintro rfl
      exact ⟨rfl, by simp⟩
    · exact fun h => h.1
  | cons key keys ih =>
    obtain ⟨⟨j, hj⟩, hkeys⟩ := List.forall_mem_cons.mp hall
    rw [List.filterMap_cons, hj, Option.map_some, List.forall₂_cons_left_iff]
    constructor
    · rintro ⟨f, rest, ⟨hname, hr⟩, hrest, rfl⟩
      obtain ⟨hnames, hvalues⟩ := (ih hkeys).mp hrest
      refine ⟨by rw [List.map_cons, hname, hnames], ?_⟩
      exact List.forall_mem_cons.mpr ⟨⟨j, hname ▸ hj, hr⟩, hvalues⟩
    · rintro ⟨hnames, hvalues⟩
      cases found with
      | nil => cases hnames
      | cons f rest =>
        obtain ⟨hname, hnames⟩ := List.cons.inj hnames
        obtain ⟨⟨j', hj', hr⟩, hvalues⟩ := List.forall_mem_cons.mp hvalues
        obtain rfl := Option.some.inj (hj'.symm.trans (hname ▸ hj))
        exact ⟨f, rest, ⟨hname, hr⟩, (ih hkeys).mpr ⟨hnames, hvalues⟩, rfl⟩

end
end LayeredAssets.Json
