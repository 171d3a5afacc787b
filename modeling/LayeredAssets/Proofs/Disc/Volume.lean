import LayeredAssets.Proofs.Disc.Listing

namespace LayeredAssets.Disc

/-- The extent of a folder lists the folder itself, the one above it and its entries, in any
order. -/
structure Listed (image : Node) (framing : Framing) (entries : List (String × Tree))
    (extent : Extent) (recorded : String → Recorded) : Prop where
  stands : ∃ self parent listing bytes, self.identifier = [0] ∧ parent.identifier = [1] ∧
    listing.Perm (self :: parent :: entries.map fun entry => recorded entry.1) ∧
    Packed 0 listing bytes ∧ Holds image framing extent bytes
  names : ∀ name child, (name, child) ∈ entries → (recorded name).Names name
  isFolder : ∀ name child, (name, child) ∈ entries → (recorded name).isFolder = child.isFolder

/-- A tree stands on an image, and this is where. -/
inductive LaidOut (image : Node) (framing : Framing) : Tree → Extent → Prop
  | file {bytes extent} (h : Holds image framing extent bytes) :
    LaidOut image framing (.file bytes) extent
  | folder {entries extent} (recorded : String → Recorded)
    (listed : Listed image framing entries extent recorded)
    (within : ∀ name child, (name, child) ∈ entries →
      LaidOut image framing child (recorded name).extent) :
    LaidOut image framing (.folder entries) extent

/-- What a sighting tells of what lies under these names. -/
structure Sighting.Of (image : Node) (framing : Framing) (names : List String) (node : Tree)
    (s : Sighting) : Prop where
  path : s.path = keyOf names
  isFolder : s.record.isFolder = node.isFolder
  laidOut : LaidOut image framing node s.record.extent

/-- All the places below `above` have been met, and nothing else. -/
structure Shows (image : Node) (framing : Framing) (above : List String)
    (places : List String → Tree → Prop) (found : List Sighting) : Prop where
  sound : ∀ s ∈ found, ∃ names node, places names node ∧ s.Of image framing (above ++ names) node
  complete : ∀ names node, places names node → ∃ s ∈ found, s.path = keyOf (above ++ names)

/-- What a walk finds for one record. -/
def visit (image : Node) (framing : Framing) (levels : Nat) (folder : String) (record : Record) :
    Except Fault (List Sighting) :=
  if record.isFolder then do
    return ⟨folder, record⟩ :: (← walk image framing levels (Sighting.path ⟨folder, record⟩)
      record.extent)
  else return [⟨folder, record⟩]

def named (records : List Record) : List Record :=
  records.filter fun r => r.name != "." && r.name != ".."

section
variable {image : Node} {framing : Framing} {levels : Nat} {above : List String}
  {entries : List (String × Tree)} {extent : Extent} {recorded : String → Recorded}

theorem walk_succ (folder : String) : walk image framing (levels + 1) folder extent =
    ((readExtent image framing extent).mapError .host).bind fun bytes =>
      ((named (parseRecords 0 bytes).1).mapM (visit image framing levels folder)).bind fun found =>
        if (parseRecords 0 bytes).2 then .ok found.flatten
        else .error (.disc (.badRecord folder)) := by
  rfl

theorem mem_named {records : List Record} {record : Record} :
    record ∈ named records ↔ record ∈ records ∧ record.name ≠ "." ∧ record.name ≠ ".." := by
  rw [named, List.mem_filter, Bool.and_eq_true, bne_iff_ne, bne_iff_ne]

theorem PlainName.not_dots {name : String} (h : PlainName name) : name ≠ "." ∧ name ≠ ".." :=
  ⟨fun he => h.last (he ▸ rfl), fun he => h.last (he ▸ rfl)⟩

theorem Listed.record_name (h : Listed image framing entries extent recorded)
    (hn : ∀ name child, (name, child) ∈ entries → PlainName name) {name : String} {child : Tree}
    (hm : (name, child) ∈ entries) : (recorded name).record.name = name :=
  Recorded.record_name (h.names name child hm) (hn name child hm)

/-- The records of a folder that are followed are those of its entries. -/
theorem Listed.records (h : Listed image framing entries extent recorded)
    (hn : ∀ name child, (name, child) ∈ entries → PlainName name) :
    ∃ bytes, readExtent image framing extent = .ok bytes ∧ (parseRecords 0 bytes).2 = true ∧
      ∀ record, record ∈ named (parseRecords 0 bytes).1 ↔
        ∃ name child, (name, child) ∈ entries ∧ record = (recorded name).record := by
  obtain ⟨self, parent, listing, bytes, hself, hparent, hperm, hpacked, hholds⟩ := h.stands
  refine ⟨bytes, readExtent_eq_ok_iff.mpr hholds, by rw [hpacked.parseRecords], fun record => ?_⟩
  have hselfName : self.record.name = "." := by
    rw [Recorded.record, hself]
    rfl
  have hparentName : parent.record.name = ".." := by
    rw [Recorded.record, hparent]
    rfl
  rw [hpacked.parseRecords, mem_named, (hperm.map Recorded.record).mem_iff]
  constructor
  · rintro ⟨hm, hdot, hdots⟩
    rw [List.map_cons, List.map_cons, List.mem_cons, List.mem_cons, List.map_map,
      List.mem_map] at hm
    rcases hm with rfl | rfl | ⟨⟨name, child⟩, hm, rfl⟩
    · exact absurd hselfName hdot
    · exact absurd hparentName hdots
    · exact ⟨name, child, hm, rfl⟩
  · rintro ⟨name, child, hm, rfl⟩
    rw [h.record_name hn hm]
    refine ⟨List.mem_cons_of_mem _ (List.mem_cons_of_mem _ ?_), (hn name child hm).not_dots⟩
    rw [List.map_map]
    exact List.mem_map.mpr ⟨(name, child), hm, rfl⟩

/-- What is met below each entry of a folder, taken together, is what lies below the folder. -/
theorem shows_flatten {parts : List (List Sighting)}
    (hfrom : ∀ part ∈ parts, ∃ name child, (name, child) ∈ entries ∧
      Shows image framing (above ++ [name]) child.At part)
    (hto : ∀ name child, (name, child) ∈ entries → ∃ part ∈ parts,
      Shows image framing (above ++ [name]) child.At part) :
    Shows image framing above (fun names node => names ≠ [] ∧ (Tree.folder entries).At names node)
      parts.flatten := by
  constructor
  · intro s hs
    obtain ⟨part, hpart, hs⟩ := List.mem_flatten.mp hs
    obtain ⟨name, child, hm, hshows⟩ := hfrom part hpart
    obtain ⟨names, node, hat, hof⟩ := hshows.sound s hs
    refine ⟨name :: names, node, ⟨List.cons_ne_nil _ _, .within hm hat⟩, ?_⟩
    rwa [List.append_assoc, List.singleton_append] at hof
  · rintro names node ⟨hne, hat⟩
    cases hat with
    | here => exact absurd rfl hne
    | @within _ name child names _ hm hat =>
      obtain ⟨part, hpart, hshows⟩ := hto name child hm
      obtain ⟨s, hs, hpath⟩ := hshows.complete names node hat
      refine ⟨s, List.mem_flatten.mpr ⟨part, hpart, hs⟩, ?_⟩
      rw [hpath, List.append_assoc, List.singleton_append]

theorem walk_of_visits (h : Listed image framing entries extent recorded)
    (hn : ∀ name child, (name, child) ∈ entries → PlainName name)
    (hd : entries.Pairwise fun a b => ¬SameName a.1 b.1)
    (hv : ∀ name child, (name, child) ∈ entries → ∃ part,
      visit image framing levels (keyOf above) (recorded name).record = .ok part ∧
        Shows image framing (above ++ [(recorded name).record.name]) child.At part) :
    ∃ found, walk image framing (levels + 1) (keyOf above) extent = .ok found ∧
      Shows image framing above
        (fun names node => names ≠ [] ∧ (Tree.folder entries).At names node) found := by
  obtain ⟨bytes, hread, hsound, hrecords⟩ := h.records hn
  have hvisits : ∀ record ∈ named (parseRecords 0 bytes).1, ∃ part,
      visit image framing levels (keyOf above) record = .ok part ∧
        ∃ name child, (name, child) ∈ entries ∧ record = (recorded name).record ∧
          Shows image framing (above ++ [name]) child.At part := by
    intro record hm
    obtain ⟨name, child, hentry, rfl⟩ := (hrecords record).mp hm
    obtain ⟨part, hpart, hshows⟩ := hv name child hentry
    rw [h.record_name hn hentry] at hshows
    exact ⟨part, hpart, name, child, hentry, rfl, hshows⟩
  obtain ⟨parts, hparts, hfrom, hto⟩ := Except.mapM_of_forall hvisits
  refine ⟨parts.flatten, ?_, shows_flatten (fun part hm => ?_) (fun name child hm => ?_)⟩
  · rw [walk_succ, hread]
    show Except.bind (List.mapM _ _) _ = _
    rw [hparts]
    exact if_pos hsound
  · obtain ⟨_, _, name, child, hentry, _, hshows⟩ := hfrom part hm
    exact ⟨name, child, hentry, hshows⟩
  -- A part is told by its record only, and names tell the entries of one folder apart.
  · obtain ⟨part, hpart, name', child', hm', he, hshows⟩ :=
      hto _ ((hrecords _).mpr ⟨name, child, hm, rfl⟩)
    have hname := congrArg Record.name he
    rw [h.record_name hn hm, h.record_name hn hm'] at hname
    obtain ⟨rfl, rfl⟩ := Tree.entry_unique hd hm hm' (hname ▸ .refl name)
    exact ⟨part, hpart, hshows⟩

theorem path_eq_keyOf (ha : ∀ name ∈ above, PlainName name) {record : Record}
    (hr : PlainName record.name) :
    Sighting.path ⟨keyOf above, record⟩ = keyOf (above ++ [record.name]) := by
  rw [keyOf_concat ha, Sighting.path,
    Text.uppercase_of_lt fun c hc => Nat.lt_trans (hr.chars c hc).high (by decide)]

theorem shows_file {bytes : Bytes} {s : Sighting}
    (h : s.Of image framing above (.file bytes)) :
    Shows image framing above (Tree.file bytes).At [s] := by
  constructor
  · intro s' hs
    obtain rfl := List.mem_singleton.mp hs
    exact ⟨[], _, .here, by rwa [List.append_nil]⟩
  · rintro names node ⟨⟩
    exact ⟨s, List.mem_singleton_self s, by rw [List.append_nil, h.path]⟩

theorem shows_folder {s : Sighting} {found : List Sighting}
    (h : s.Of image framing above (.folder entries))
    (hb : Shows image framing above
      (fun names node => names ≠ [] ∧ (Tree.folder entries).At names node) found) :
    Shows image framing above (Tree.folder entries).At (s :: found) := by
  constructor
  · rintro s' (_ | ⟨_, hs⟩)
    · exact ⟨[], _, .here, by rwa [List.append_nil]⟩
    · obtain ⟨names, node, ⟨_, hat⟩, hof⟩ := hb.sound s' hs
      exact ⟨names, node, hat, hof⟩
  · intro names node hat
    cases names with
    | nil => exact ⟨s, List.mem_cons_self, by rw [List.append_nil, h.path]⟩
    | cons name names =>
      obtain ⟨s', hs, hpath⟩ := hb.complete _ node ⟨List.cons_ne_nil _ _, hat⟩
      exact ⟨s', List.mem_cons_of_mem _ hs, hpath⟩

/-- The record of a tree leads to all that lies in it. -/
theorem visit_laidOut {tree : Tree} (h : LaidOut image framing tree extent)
    (hp : tree.Plain levels) (ha : ∀ name ∈ above, PlainName name) {record : Record}
    (hr : PlainName record.name) (he : record.extent = extent)
    (hf : record.isFolder = tree.isFolder) :
    ∃ part, visit image framing levels (keyOf above) record = .ok part ∧
      Shows image framing (above ++ [record.name]) tree.At part := by
  -- Along the tree, with the names above it left open: an entry is met one name deeper.
  induction h generalizing levels above record with
  | @file bytes extent hh =>
    subst he
    refine ⟨[⟨keyOf above, record⟩], by rw [visit, hf]; rfl, shows_file ?_⟩
    exact ⟨path_eq_keyOf ha hr, hf, .file hh⟩
  | @folder entries extent recorded listed within ih =>
    subst he
    cases hp with
    | @folder levels _ hnames hdistinct hbelow =>
      have habove : ∀ name ∈ above ++ [record.name], PlainName name := by
        intro name hm
        rcases List.mem_append.mp hm with hm | hm
        · exact ha name hm
        · rwa [List.mem_singleton.mp hm]
      obtain ⟨found, hwalk, hshows⟩ := walk_of_visits listed hnames hdistinct
        fun name child hm => ih name child hm (hbelow name child hm) habove
          ((listed.record_name hnames hm).symm ▸ hnames name child hm) rfl
          (listed.isFolder name child hm)
      refine ⟨⟨keyOf above, record⟩ :: found, ?_, shows_folder ?_ hshows⟩
      · rw [visit, hf, path_eq_keyOf ha hr, hwalk]
        rfl
      · exact ⟨path_eq_keyOf ha hr, hf, .folder recorded listed within⟩

/-- A walk from the root meets all that lies in a tree. -/
theorem walk_laidOut (h : LaidOut image framing (.folder entries) extent)
    (hp : (Tree.folder entries).Plain (levels + 1)) :
    ∃ found, walk image framing (levels + 1) "" extent = .ok found ∧
      Shows image framing []
        (fun names node => names ≠ [] ∧ (Tree.folder entries).At names node) found := by
  cases h with
  | folder recorded listed within =>
    cases hp with
    | folder hnames hdistinct hbelow =>
      have hkey : keyOf [] = "" := String.intercalate_nil
      rw [← hkey]
      have habove : ∀ name ∈ ([] : List String), PlainName name := by simp
      exact walk_of_visits listed hnames hdistinct fun name child hm =>
        visit_laidOut (within name child hm) (hbelow name child hm) habove
          ((listed.record_name hnames hm).symm ▸ hnames name child hm) rfl
          (listed.isFolder name child hm)

end
end LayeredAssets.Disc
