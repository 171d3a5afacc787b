import LayeredAssets.Host
import LayeredAssets.Proofs.Except
import LayeredAssets.Proofs.Path.Normal

namespace LayeredAssets

theorem Text.splitAt_ne_nil (mark : Char) (chars : List Char) : splitAt mark chars ≠ [] := by
  cases chars with
  | nil => simp [splitAt]
  | cons c chars =>
    unfold splitAt
    split
    · simp
    · split
      · simp
      · simp

theorem Text.splitAt_append (mark : Char) (before after : List Char) :
    splitAt mark (before ++ mark :: after) = splitAt mark before ++ splitAt mark after := by
  induction before with
  | nil => simp [splitAt]
  | cons c before ih =>
    rw [List.cons_append, splitAt, splitAt, ih]
    split
    · rfl
    · cases hs : splitAt mark before with
      | nil => exact absurd hs (splitAt_ne_nil mark before)
      | cons part parts => rfl

theorem Path.parts_ne_nil (path : String) : parts path ≠ [] := by
  rw [parts, ne_eq, List.map_eq_nil_iff]
  exact Text.splitAt_ne_nil '/' path.toList

theorem Path.parts_append (root path : String) :
    parts (root ++ "/" ++ path) = parts root ++ parts path := by
  have hchars : (root ++ "/" ++ path).toList = root.toList ++ '/' :: path.toList := by simp
  rw [parts, hchars, Text.splitAt_append, List.map_append]
  rfl

namespace Host

section
variable {host : Host} {place after : Place} {part : String} {before rest : List String}

theorem resolve_append (host : Host) (place : Place) (before rest : List String) :
    host.resolve place (before ++ rest) =
      (host.resolve place before).bind (fun place => host.resolve place rest) := by
  induction before generalizing place with
  | nil => rfl
  | cons part before ih =>
    rw [List.cons_append, resolve, resolve]
    cases host.node? place with
    | none => rfl
    | some node =>
      cases node with
      | file bytes => rfl
      | folder =>
        dsimp only
        split
        · exact ih place
        · split
          · exact ih place.parent
          · exact ih (place.child part)

/-- Nothing leads on from what is not a folder. -/
theorem node?_of_resolve (h : host.resolve place (part :: rest) = .ok after) :
    host.node? place = some .folder := by
  rw [resolve] at h
  cases hn : host.node? place with
  | none =>
    rw [hn] at h
    cases h
  | some node =>
    cases node with
    | file bytes =>
      rw [hn] at h
      cases h
    | folder => rfl

theorem resolve_stay (hf : host.node? place = some .folder) (hpart : part = "" ∨ part = ".")
    (rest : List String) : host.resolve place (part :: rest) = host.resolve place rest := by
  rw [resolve, hf]
  exact if_pos hpart

end

section
variable {host : Host} {root path : String} {place : Place}

theorem locate_eq (host : Host) (hne : path ≠ "") :
    host.locate path = host.resolve (host.start path) (Path.parts path) := by
  have he : path.isEmpty = false := by simpa using hne
  rw [locate, he]
  rfl

theorem start_append (host : Host) (hne : root ≠ "") (path : String) :
    host.start (root ++ path) = host.start root := by
  have hchars : root.toList ≠ [] := by rwa [ne_eq, String.toList_eq_nil_iff]
  rw [start, start, String.toList_append, List.head?_append_of_ne_nil _ hchars]

theorem find_congr {other : String} (h : host.locate path = host.locate other) :
    host.find path = host.find other := by
  rw [find, find, h]

theorem isFolder_iff : host.isFolder path = true ↔
    ∃ place, host.locate path = .ok place ∧ host.node? place = some .folder := by
  unfold isFolder find
  cases host.locate path with
  | error cause => simp
  | ok place =>
    cases hn : host.node? place with
    | none => simp [hn]
    | some node => cases node <;> simp [hn]

theorem locate_of_isFile (h : host.isFile path = true) : ∃ place, host.locate path = .ok place := by
  unfold isFile find at h
  cases hl : host.locate path with
  | error cause =>
    rw [hl] at h
    cases h
  | ok place => exact ⟨place, rfl⟩

theorem ne_empty_of_isFolder (hf : host.isFolder root = true) : root ≠ "" := by
  intro he
  subst he
  obtain ⟨place, hl, -⟩ := isFolder_iff.mp hf
  cases hl

/-- The parts that a root adds before those of what is joined to it. A slash at its end is one
empty part more, but for the root alone. -/
theorem locate_join (hne : root ≠ "") : ∃ names,
    (∀ (host : Host) path, host.locate (Path.join root path) =
      host.resolve (host.start root) (names ++ Path.parts path)) ∧
    ((∀ host : Host, host.locate root = host.resolve (host.start root) names) ∨
      ∀ host : Host, host.locate root = host.resolve (host.start root) (names ++ [""])) := by
  by_cases h : root.toList.getLast? = some '/'
  · obtain ⟨init, hinit⟩ := List.getLast?_eq_some_iff.mp h
    have hroot : root = String.ofList init ++ "/" := by
      rw [← String.toList_inj, String.toList_append, String.toList_ofList, hinit]
      rfl
    -- The slash at the end stands before what is joined, so it parts nothing from it twice.
    refine ⟨Path.parts (String.ofList init), ?_, Or.inr ?_⟩
    · intro host path
      have hjoined : root ++ path ≠ "" := by simp [hne]
      rw [Path.join_of_slash h, locate_eq host hjoined, start_append host hne, ← Path.parts_append,
        ← hroot]
    · intro host
      have hparts := Path.parts_append (String.ofList init) ""
      rw [String.append_empty, ← hroot] at hparts
      rw [locate_eq host hne, hparts]
      rfl
  · refine ⟨Path.parts root, ?_, Or.inl ?_⟩
    · intro host path
      have hjoined : root ++ ("/" ++ path) ≠ "" := by simp [hne]
      rw [Path.join_of_name hne h, String.append_assoc, locate_eq host hjoined,
        start_append host hne, ← String.append_assoc, Path.parts_append]
    · intro host
      exact locate_eq host hne

/-- What is joined to a path is followed from where that path leads. -/
theorem locate_join_of_locate (hne : root ≠ "") (h : host.locate root = .ok place)
    (path : String) :
    host.locate (Path.join root path) = host.resolve place (Path.parts path) := by
  obtain ⟨names, hjoin, hroot⟩ := locate_join hne
  have hnames : host.resolve (host.start root) names = .ok place := by
    rcases hroot with hroot | hroot
    · rw [← hroot, h]
    · rw [hroot, resolve_append] at h
      obtain ⟨before, hb, ha⟩ := Except.bind_eq_ok_iff.mp h
      rw [resolve_stay (node?_of_resolve ha) (Or.inl rfl)] at ha
      rw [hb, ← ha]
      rfl
  rw [hjoin, resolve_append, hnames]
  rfl

theorem isFolder_of_locate_join (hne : root ≠ "")
    (h : host.locate (Path.join root path) = .ok place) : host.isFolder root = true := by
  obtain ⟨names, hjoin, hroot⟩ := locate_join hne
  rw [hjoin, resolve_append] at h
  obtain ⟨folder, hb, ha⟩ := Except.bind_eq_ok_iff.mp h
  obtain ⟨part, rest, hparts⟩ := List.exists_cons_of_ne_nil (Path.parts_ne_nil path)
  rw [hparts] at ha
  have hf := node?_of_resolve ha
  refine isFolder_iff.mpr ⟨folder, ?_, hf⟩
  rcases hroot with hroot | hroot
  · rw [hroot, hb]
  · rw [hroot, resolve_append, hb]
    exact resolve_stay hf (Or.inl rfl) []

/-- Neither an empty path nor a dot leads out of a folder, and neither does anything behind them. -/
theorem locate_join_stay (hne : root ≠ "") (hf : host.isFolder root = true)
    (hpath : path = "" ∨ path = ".") : host.locate (Path.join root path) = host.locate root := by
  obtain ⟨place, hl, hn⟩ := isFolder_iff.mp hf
  have hparts : Path.parts path = [path] := by
    rcases hpath with rfl | rfl
    · rfl
    · rfl
  rw [locate_join_of_locate hne hl, hparts, resolve_stay hn hpath, hl]
  rfl

end
end Host
end LayeredAssets
