import LayeredAssets.Proofs.View

namespace LayeredAssets

/-- A path's parts never lead up past where they are followed from, which lies so many folders
above. -/
@[irreducible]
def Path.Descends : (depth : Nat) → (parts : List String) → Prop
  | _, [] => True
  | depth, part :: rest =>
    if part = "" ∨ part = "." then Descends depth rest
    else if part = ".." then
      match depth with
      | 0 => False
      | depth + 1 => Descends depth rest
    else Descends (depth + 1) rest

theorem Path.descends_of_not_mem {parts : List String} (h : ".." ∉ parts) (depth : Nat) :
    Descends depth parts := by
  induction parts generalizing depth with
  | nil =>
    unfold Descends
    trivial
  | cons part rest ih =>
    obtain ⟨hpart, hrest⟩ := not_or.mp (mt List.mem_cons.mpr h)
    unfold Descends
    split
    · exact ih hrest depth
    · rw [if_neg (Ne.symm hpart)]
      exact ih hrest (depth + 1)

namespace Host

/-- The names that lead to the one place lead on to the other. -/
def Place.Within (place top : Place) : Prop := top.names <+: place.names

/-- So many folders lie between the two places at least. -/
structure Place.Deep (depth : Nat) (place top : Place) : Prop where
  within : place.Within top
  length : top.names.length + depth ≤ place.names.length

section
variable {host : Host} {place top after : Place} {depth : Nat}

theorem Place.Within.refl (place : Place) : place.Within place := List.prefix_refl _

theorem Place.Deep.start (place : Place) : place.Deep 0 place := ⟨.refl place, Nat.le_refl _⟩

theorem Place.Deep.parent (h : place.Deep (depth + 1) top) : place.parent.Deep depth top := by
  obtain ⟨rest, hrest⟩ := h.within
  have hl := h.length
  rw [← hrest, List.length_append] at hl
  have hne : rest ≠ [] := by
    intro he
    rw [he, List.length_nil] at hl
    omega
  have hparent : place.parent.names = top.names ++ rest.dropLast := by
    rw [Place.parent, ← hrest, List.dropLast_append_of_ne_nil hne]
  constructor
  · rw [Place.Within, hparent]
    exact List.prefix_append _ _
  · rw [hparent, List.length_append, List.length_dropLast]
    omega

theorem Place.Deep.child (h : place.Deep depth top) (name : String) :
    (place.child name).Deep (depth + 1) top := by
  constructor
  · exact h.within.trans (List.prefix_append _ _)
  · have := h.length
    rw [Place.child, List.length_append, List.length_singleton]
    omega

/-- Parts that never lead up past a place lead to somewhere within it. -/
theorem resolve_within {parts : List String} (hd : Path.Descends depth parts)
    (hp : place.Deep depth top) (h : host.resolve place parts = .ok after) : after.Within top := by
  induction parts generalizing place depth with
  | nil =>
    obtain rfl := Except.ok.inj h
    exact hp.within
  | cons part rest ih =>
    have hf := node?_of_resolve h
    rw [resolve, hf] at h
    unfold Path.Descends at hd
    dsimp only at h
    split at hd
    · next hstay =>
      rw [if_pos hstay] at h
      exact ih hd hp h
    · next hstay =>
      rw [if_neg hstay] at h
      split at hd
      · next hup =>
        rw [if_pos hup] at h
        cases depth with
        | zero => exact hd.elim
        | succ depth => exact ih hd hp.parent h
      · next hup =>
        rw [if_neg hup] at h
        exact ih hd (hp.child part) h

theorem resolve_within_of_no_parent {parts : List String} (hup : ".." ∉ parts)
    (h : host.resolve place parts = .ok after) : after.Within place :=
  resolve_within (Path.descends_of_not_mem hup 0) (.start place) h

/-- What is found at a place. -/
def nodeAt (host : Host) : Except HostFault Place → Except HostFault Node
  | .error cause => .error cause
  | .ok place =>
    match host.node? place with
    | some node => .ok node
    | none => .error .notFound

/-- What the folder at a place lists: the entries that lie in it and nowhere else. -/
def namesAt (host : Host) : Except HostFault Place → Except HostFault (List String)
  | .error cause => .error cause
  | .ok place =>
    match host.node? place with
    | none => .error .notFound
    | some (.file _) => .error .notFolder
    | some .folder =>
      .ok (host.entries.filterMap fun entry =>
        if entry.1 ≠ [] ∧ place.names = entry.1.dropLast then entry.1.getLast? else none)

theorem find_eq_nodeAt (host : Host) (path : String) :
    host.find path = host.nodeAt (host.locate path) := by
  unfold find nodeAt
  cases host.locate path <;> rfl

theorem names_eq_namesAt (host : Host) (path : String) :
    host.names path = host.namesAt (host.locate path) := by
  unfold names namesAt
  cases host.locate path <;> rfl

end
end Host

namespace Backend

open Host (Place)

section
variable {host : Host} {root base path : String} {place : Place}

/-- Behind a view a path is followed from where the view's folder is, whichever way the view writes
it. -/
theorem locate_below (hroot : host.isFolder root = true) (hbase : Path.Plain base.toList)
    (hlast : base.toList.getLast? ≠ some '/')
    (h : host.locate (location root (handedOn base path)) = .ok place) :
    ∃ sub, host.locate (Path.join root base) = .ok sub ∧
      (place = sub ∨ host.resolve sub (Path.parts (Path.relative path)) = .ok place) := by
  have hne := Host.ne_empty_of_isFolder hroot
  obtain ⟨top, htop, -⟩ := Host.isFolder_iff.mp hroot
  by_cases hstay : base = "" ∨ base = "." ∧ Path.relative path ≠ ""
  · -- The folder of the view is the root itself, and the path is handed on bare.
    refine ⟨top, (Host.locate_join_stay hne hroot (hstay.imp_right And.left)).trans htop, ?_⟩
    have hpath : Path.relative (handedOn base path) = Path.relative path := by
      rcases hstay with rfl | ⟨rfl, hp⟩
      · exact relative_handedOn_empty path
      · exact relative_handedOn_dot hp
    rw [location, hpath, Host.locate_join_of_locate hne htop] at h
    exact Or.inr h
  · obtain ⟨hb, hdot⟩ := not_or.mp hstay
    by_cases hp : Path.relative path = ""
    · rw [location, relative_handedOn_folder hbase hp] at h
      exact ⟨place, h, Or.inl rfl⟩
    · have hjoin : Path.join root base ≠ "" := Path.join_ne_empty hb
      rw [← location_handedOn hne hbase hlast (fun he => hdot ⟨he, hp⟩) (Or.inr hp), location] at h
      obtain ⟨sub, hsub, -⟩ := Host.isFolder_iff.mp (Host.isFolder_of_locate_join hjoin h)
      rw [Host.locate_join_of_locate hjoin hsub] at h
      exact ⟨sub, hsub, Or.inr h⟩

end

/-- Where a view of one folder of another has the host look. -/
def looksAt (host : Host) (root name path : String) : Except HostFault Place :=
  host.locate (location root (handedOn (baseOf name) path))

/-- What the node that was looked at is answered with. -/
def fileOf : Except HostFault Node → Bool
  | .ok node => node.isFile
  | .error _ => false

def streamOf (asked : String) : Except HostFault Node → Except Fault Stream
  | .ok (.file bytes) => .ok (.file bytes 0)
  | .ok .folder => .ok (.folder 0)
  | .error _ => .error (.fileNotFound asked)

def listingOf (filter : String) : Except HostFault (List String) → Except Fault (List String)
  | .ok names => .ok (Text.sorted (names.filter (fun name => Wildcard.isMatch name filter)))
  | .error cause => .error (.host cause)

section
variable (host : Host) (root name path filter : String)

theorem isFile_eq_fileOf : ((folder root).limit name).isFile host path =
    fileOf (host.nodeAt (looksAt host root name path)) := by
  rw [isFile_limit, isFile_folder, Host.isFile, Host.find_eq_nodeAt]
  unfold looksAt fileOf
  cases host.nodeAt (host.locate (location root (handedOn (baseOf name) path))) with
  | error cause => rfl
  | ok node => cases node <;> rfl

theorem openFile_eq_streamOf : ((folder root).limit name).openFile host path =
    streamOf (location root (handedOn (baseOf name) path))
      (host.nodeAt (looksAt host root name path)) := by
  rw [openFile_limit, openFile_folder, Host.find_eq_nodeAt]
  unfold looksAt streamOf
  cases host.nodeAt (host.locate (location root (handedOn (baseOf name) path))) with
  | error cause => rfl
  | ok node => cases node <;> rfl

theorem enumerate_eq_listingOf : ((folder root).limit name).enumerate host path filter =
    listingOf filter (host.namesAt (looksAt host root name path)) := by
  rw [enumerate_limit, enumerate_folder, Host.names_eq_namesAt]
  unfold looksAt listingOf
  cases host.namesAt (host.locate (location root (handedOn (baseOf name) path))) <;> rfl

end

/-- A view of a folder looks nowhere but within that folder, for as long as the path never leads up
past it; and what it answers is what lies at the one place where it looks. -/
theorem view_looks_within (host : Host) (root name path : String) (b : Backend)
    (opened : ofFolder host root = .ok b)
    (bounded : Path.Descends 0 (Path.parts (Path.relative path))) :
    (∀ place, looksAt host root name path = .ok place → ∃ top sub, host.locate root = .ok top ∧
      host.locate (Path.join root (baseOf name)) = .ok sub ∧ place.Within sub ∧
        (".." ∉ Path.parts (baseOf name) → sub.Within top)) ∧
    (b.limit name).isFile host path = fileOf (host.nodeAt (looksAt host root name path)) ∧
    (b.limit name).openFile host path =
      streamOf (location root (handedOn (baseOf name) path))
        (host.nodeAt (looksAt host root name path)) ∧
    ∀ filter, (b.limit name).enumerate host path filter =
      listingOf filter (host.namesAt (looksAt host root name path)) := by
  obtain ⟨hroot, rfl⟩ := ofFolder_eq_ok_iff.mp opened
  refine ⟨?_, isFile_eq_fileOf host root name path, openFile_eq_streamOf host root name path,
    enumerate_eq_listingOf host root name path⟩
  intro place h
  obtain ⟨top, htop, -⟩ := Host.isFolder_iff.mp hroot
  obtain ⟨sub, hsub, hplace⟩ := locate_below hroot (plain_baseOf name) (getLast?_baseOf name) h
  refine ⟨top, sub, htop, hsub, ?_, ?_⟩
  · rcases hplace with rfl | hplace
    · exact .refl place
    · exact Host.resolve_within bounded (.start sub) hplace
  · intro hup
    rw [Host.locate_join_of_locate (Host.ne_empty_of_isFolder hroot) htop] at hsub
    exact Host.resolve_within_of_no_parent hup hsub

/-- A file beside the folder of a view. -/
def besideHost : Host :=
  ⟨[(["d"], .folder), (["d", "sub"], .folder), (["d", "sub", "x"], .folder),
    (["d", "sub", "a.txt"], .file [97]), (["d", "b.txt"], .file [98])], []⟩

theorem besideHost_opened : ofFolder besideHost "d" = .ok (folder "d") :=
  ofFolder_eq_ok_iff.mpr ⟨by decide +kernel, rfl⟩

theorem view_looks_within_name :
    ofFolder besideHost "d" = .ok (folder "d") ∧
      Path.Descends 0 (Path.parts (Path.relative "/x/../a.txt")) ∧
      ∃ place sub, looksAt besideHost "d" "sub" "/x/../a.txt" = .ok place ∧
        besideHost.locate (Path.join "d" (baseOf "sub")) = .ok sub ∧ place.Within sub ∧
          ((folder "d").limit "sub").isFile besideHost "/x/../a.txt" = true := by
  have hbounded : Path.Descends 0 (Path.parts (Path.relative "/x/../a.txt")) := by
    have hparts : Path.parts (Path.relative "/x/../a.txt") = ["x", "..", "a.txt"] := by
      decide +kernel
    rw [hparts]
    simp [Path.Descends]
  have hlooks : looksAt besideHost "d" "sub" "/x/../a.txt" =
      .ok ⟨["d", "sub", "a.txt"]⟩ := by
    decide +kernel
  obtain ⟨hwithin, hfile, -, -⟩ := view_looks_within besideHost "d" "sub" "/x/../a.txt"
    (folder "d") besideHost_opened hbounded
  obtain ⟨top, sub, -, hsub, hplace, -⟩ := hwithin _ hlooks
  refine ⟨besideHost_opened, hbounded, _, sub, hlooks, hsub, hplace, ?_⟩
  rw [hfile, hlooks]
  decide +kernel

/-- Nothing keeps a path from leading up out of the view's folder. -/
theorem parent_leads_out_of_view :
    ((folder "d").limit "sub").isFile besideHost "../b.txt" = true ∧
    ¬ ∀ (host : Host) (root name path : String) (b : Backend), ofFolder host root = .ok b →
      ".." ∉ Path.parts (baseOf name) →
      ∀ place, looksAt host root name path = .ok place →
        ∃ sub, host.locate (Path.join root (baseOf name)) = .ok sub ∧ place.Within sub := by
  refine ⟨by decide +kernel, ?_⟩
  intro hall
  have hlooks : looksAt besideHost "d" "sub" "../b.txt" = .ok ⟨["d", "b.txt"]⟩ := by
    decide +kernel
  have hfolder : besideHost.locate (Path.join "d" (baseOf "sub")) = .ok ⟨["d", "sub"]⟩ := by
    decide +kernel
  obtain ⟨sub, hsub, hwithin⟩ := hall besideHost "d" "sub" "../b.txt" (folder "d")
    besideHost_opened (by decide +kernel) _ hlooks
  obtain rfl : ⟨["d", "sub"]⟩ = sub := Except.ok.inj (hfolder.symm.trans hsub)
  have hprefix : ["d", "sub"] <+: ["d", "b.txt"] := hwithin
  exact absurd hprefix (by decide)

end Backend
end LayeredAssets
