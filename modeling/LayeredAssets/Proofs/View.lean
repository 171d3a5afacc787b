import LayeredAssets.Backend
import LayeredAssets.Proofs.Host

namespace LayeredAssets

/-- The same fault, told of another place. -/
def Fault.toldOf (place : String) : Fault → Fault
  | .fileNotFound _ => .fileNotFound place
  | fault => fault

namespace Backend

/-- The folder that a view is limited to, as the view writes it. -/
def baseOf (folder : String) : String := Path.trimEnd '/' (Path.relative folder)

section
variable (host : Host) (inner : Backend) (root folder path filter : String)

theorem isFile_folder : (Backend.folder root).isFile host path = host.isFile (location root path) :=
  rfl

theorem isFile_limit :
    (inner.limit folder).isFile host path = inner.isFile host (handedOn (baseOf folder) path) :=
  rfl

theorem openFile_folder : (Backend.folder root).openFile host path =
    match host.find (location root path) with
    | .ok (.file bytes) => .ok (.file bytes 0)
    | .ok .folder => .ok (.folder 0)
    | .error _ => .error (.fileNotFound (location root path)) :=
  rfl

theorem openFile_limit :
    (inner.limit folder).openFile host path = inner.openFile host (handedOn (baseOf folder) path) :=
  rfl

theorem enumerate_folder : (Backend.folder root).enumerate host path filter =
    match host.names (location root path) with
    | .ok names => .ok (Text.sorted (names.filter (fun name => Wildcard.isMatch name filter)))
    | .error cause => .error (.host cause) :=
  rfl

theorem enumerate_limit : (inner.limit folder).enumerate host path filter =
    inner.enumerate host (handedOn (baseOf folder) path) filter :=
  rfl

end

/-- One backend answers for a path as another does, but for what is told of a failure to open. -/
structure Answers (host : Host) (b other : Backend) (path : String) (tell : Fault → Fault) :
    Prop where
  isFile : b.isFile host path = other.isFile host path
  enumerate : ∀ filter, b.enumerate host path filter = other.enumerate host path filter
  openFile : b.openFile host path = (other.openFile host path).mapError tell
  readBytes : b.readBytes host path = (other.readBytes host path).mapError tell
  readText : b.readText host path = (other.readText host path).mapError tell

section
variable {host : Host} {b other : Backend} {path : String} {tell : Fault → Fault}

/-- Reading adds nothing to what is told, so it is enough to open alike. -/
theorem Answers.of_openFile (htell : ∀ cause, tell (.host cause) = .host cause)
    (hfile : b.isFile host path = other.isFile host path)
    (hnames : ∀ filter, b.enumerate host path filter = other.enumerate host path filter)
    (hopen : b.openFile host path = (other.openFile host path).mapError tell) :
    Answers host b other path tell := by
  have hbytes : b.readBytes host path = (other.readBytes host path).mapError tell := by
    unfold Backend.readBytes
    rw [hopen]
    cases other.openFile host path with
    | error fault => rfl
    | ok stream =>
      simp only [Except.mapError]
      cases stream.drain.1 with
      | error cause => simp [htell]
      | ok bytes => rfl
  refine ⟨hfile, hnames, hopen, hbytes, ?_⟩
  unfold Backend.readText
  rw [hbytes]
  cases other.readBytes host path with
  | error fault => rfl
  | ok bytes =>
    simp only [Except.mapError]
    cases Text.read? bytes with
    | none => simp [htell]
    | some text => rfl

end

theorem ofFolder_eq_ok_iff {host : Host} {root : String} {b : Backend} :
    ofFolder host root = .ok b ↔ host.isFolder root = true ∧ b = folder root := by
  unfold ofFolder Host.isFolder
  cases host.find root with
  | error cause => simp
  | ok node => cases node <;> simp [eq_comm]

section
variable {base path : String}

theorem plain_baseOf (folder : String) : Path.Plain (baseOf folder).toList := by
  rw [baseOf, Path.trimEnd, String.toList_ofList]
  exact (Path.plain_relative folder).trimEndChars '/'

theorem getLast?_baseOf (folder : String) : (baseOf folder).toList.getLast? ≠ some '/' := by
  rw [baseOf, Path.trimEnd, String.toList_ofList]
  exact Path.getLast?_trimEndChars '/' _

/-- A view of no folder in particular takes a path as the backend behind it does. -/
theorem relative_handedOn_empty (path : String) :
    Path.relative (handedOn "" path) = Path.relative path :=
  Path.relative_relative path

/-- The folder itself. -/
theorem relative_handedOn_folder (hbase : Path.Plain base.toList) (hp : Path.relative path = "") :
    Path.relative (handedOn base path) = base := by
  unfold handedOn
  rw [hp]
  dsimp only
  split
  · next hb =>
    subst hb
    rfl
  · exact hbase.relative

/-- A lone dot is lost on the way: in front of a path it is a lead. -/
theorem relative_handedOn_dot (hp : Path.relative path ≠ "") :
    Path.relative (handedOn "." path) = Path.relative path := by
  have hdot : Path.isSeparator '.' = false := rfl
  have hslash : Path.isSeparator '/' = true := rfl
  have hpath := Path.plain_relative path
  have hchars : ("." ++ "/" ++ Path.relative path).toList =
      '.' :: '/' :: (Path.relative path).toList := by simp
  rw [handedOn, if_neg (by decide), if_neg hp, Path.relative, hchars,
    Path.normalizeAfter_of_not_separator hdot, Path.normalizeAfter_of_separator hslash,
    Path.normalizeAfter_of_opens hpath.opens, hpath.normal, Path.stripLeads, hpath.bare,
    String.ofList_toList]

/-- Below any other folder the path is handed on as it is written. -/
theorem relative_handedOn_below (hbase : Path.Plain base.toList)
    (hlast : base.toList.getLast? ≠ some '/') (hne : base ≠ "") (hdot : base ≠ ".")
    (hp : Path.relative path ≠ "") :
    Path.relative (handedOn base path) = base ++ "/" ++ Path.relative path := by
  have hchars : (base ++ "/" ++ Path.relative path).toList =
      base.toList ++ '/' :: (Path.relative path).toList := by simp
  rw [handedOn, if_neg hne, if_neg hp]
  apply Path.Plain.relative
  rw [hchars]
  apply hbase.below (Path.plain_relative path)
  · rwa [ne_eq, String.toList_eq_nil_iff]
  · intro he
    exact hdot (String.toList_inj.mp he)
  · exact hlast

end

section
variable {host : Host} {root base path : String}

/-- Without a dot to lose, a view of a folder writes the path that the folder itself does. -/
theorem location_handedOn (hne : root ≠ "") (hbase : Path.Plain base.toList)
    (hlast : base.toList.getLast? ≠ some '/') (hdot : base ≠ ".")
    (hp : base = "" ∨ Path.relative path ≠ "") :
    location (Path.join root base) path = location root (handedOn base path) := by
  unfold location
  by_cases hb : base = ""
  · rw [hb, relative_handedOn_empty, Path.join_join_empty hne]
  · rw [relative_handedOn_below hbase hlast hb hdot (hp.resolve_left hb), Path.join_join hb hlast]

/-- What a view of a folder looks at, and what that folder itself does, is one place on the host. -/
theorem locate_handedOn (hne : root ≠ "") (hbase : Path.Plain base.toList)
    (hlast : base.toList.getLast? ≠ some '/')
    (hf : host.isFolder (Path.join root base) = true) (path : String) :
    host.locate (location (Path.join root base) path) =
      host.locate (location root (handedOn base path)) := by
  by_cases hp : base = "" ∨ Path.relative path ≠ ""
  · by_cases hdot : base = "."
    · subst hdot
      have hpath : Path.relative path ≠ "" := hp.resolve_left (by decide)
      obtain ⟨place, hl, -⟩ := Host.isFolder_iff.mp hf
      have hroot := Host.isFolder_of_locate_join hne hl
      have hplace : host.locate root = .ok place :=
        (Host.locate_join_stay hne hroot (Or.inr rfl)).symm.trans hl
      rw [location, location, relative_handedOn_dot hpath,
        Host.locate_join_of_locate (Path.join_ne_empty (by decide)) hl,
        Host.locate_join_of_locate hne hplace]
    · rw [location_handedOn hne hbase hlast hdot hp]
  · -- The folder itself: an empty path behind it leads nowhere else.
    obtain ⟨hb, hpath⟩ := not_or.mp hp
    have hempty : Path.relative path = "" := not_not.mp hpath
    rw [location, location, relative_handedOn_folder hbase hempty, hempty]
    exact Host.locate_join_stay (Path.join_ne_empty hb) hf (Or.inl rfl)

/-- A place that two paths lead to answers alike under both, and tells of the path it was given. -/
theorem openFile_of_locate {other path' : String}
    (h : host.locate (location root path) = host.locate (location other path')) :
    (folder root).openFile host path =
      ((folder other).openFile host path').mapError (.toldOf (location root path)) := by
  rw [openFile_folder, openFile_folder, Host.find_congr h]
  cases host.find (location other path') with
  | error cause => rfl
  | ok node =>
    cases node with
    | file bytes => rfl
    | folder => rfl

/-- A view of a folder is that folder, but for the paths in messages. -/
theorem folder_answers_view (hne : root ≠ "") (name : String)
    (hf : host.isFolder (Path.join root (baseOf name)) = true) (path : String) :
    Answers host (folder (Path.join root (baseOf name))) ((folder root).limit name) path
      (.toldOf (location (Path.join root (baseOf name)) path)) := by
  have hsame := locate_handedOn hne (plain_baseOf name) (getLast?_baseOf name) hf path
  apply Answers.of_openFile
  · intro cause
    rfl
  · rw [isFile_limit, isFile_folder, isFile_folder, Host.isFile, Host.isFile,
      Host.find_congr hsame]
  · intro filter
    rw [enumerate_limit, enumerate_folder, enumerate_folder, Host.names, Host.names, hsame]
  · exact openFile_of_locate hsame

/-- Opening the folder itself never fails, and anything below it is told of by the same path, unless
the view lost a dot. -/
theorem toldOf_openFile (hne : root ≠ "") (name : String)
    (hf : host.isFolder (Path.join root (baseOf name)) = true) (hdot : baseOf name ≠ ".")
    (path : String) :
    (((folder root).limit name).openFile host path).mapError
        (.toldOf (location (Path.join root (baseOf name)) path)) =
      ((folder root).limit name).openFile host path := by
  have hbase := plain_baseOf name
  have hlast := getLast?_baseOf name
  rw [openFile_limit, openFile_folder]
  by_cases hp : baseOf name = "" ∨ Path.relative path ≠ ""
  · rw [location_handedOn hne hbase hlast hdot hp]
    cases host.find (location root (handedOn (baseOf name) path)) with
    | error cause => rfl
    | ok node => cases node <;> rfl
  · have hempty : Path.relative path = "" := not_not.mp (not_or.mp hp).2
    obtain ⟨place, hl, hn⟩ := Host.isFolder_iff.mp hf
    have hfind : host.find (location root (handedOn (baseOf name) path)) = .ok .folder := by
      rw [location, relative_handedOn_folder hbase hempty, Host.find, hl]
      simp only [hn]
    rw [hfind]
    rfl

/-- A view of a folder answers as that folder does, unless it lost a dot. -/
theorem folder_answers_view_alike (hne : root ≠ "") (name : String)
    (hf : host.isFolder (Path.join root (baseOf name)) = true) (hdot : baseOf name ≠ ".")
    (path : String) :
    Answers host (folder (Path.join root (baseOf name))) ((folder root).limit name) path id := by
  have h := folder_answers_view hne name hf path
  apply Answers.of_openFile
  · intro cause
    rfl
  · exact h.isFile
  · exact h.enumerate
  · rw [h.openFile, toldOf_openFile hne name hf hdot]
    cases openFile host ((folder root).limit name) path <;> rfl

end
end Backend
end LayeredAssets
