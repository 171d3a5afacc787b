import LayeredAssets.Proofs.View

namespace LayeredAssets

namespace Path

section
variable {chars rest base path : List Char}

/-- What is left at the end keeps what stands before it. -/
theorem trimEndChars_append {c : Char} (h : trimEndChars c rest ≠ []) :
    trimEndChars c (chars ++ rest) = chars ++ trimEndChars c rest := by
  have hne : rest.reverse.dropWhile (· == c) ≠ [] := by
    intro he
    apply h
    rw [trimEndChars, he, List.reverse_nil]
  have hdrop : (rest.reverse ++ chars.reverse).dropWhile (· == c) =
      rest.reverse.dropWhile (· == c) ++ chars.reverse := by
    rw [List.dropWhile_append, if_neg]
    simpa using hne
  rw [trimEndChars, List.reverse_append, hdrop, List.reverse_append, List.reverse_reverse]
  rfl

/-- A plain path ends in one slash at most. -/
theorem Plain.eq_trimEnd_or (h : Plain path) :
    path = Path.trimEndChars '/' path ∨ path = Path.trimEndChars '/' path ++ ['/'] := by
  by_cases hlast : path.getLast? = some '/'
  · obtain ⟨init, rfl⟩ := List.getLast?_eq_some_iff.mp hlast
    right
    have hinit : init.getLast? ≠ some '/' := by
      intro hinit
      obtain ⟨front, rfl⟩ := List.getLast?_eq_some_iff.mp hinit
      have hdouble := no_double_slash false (front ++ ['/'] ++ ['/'])
      rw [h.normal] at hdouble
      exact hdouble ⟨front, [], by simp⟩
    rw [trimEndChars_append_self, trimEndChars_of_last hinit]
  · left
    exact (trimEndChars_of_last hlast).symm

theorem Plain.trimEnd_ne_nil (h : Plain path) (hne : path ≠ []) :
    Path.trimEndChars '/' path ≠ [] := by
  intro he
  rcases h.eq_trimEnd_or with hp | hp
  · rw [he] at hp
    exact hne hp
  · rw [he, List.nil_append] at hp
    have hslash := (bare_iff.mp h.bare).1
    rw [hp] at hslash
    exact hslash List.prefix_rfl

/-- A lone dot does not come of cutting slashes: with one behind it, it would have been a lead. -/
theorem Plain.trimEnd_ne_dot (h : Plain path) (hne : path ≠ ['.']) :
    Path.trimEndChars '/' path ≠ ['.'] := by
  intro he
  rcases h.eq_trimEnd_or with hp | hp
  · rw [he] at hp
    exact hne hp
  · rw [he] at hp
    have hdot := (bare_iff.mp h.bare).2
    rw [hp] at hdot
    exact hdot List.prefix_rfl

end
end Path

namespace Backend

section
variable {base base' : String}

theorem relative_handedOn (hbase : Path.Plain base.toList)
    (hlast : base.toList.getLast? ≠ some '/') (hdot : base ≠ ".") (path : String) :
    Path.relative (handedOn base path) = handedOn base path := by
  by_cases hb : base = ""
  · rw [hb, relative_handedOn_empty]
    rfl
  · by_cases hp : Path.relative path = ""
    · rw [relative_handedOn_folder hbase hp, handedOn, if_neg hb, if_pos hp]
    · rw [relative_handedOn_below hbase hlast hb hdot hp, handedOn, if_neg hb, if_neg hp]

/-- It is all one whether a path goes through two folders one after the other or through the second
below the first. -/
theorem handedOn_handedOn (hbase : Path.Plain base'.toList)
    (hlast : base'.toList.getLast? ≠ some '/') (hdot : base' ≠ ".") (path : String) :
    handedOn base (handedOn base' path) = handedOn (handedOn base base') path := by
  have hrel := relative_handedOn hbase hlast hdot path
  have hinner := hbase.relative
  by_cases hb : base = ""
  · have hbelow : handedOn base base' = base' := by
      rw [handedOn, hinner, if_pos hb]
    rw [hbelow, handedOn, hrel, if_pos hb]
  · by_cases hb' : base' = ""
    · have hbelow : handedOn base base' = base := by
        rw [handedOn, hinner, if_neg hb, if_pos hb']
      have hpass : handedOn base' path = Path.relative path := by
        rw [handedOn, if_pos hb']
      rw [hbelow, hpass, handedOn, handedOn, Path.relative_relative]
    · have hbelow : handedOn base base' = base ++ "/" ++ base' := by
        rw [handedOn, hinner, if_neg hb, if_neg hb']
      have hne : base ++ "/" ++ base' ≠ "" := by simp [hb]
      rw [hbelow]
      by_cases hp : Path.relative path = ""
      · have hfolder : handedOn base' path = base' := by
          rw [handedOn, if_neg hb', if_pos hp]
        rw [hfolder, hbelow, handedOn, if_neg hne, if_pos hp]
      · have hpath : handedOn base' path = base' ++ "/" ++ Path.relative path := by
          rw [handedOn, if_neg hb', if_neg hp]
        rw [hpath] at hrel
        have hsome : base' ++ "/" ++ Path.relative path ≠ "" := by simp [hb']
        have hdown : handedOn base (base' ++ "/" ++ Path.relative path) =
            base ++ "/" ++ (base' ++ "/" ++ Path.relative path) := by
          rw [handedOn, hrel, if_neg hb, if_neg hsome]
        rw [hpath, hdown, handedOn, if_neg hne, if_neg hp]
        simp only [String.append_assoc]

end

section
variable {a b : String}

theorem toList_baseOf (folder : String) :
    (baseOf folder).toList = Path.trimEndChars '/' (Path.relative folder).toList := by
  rw [baseOf, Path.trimEnd, String.toList_ofList]

theorem baseOf_ne_dot (h : Path.relative a ≠ ".") : baseOf a ≠ "." := by
  intro he
  have hchars : (baseOf a).toList = ['.'] := congrArg String.toList he
  rw [toList_baseOf] at hchars
  apply (Path.plain_relative a).trimEnd_ne_dot _ hchars
  intro hd
  exact h (String.toList_inj.mp hd)

theorem baseOf_eq_empty_iff : baseOf a = "" ↔ Path.relative a = "" := by
  constructor
  · intro he
    have hchars : (baseOf a).toList = [] := congrArg String.toList he
    rw [toList_baseOf] at hchars
    by_contra hne
    apply (Path.plain_relative a).trimEnd_ne_nil _ hchars
    rwa [ne_eq, String.toList_eq_nil_iff]
  · intro he
    rw [baseOf, he]
    rfl

/-- Two paths that are joined meet with one slash, even where the first brings its own. -/
theorem relative_joined (ha : Path.relative a ≠ "") (hdot : Path.relative a ≠ ".") :
    Path.relative (Path.relative a ++ "/" ++ Path.relative b) =
      baseOf a ++ "/" ++ Path.relative b := by
  have hslash : Path.isSeparator '/' = true := rfl
  have hbase := plain_baseOf a
  have hlast := getLast?_baseOf a
  have hb := Path.plain_relative b
  have hplain : Path.Plain ((baseOf a).toList ++ '/' :: (Path.relative b).toList) := by
    apply hbase.below hb
    · rw [ne_eq, String.toList_eq_nil_iff, baseOf_eq_empty_iff]
      exact ha
    · intro he
      exact baseOf_ne_dot hdot (String.toList_inj.mp he)
    · exact hlast
  have hnormal : Path.normalizeAfter false
      ((Path.relative a).toList ++ '/' :: (Path.relative b).toList) =
        (baseOf a).toList ++ '/' :: (Path.relative b).toList := by
    rcases (Path.plain_relative a).eq_trimEnd_or with h | h
    · rw [h, ← toList_baseOf]
      exact hplain.normal
    · rw [h, ← toList_baseOf, List.append_assoc, Path.normalizeAfter_append, hbase.normal,
        Path.closedAfter_of_normal hbase.normal hlast, List.singleton_append,
        Path.normalizeAfter_of_separator hslash, Path.normalizeAfter_of_separator_closed hslash,
        Path.normalizeAfter_of_opens hb.opens, hb.normal]
  have hchars : (Path.relative a ++ "/" ++ Path.relative b).toList =
      (Path.relative a).toList ++ '/' :: (Path.relative b).toList := by simp
  rw [Path.relative, hchars, hnormal, hplain.bare]
  exact String.toList_inj.mp (by simp)

/-- One view of the joined path is limited to what the second folder is for the first. -/
theorem baseOf_joined (hdot : Path.relative a ≠ ".") :
    baseOf (Path.relative a ++ "/" ++ Path.relative b) = handedOn (baseOf a) (baseOf b) := by
  have hinner := (plain_baseOf b).relative
  by_cases ha : Path.relative a = ""
  · have hrel : Path.relative ("" ++ "/" ++ Path.relative b) = Path.relative b := by
      have hlead := Path.stripLeads_lead (.separator (c := '/') rfl .nil)
        (Path.relative b).toList false
      have hchars : ("" ++ "/" ++ Path.relative b).toList = ['/'] ++ (Path.relative b).toList := by
        simp
      rw [Path.relative, hchars, hlead]
      exact (Path.plain_relative b).relative
    rw [ha, handedOn, hinner, if_pos (baseOf_eq_empty_iff.mpr ha), baseOf, hrel]
    rfl
  · have hne : baseOf a ≠ "" := mt baseOf_eq_empty_iff.mp ha
    rw [handedOn, hinner, if_neg hne]
    apply String.toList_inj.mp
    rw [toList_baseOf, relative_joined ha hdot]
    by_cases hb : Path.relative b = ""
    · have hchars : (baseOf a ++ "/" ++ "").toList = (baseOf a).toList ++ ['/'] := by simp
      rw [if_pos (baseOf_eq_empty_iff.mpr hb), hb, hchars, Path.trimEndChars_append_self,
        Path.trimEndChars_of_last (getLast?_baseOf a)]
    · have hrest : Path.trimEndChars '/' (Path.relative b).toList ≠ [] := by
        apply (Path.plain_relative b).trimEnd_ne_nil
        rwa [ne_eq, String.toList_eq_nil_iff]
      have hbne : baseOf b ≠ "" := mt baseOf_eq_empty_iff.mp hb
      rw [if_neg hbne, String.toList_append, Path.trimEndChars_append hrest, ← toList_baseOf b,
        ← String.toList_append]

end

/-- What lies behind so many views of a backend, and the path that it is asked for. -/
def behind : (views : Nat) → Backend → String → Backend × String
  | 0, b, path => (b, path)
  | views + 1, view inner base, path => inner.behind views (handedOn base path)
  | _ + 1, b, path => (b, path)

/-- Whatever one backend is asked about a path, it asks the other about what it hands on. -/
structure Asks (b other : Backend) (path handed : String) : Prop where
  openFile : ∀ host, b.openFile host path = other.openFile host handed
  isFile : ∀ host, b.isFile host path = other.isFile host handed
  enumerate : ∀ host filter, b.enumerate host path filter = other.enumerate host handed filter

theorem asks_behind (views : Nat) (b : Backend) (path : String) :
    Asks b (b.behind views path).1 path (b.behind views path).2 := by
  induction views generalizing b path with
  | zero => exact ⟨fun _ => rfl, fun _ => rfl, fun _ _ => rfl⟩
  | succ views ih =>
    cases b with
    | folder root => exact ⟨fun _ => rfl, fun _ => rfl, fun _ _ => rfl⟩
    | disc image => exact ⟨fun _ => rfl, fun _ => rfl, fun _ _ => rfl⟩
    | view inner base =>
      have h := ih inner (handedOn base path)
      exact ⟨h.openFile, h.isFile, h.enumerate⟩

/-- A view of a view hands on the path that one view of the joined folders does, so that a backend
cannot tell them apart. -/
theorem views_compose (inner : Backend) {a b : String} (ha : Path.relative a ≠ ".")
    (hb : Path.relative b ≠ ".") (path : String) :
    let twice := (inner.limit a).limit b
    let once := inner.limit (Path.relative a ++ "/" ++ Path.relative b)
    ∃ handed, twice.behind 2 path = (inner, handed) ∧ once.behind 1 path = (inner, handed) ∧
      Asks twice inner path handed ∧ Asks once inner path handed := by
  intro twice once
  have hsame : handedOn (baseOf a) (handedOn (baseOf b) path) =
      handedOn (baseOf (Path.relative a ++ "/" ++ Path.relative b)) path := by
    rw [baseOf_joined ha]
    exact handedOn_handedOn (plain_baseOf b) (getLast?_baseOf b) (baseOf_ne_dot hb) path
  obtain ⟨handed, hhanded⟩ : ∃ handed,
      handedOn (baseOf (Path.relative a ++ "/" ++ Path.relative b)) path = handed := ⟨_, rfl⟩
  have htwice : twice.behind 2 path = (inner, handed) :=
    congrArg (Prod.mk inner) (hsame.trans hhanded)
  have honce : once.behind 1 path = (inner, handed) := congrArg (Prod.mk inner) hhanded
  have htwiceAsks := asks_behind 2 twice path
  have honceAsks := asks_behind 1 once path
  rw [htwice] at htwiceAsks
  rw [honce] at honceAsks
  exact ⟨handed, htwice, honce, htwiceAsks, honceAsks⟩

theorem views_compose_slashes :
    Path.relative "sub\\" ≠ "." ∧ Path.relative ".//x/" ≠ "." ∧
      (((folder "d").limit "sub\\").limit ".//x/").behind 2 "\\y" = (folder "d", "sub/x/y") ∧
      ((folder "d").limit "sub//x/").behind 1 "\\y" = (folder "d", "sub/x/y") := by
  have ha : Path.relative "sub\\" ≠ "." := by decide +kernel
  have hb : Path.relative ".//x/" ≠ "." := by decide +kernel
  obtain ⟨handed, htwice, honce, -, -⟩ := views_compose (folder "d") ha hb "\\y"
  have hjoined : Path.relative "sub\\" ++ "/" ++ Path.relative ".//x/" = "sub//x/" := by
    decide +kernel
  have hhanded : handedOn (baseOf "sub//x/") "\\y" = "sub/x/y" := by decide +kernel
  rw [hjoined] at honce
  obtain rfl : handed = "sub/x/y" := (Prod.mk.inj honce).2.symm.trans hhanded
  exact ⟨ha, hb, htwice, honce⟩

end Backend
end LayeredAssets
