import LayeredAssets.Locator

namespace LayeredAssets.Locator

structure PathCandidate where
  set : ActiveSet
  file : String
  holding : Holding

/-- In each data set only the first location counts that is declared for it. -/
def pathCandidates (l : Locator) (mapping : PathMapping) : List PathCandidate :=
  l.builtIn.flatMap fun s =>
    match mapping.location? s.name with
    | none => []
    | some location => (l.map.holdings s.name location.file).map (⟨s, location.file, ·⟩)

def judgePath (host : Host) (name : String) (mapping : PathMapping) (l : Locator)
    (candidate : PathCandidate) : Locator × Verdict LevelPath :=
  l.withArchive host candidate.set candidate.holding.archive fun l archive =>
    match archive.file? candidate.file with
    | none => (l, .passOver)
    | some file =>
      match file.withId? mapping.id with
      | none => (l, .refuse)
      | some chunk =>
        (l, .settle {
          name := name
          dataSet := candidate.set.name
          archiveName := candidate.holding.archive
          file := candidate.file
          chunk := chunk
          collisionOffset := mapping.collisionOffset
          objectIndexOffset := mapping.objectIndexOffset
          objectOffset := mapping.objectOffset
          screensAcross := mapping.screensAcross
          screensDown := mapping.screensDown
          musicTheme := mapping.musicTheme
          isAo := candidate.holding.isAo })

def locatePath (l : Locator) (host : Host) (name : String) : Locator × Option LevelPath :=
  match l.map.path? name with
  | none => (l, none)
  | some mapping => Verdict.first (judgePath host name mapping) l (l.pathCandidates mapping)

end LayeredAssets.Locator
