import LayeredAssets.Locator

namespace LayeredAssets.Locator

def subtitlesFile (name : String) : String := "data/subtitles/" ++ name ++ ".SRT"

def subtitles? (l : Locator) (host : Host) (name : String) : Option Stream :=
  l.gameFiles.bind (fun b => stream? host b (subtitlesFile name))

def videoCandidates (l : Locator) (mapping : VideoMapping) : List (ActiveSet × VideoLocation) :=
  l.builtIn.flatMap fun s =>
    (mapping.locations.filter (fun location => location.dataSet == s.name)).map (s, ·)

def judgeVideo (host : Host) (name : String) (l : Locator)
    (candidate : ActiveSet × VideoLocation) : Locator × Verdict Video :=
  let (s, location) := candidate
  match stream? host s.backend location.file with
  | none => (l, .passOver)
  | some stream =>
    (l, .settle {
      name := name
      dataSet := s.name
      file := location.file
      stream := stream
      startSector := location.startSector
      endSector := location.endSector
      subtitles := l.subtitles? host name })

def locateVideo (l : Locator) (host : Host) (name : String) : Locator × Option Video :=
  match l.map.video? name with
  | none => (l, none)
  | some mapping => Verdict.first (judgeVideo host name) l (l.videoCandidates mapping)

end LayeredAssets.Locator
