import LayeredAssets.Locator

namespace LayeredAssets.Locator

/-- Where a data set for a computer keeps the samples of its banks. -/
def samplesFile : String := "sounds.dat"

def bankCandidates (l : Locator) (name : String) : List (ActiveSet × BankMapping) :=
  l.builtIn.flatMap fun s =>
    ((l.map.banksNamed name).filter (fun mapping => mapping.dataSet == s.name)).map (s, ·)

/-- The body is made as the header is. A bank with an empty file ends the search. -/
def judgeBank (host : Host) (name : String) (l : Locator) (candidate : ActiveSet × BankMapping) :
    Locator × Verdict SoundBank :=
  let (s, mapping) := candidate
  l.withArchive host s mapping.archive fun l archive =>
    match l.map.holding? s.name mapping.archive mapping.header,
      archive.file? mapping.header, archive.file? mapping.body with
    | some holding, some header, some body =>
      match header.at? 0, body.at? 0 with
      | some header, some body =>
        (l, .settle {
          name := name
          dataSet := s.name
          archiveName := mapping.archive
          isPsx := holding.isPsx
          header := header
          body := body
          samples := stream? host s.backend samplesFile })
      | _, _ => (l, .refuse)
    | _, _, _ => (l, .passOver)

def locateBank (l : Locator) (host : Host) (name : String) : Locator × Option SoundBank :=
  Verdict.first (judgeBank host name) l (l.bankCandidates name)

/-- The data set of the effect must be active; its bank may come from another one. -/
def locateEffect (l : Locator) (host : Host) (name : String) : Locator × Option SoundEffect :=
  match l.map.effect? name with
  | none => (l, none)
  | some mapping =>
    if l.builtIn.any (fun s => s.name == mapping.dataSet) then
      match l.locateBank host mapping.bank with
      | (l, none) => (l, none)
      | (l, some bank) =>
        (l, some {
          name := name
          dataSet := mapping.dataSet
          bank := bank
          program := mapping.program
          note := mapping.note
          minPitch := mapping.minPitch
          maxPitch := mapping.maxPitch })
    else (l, none)

/-- The archive stays open while the bank is looked for, which may lie in it. -/
def judgeMusic (host : Host) (name : String) (mapping : MusicMapping) (l : Locator)
    (s : ActiveSet) : Locator × Verdict Music :=
  l.withArchive host s mapping.archive fun l archive =>
    match archive.file? mapping.file with
    | none => (l, .passOver)
    | some file =>
      match l.locateBank host mapping.bank with
      | (l, none) => (l, .passOver)
      | (l, some bank) =>
        match file.at? mapping.index with
        | none => (l, .refuse)
        | some sequence =>
          (l, .settle {
            name := name
            dataSet := s.name
            archiveName := mapping.archive
            file := mapping.file
            sequence := sequence
            bank := bank })

def locateMusic (l : Locator) (host : Host) (name : String) : Locator × Option Music :=
  match l.map.music? name with
  | none => (l, none)
  | some mapping =>
    Verdict.first (judgeMusic host name mapping) l
      (l.builtIn.filter (fun s => s.name == mapping.dataSet))

end LayeredAssets.Locator
