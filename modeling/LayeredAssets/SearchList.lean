import LayeredAssets.Dependencies
import LayeredAssets.PathTable

namespace LayeredAssets

/-- A data set that is searched. A search list holds them in order. -/
structure ActiveSet where
  name : String
  isMod : Bool
  backend : Backend

def ActiveSet.describe (s : ActiveSet) : String :=
  "ActiveDataSet \x7b data_set_name: " ++ Text.quote s.name ++ ", is_mod: "
    ++ (if s.isMod then "true" else "false") ++ ", fs: " ++ Text.quote s.backend.place ++ " \x7d"

namespace PathTable

/-- A mod lies where its definition was read from. -/
def bound? (table : PathTable) (p : Priority) : Option String :=
  if p.isMod then some p.source.container else table.path? p.name

def resolve (table : PathTable) (priorities : List Priority) : List Priority :=
  priorities.map (fun p => { p with path := table.bound? p })

/-- Where an entry is to be opened, unless it only groups others or has no path. -/
def wanted? (table : PathTable) (p : Priority) : Option (Priority × String) :=
  if table.catalog.isMeta p.name then none
  else (p.path.or (table.bound? p)).map (p, ·)

def openEntry (host : Host) (entry : Priority × String) : Except Fault ActiveSet :=
  (Backend.ofDataPath host entry.2).map (⟨entry.1.name, entry.1.isMod, ·⟩)

/-- All or nothing: one entry that cannot be opened leaves no search list. -/
def activate (table : PathTable) (host : Host) (priorities : List Priority) :
    Except Fault (List ActiveSet) :=
  (priorities.filterMap table.wanted?).mapM (openEntry host)

end PathTable
end LayeredAssets
