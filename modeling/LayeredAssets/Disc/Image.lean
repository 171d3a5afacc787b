import LayeredAssets.Disc.Walk
import LayeredAssets.Wildcard

namespace LayeredAssets.Disc

/-- What is known of an image once it has been opened; its files are read from the host anew. -/
structure Image where
  path : String
  framing : Framing
  sightings : List Sighting

namespace Image

def ofNode (path : String) (image : Node) : Except Fault Image := do
  let framing ← Framing.ofNode image
  let root ← rootRecord image path framing
  let sightings ← walk image framing (mostLevels + 1) "" root.extent
  return ⟨path, framing, sightings⟩

def mount (host : Host) (path : String) : Except Fault Image :=
  match host.find path with
  | .ok node => ofNode path node
  | .error _ => .error (.fileNotFound path)

/-- The version a path may end with is no part of the name. -/
def key (path : String) : String :=
  Text.uppercase (String.ofList
    (Path.trimEndChars '/' (beforeVersion (Path.relative path).toList)))

/-- Of files that share a path the last one met counts. -/
def fileAt? (image : Image) (path : String) : Option Extent :=
  (image.sightings.reverse.find? (fun s => !s.record.isFolder && s.path == path)).map
    (fun s => s.record.extent)

def isFolderAt (image : Image) (path : String) : Bool :=
  path == "" || image.sightings.any (fun s => s.record.isFolder && s.path == path)

def namesAt? (image : Image) (path : String) : Option (List String) :=
  if image.isFolderAt path then
    some ((image.sightings.filter (fun s => s.folder == path)).map (fun s => s.record.name))
  else none

/-- How messages name a path on an image. -/
def describe (image : Image) (path : String) : String := image.path ++ ":" ++ path

end Image
end LayeredAssets.Disc
