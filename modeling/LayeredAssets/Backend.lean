import LayeredAssets.Disc.Image
import LayeredAssets.Stream
import LayeredAssets.Text.Order
import LayeredAssets.Text.Utf8

namespace LayeredAssets

/-- Where the files of a data set are kept. -/
inductive Backend
  | folder (root : String)
  | disc (image : Disc.Image)
  /-- Sees one folder of another backend only. -/
  | view (inner : Backend) (base : String)

namespace Backend

/-- How messages name the backend. -/
def place : Backend → String
  | folder root => root
  | disc image => image.path
  | view inner base => Path.normalize (inner.place ++ "/" ++ base)

def ofFolder (host : Host) (root : String) : Except Fault Backend :=
  match host.find root with
  | .error cause => .error (.host cause)
  | .ok .folder => .ok (folder root)
  | .ok (.file _) => .error (.fileNotFound (root ++ " is not a decent directory"))

def ofImage (host : Host) (path : String) : Except Fault Backend :=
  (Disc.Image.mount host path).map disc

/-- A folder is taken as it is, and anything else for a disc image. -/
def ofDataPath (host : Host) (path : String) : Except Fault Backend :=
  if host.isFolder path then ofFolder host path else ofImage host path

def limit (inner : Backend) (path : String) : Backend :=
  view inner (Path.trimEnd '/' (Path.relative path))

/-- What a view of `base` hands on for `path`. -/
def handedOn (base path : String) : String :=
  let path := Path.relative path
  if base = "" then path
  else if path = "" then base
  else base ++ "/" ++ path

/-- Where a folder's files lie on the host: always a path below its root. -/
def location (root path : String) : String := Path.join root (Path.relative path)

def isFile (host : Host) : Backend → String → Bool
  | folder root, path => host.isFile (location root path)
  | disc image, path => (image.fileAt? (Disc.Image.key path)).isSome
  | view inner base, path => inner.isFile host (handedOn base path)

def openFile (host : Host) : Backend → String → Except Fault Stream
  | folder root, path =>
    match host.find (location root path) with
    | .ok (.file bytes) => .ok (.file bytes 0)
    | .ok .folder => .ok (.folder 0)
    | .error _ => .error (.fileNotFound (location root path))
  | disc image, path =>
    match image.fileAt? (Disc.Image.key path) with
    | none => .error (.fileNotFound (image.describe path))
    | some extent =>
      match host.find image.path with
      | .ok node => .ok (.disc ⟨node, image.framing, extent, 0⟩)
      | .error cause => .error (.host cause)
  | view inner base, path => inner.openFile host (handedOn base path)

def enumerate (host : Host) : Backend → (path filter : String) → Except Fault (List String)
  | folder root, path, filter =>
    match host.names (location root path) with
    | .ok names => .ok (Text.sorted (names.filter (fun name => Wildcard.isMatch name filter)))
    | .error cause => .error (.host cause)
  | disc image, path, filter =>
    match image.namesAt? (Disc.Image.key path) with
    | some names => .ok (Text.sorted (names.filter (fun name => Wildcard.isMatch name filter)))
    | none => .error (.fileNotFound (image.describe path))
  | view inner base, path, filter => inner.enumerate host (handedOn base path) filter

def readBytes (host : Host) (b : Backend) (path : String) : Except Fault Bytes :=
  match b.openFile host path with
  | .error fault => .error fault
  | .ok stream => stream.drain.1.mapError .host

def readText (host : Host) (b : Backend) (path : String) : Except Fault String :=
  match b.readBytes host path with
  | .error fault => .error fault
  | .ok bytes =>
    match Text.read? bytes with
    | some text => .ok text
    | none => .error (.host .notText)

end Backend
end LayeredAssets
