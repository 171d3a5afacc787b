import LayeredAssets.Json.Complaint

namespace LayeredAssets

/-- What the host says when it refuses, and what a read finds missing. `reported` carries a text
that a caller gives as the cause. -/
inductive HostFault
  | notFound
  | notFolder
  | isFolder
  | badSeek
  | endOfData
  | notText
  | negativeSeek
  | reported (text : String)
  deriving DecidableEq, Repr

def HostFault.message : HostFault → String
  | .notFound => "No such file or directory (os error 2)"
  | .notFolder => "Not a directory (os error 20)"
  | .isFolder => "Is a directory (os error 21)"
  | .badSeek => "Invalid argument (os error 22)"
  | .endOfData => "failed to fill whole buffer"
  | .notText => "stream did not contain valid UTF-8"
  | .negativeSeek => "invalid seek to a negative position"
  | .reported text => text

inductive DiscFault
  | sectorMode (mode : Nat)
  | noDescriptor (image : String) (sector : Nat)
  | noPrimary (image : String)
  | badRoot
  | badRecord (folder : String)
  | tooDeep (folder : String)
  | reported (text : String)
  deriving DecidableEq, Repr

def DiscFault.message : DiscFault → String
  | .sectorMode mode => "unsupported sector mode " ++ toString mode
  | .noDescriptor image sector =>
    image ++ " has no ISO9660 volume descriptor at sector " ++ toString sector
  | .noPrimary image => image ++ " has no primary volume descriptor"
  | .badRoot => "malformed root directory record"
  | .badRecord folder => "malformed directory record in " ++ Text.quote folder
  | .tooDeep folder => "directory " ++ Text.quote folder ++ " is nested too deeply"
  | .reported text => text

inductive ConfigFault
  | text (complaint : Json.Complaint)
  | record (index : Nat) (complaint : Json.Complaint)
  | entry (name : String) (complaint : Json.Complaint)
  | wrappedNotObject
  | reported (text : String)
  deriving DecidableEq, Repr

def ConfigFault.message : ConfigFault → String
  | .text complaint => complaint.message
  | .record index complaint => "record " ++ toString index ++ ": " ++ complaint.message
  | .entry name complaint => name ++ ": " ++ complaint.message
  | .wrappedNotObject => "data_set_ids is not an object"
  | .reported note => note

inductive NamedPathFault
  | notEnclosed (name : String)
  | noName (name : String)
  | unterminated (source : String)
  | undefined (token source : String)
  | tooDeep (source : String)
  | reported (text : String)
  deriving DecidableEq, Repr

def NamedPathFault.message : NamedPathFault → String
  | .notEnclosed name => "Named path " ++ Text.quote name ++ " MUST be enclosed in braces."
  | .noName name => "Named path " ++ Text.quote name ++ " MUST have a name without braces."
  | .unterminated source => "Unterminated named path in " ++ Text.quote source ++ "."
  | .undefined token source =>
    "Undefined named path " ++ token ++ " in " ++ Text.quote source ++ "."
  | .tooDeep source => "Named paths of " ++ Text.quote source ++ " are nested too deeply."
  | .reported text => text

/-- A resource that no data set supplies is not among these: it is simply not found. -/
inductive Fault
  | host (cause : HostFault)
  | json (complaint : Json.Complaint)
  | config (file : String) (cause : ConfigFault)
  | fileNotFound (place : String)
  | disc (cause : DiscFault)
  | archive (text : String)
  | namedPath (cause : NamedPathFault)
  | request (text : String)
  deriving DecidableEq, Repr

def Fault.message : Fault → String
  | .host cause => cause.message
  | .json complaint => complaint.message
  | .config file cause => "Malformed configuration " ++ file ++ ": " ++ cause.message ++ "."
  | .fileNotFound place => "File not found: " ++ Text.quote place ++ "."
  | .disc cause => "Malformed disc image: " ++ cause.message ++ "."
  | .archive text => "Archive failure: " ++ text ++ "."
  | .namedPath cause => cause.message
  | .request text => "Request aborted: " ++ text ++ "."

end LayeredAssets
