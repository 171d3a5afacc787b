import LayeredAssets.Json.Layout
import LayeredAssets.ResourceMap.Mapping

namespace LayeredAssets

/-- One record of a resource catalog. What a record without any known list says is not known. -/
inductive MapRecord
  | animations (named : List (String × AnimationMapping))
  /-- The archives of a data set with the files of each. -/
  | files (dataSet : String) (archives : List (Holding × List String))
  | paths (mappings : List PathMapping)
  | videos (mappings : List VideoMapping)
  | banks (mappings : List BankMapping)
  | effects (mappings : List EffectMapping)
  | musics (mappings : List MusicMapping)
  | unknown
  deriving DecidableEq, Repr

namespace MapRecord

open Json (Reader Layout Field)
open Json.Reader (string bool word signed size list optional)

def cells (layout : Layout) (j : Json) : Except Json.Complaint Json.Cells :=
  layout.cells .value j

def animationLayout : Layout := ⟨"AnimEntry", false, [
  .of "name" true string,
  .of "blend_mode" true word]⟩

def animation : Reader (String × UInt32) := fun j => do
  let cells ← cells animationLayout j
  return (← cells.required "name" string, ← cells.required "blend_mode" word)

def animationsLayout : Layout := ⟨"AnimRecord", false, [
  .of "file" true string,
  .of "id" true word,
  .of "anims" true (list animation)]⟩

def readAnimations : Reader MapRecord := fun j => do
  let cells ← cells animationsLayout j
  let file ← cells.required "file" string
  let id ← cells.required "id" word
  let named ← cells.required "anims" (list animation)
  return .animations (named.map (fun entry => (entry.1, ⟨file, id, entry.2⟩)))

def archiveLayout : Layout := ⟨"LvlEntry", false, [
  .of "name" true string,
  .of "files" true (list string)]⟩

def archive : Reader (String × List String) := fun j => do
  let cells ← cells archiveLayout j
  return (← cells.required "name" string, ← cells.required "files" (list string))

def filesLayout : Layout := ⟨"LvlRecord", false, [
  .of "data_set_name" true string,
  .of "is_psx" true bool,
  .of "is_ao" false bool,
  .of "scale_frame_offsets" false bool,
  .of "lvls" true (list archive)]⟩

def readFiles : Reader MapRecord := fun j => do
  let cells ← cells filesLayout j
  let dataSet ← cells.required "data_set_name" string
  let isPsx ← cells.required "is_psx" bool
  let isAo ← cells.optional "is_ao" bool false
  let scale ← cells.optional "scale_frame_offsets" bool false
  let archives ← cells.required "lvls" (list archive)
  return .files dataSet (archives.map (fun entry => (⟨entry.1, isPsx, isAo, scale⟩, entry.2)))

def pathLocationLayout : Layout := ⟨"PathLocation", false, [
  .of "dataset" true string,
  .of "file_name" true string]⟩

def pathLocation : Reader PathLocation := fun j => do
  let cells ← cells pathLocationLayout j
  return ⟨← cells.required "dataset" string, ← cells.required "file_name" string⟩

def pathLayout : Layout := ⟨"PathMapping", false, [
  .of "resource_name" true string,
  .of "id" true word,
  .of "collision_offset" true word,
  .of "object_indextable_offset" true word,
  .of "object_offset" true word,
  .of "number_of_screens_x" true word,
  .of "number_of_screens_y" true word,
  .of "music_theme" false (optional string),
  .of "locations" true (list pathLocation)]⟩

def path : Reader PathMapping := fun j => do
  let cells ← cells pathLayout j
  return {
    name := ← cells.required "resource_name" string
    id := ← cells.required "id" word
    collisionOffset := ← cells.required "collision_offset" word
    objectIndexOffset := ← cells.required "object_indextable_offset" word
    objectOffset := ← cells.required "object_offset" word
    screensAcross := ← cells.required "number_of_screens_x" word
    screensDown := ← cells.required "number_of_screens_y" word
    musicTheme := ← cells.optional "music_theme" (optional string) none
    locations := ← cells.required "locations" (list pathLocation) }

def videoLocationLayout : Layout := ⟨"FmvLocation", false, [
  .of "dataset" true string,
  .of "file_name" true string,
  .of "start_sector" false (optional word),
  .of "end_sector" false (optional word)]⟩

def videoLocation : Reader VideoLocation := fun j => do
  let cells ← cells videoLocationLayout j
  return {
    dataSet := ← cells.required "dataset" string
    file := ← cells.required "file_name" string
    startSector := ← cells.optional "start_sector" (optional word) none
    endSector := ← cells.optional "end_sector" (optional word) none }

def videoLayout : Layout := ⟨"FmvMapping", false, [
  .of "name" true string,
  .of "locations" true (list videoLocation)]⟩

def video : Reader VideoMapping := fun j => do
  let cells ← cells videoLayout j
  return ⟨← cells.required "name" string, ← cells.required "locations" (list videoLocation)⟩

def bankLayout : Layout := ⟨"SoundBankMapping", false, [
  .of "name" true string,
  .of "dataset" true string,
  .of "lvl" true string,
  .of "vab_header" true string,
  .of "vab_body" true string]⟩

def bank : Reader BankMapping := fun j => do
  let cells ← cells bankLayout j
  return {
    name := ← cells.required "name" string
    dataSet := ← cells.required "dataset" string
    archive := ← cells.required "lvl" string
    header := ← cells.required "vab_header" string
    body := ← cells.required "vab_body" string }

def effectLayout : Layout := ⟨"SoundEffectMapping", false, [
  .of "name" true string,
  .of "dataset" true string,
  .of "sound_bank" true string,
  .of "program" true word,
  .of "note" true word,
  .of "min_pitch" false signed,
  .of "max_pitch" false signed]⟩

def effect : Reader EffectMapping := fun j => do
  let cells ← cells effectLayout j
  return {
    name := ← cells.required "name" string
    dataSet := ← cells.required "dataset" string
    bank := ← cells.required "sound_bank" string
    program := ← cells.required "program" word
    note := ← cells.required "note" word
    minPitch := ← cells.optional "min_pitch" signed 0
    maxPitch := ← cells.optional "max_pitch" signed 0 }

def musicLayout : Layout := ⟨"MusicMapping", false, [
  .of "name" true string,
  .of "dataset" true string,
  .of "lvl" true string,
  .of "file" true string,
  .of "index" true size,
  .of "sound_bank" true string]⟩

def music : Reader MusicMapping := fun j => do
  let cells ← cells musicLayout j
  return {
    name := ← cells.required "name" string
    dataSet := ← cells.required "dataset" string
    archive := ← cells.required "lvl" string
    file := ← cells.required "file" string
    index := ← cells.required "index" size
    bank := ← cells.required "sound_bank" string }

/-- A record that holds one list under `key` and nothing else of note. -/
def only {α : Type} (title key : String) (reader : Reader α) (make : List α → MapRecord) :
    Reader MapRecord := fun j => do
  let cells ← cells ⟨title, false, [.of key true (list reader)]⟩ j
  return make (← cells.required key (list reader))

/-- The lists that tell what a record is about, the first that it holds being the one that
counts. -/
def readers : List (String × Reader MapRecord) := [
  ("anims", readAnimations),
  ("lvls", readFiles),
  ("paths", only "PathRecord" "paths" path .paths),
  ("fmvs", only "FmvRecord" "fmvs" video .videos),
  ("sound_banks", only "SoundBankRecord" "sound_banks" bank .banks),
  ("sound_effects", only "SoundEffectRecord" "sound_effects" effect .effects),
  ("musics", only "MusicRecord" "musics" music .musics)]

def holdsList (members : List (String × Json)) (key : String) : Bool :=
  match members.lookup key with
  | some j => j.isArray
  | none => false

def ofMembers (members : List (String × Json)) : Except Json.Complaint MapRecord :=
  match readers.find? (fun entry => holdsList members entry.1) with
  | some (_, read) => read (.object (members.map fun m => (some m.1, m.2)))
  | none => .ok .unknown

end MapRecord
end LayeredAssets
