import ClipRender.Failure
import ClipRender.Json.Reader
import ClipRender.Settings.Basic
import ClipRender.Settings.EnvironmentFile
import ClipRender.Text.LetterCase
import ClipRender.Validation.Record
import ClipRender.Validation.Scalar

set_option autoImplicit false

/-!
Settings out of environment variables and an environment file. The case of names does not matter,
and a variable counts before the file. A name in the file that is no setting is an error.
-/

namespace ClipRender.Settings

open Json (Value Fields)
open Validation

/-- Names in lower case, each once, with their values. -/
abbrev Variables := List (String × String)

/-- Of names that differ only in case the last counts; one without a value is as good as unset. -/
def normalize (given : List (String × Option String)) : Variables :=
  (given.foldl (fun done v => EnvironmentFile.put (Text.lower v.1) v.2 done) []).filterMap
    fun (name, v) => v.map (name, ·)

def corsName : String := "cors_origins"

def textNames : List String :=
  ["app_name", "debug", "log_level", "input_directory", "output_directory", "public_base_url",
   "clipper_api_key", "ffmpeg_path", "drawtext_font_file", "max_render_workers",
   "render_timeout_seconds", "file_max_age_seconds", "cleanup_interval_seconds"]

/-- The list of origins is JSON text, of which null is as good as nothing. -/
def corsField (source : SettingSource) (set : Variables) : Except Failure Fields :=
  match set.lookup corsName with
  | none => .ok []
  | some s =>
    match Json.read s with
    | .error (.tooDeep container) => .error (.nestedTooDeep container)
    | .error _ => .error (.unreadableSetting corsName source)
    | .ok .null => .ok []
    | .ok v => .ok [(corsName, v)]

def fields (source : SettingSource) (set : Variables) : Except Failure Fields := do
  let cors ← corsField source set
  return (textNames.filterMap fun name => (set.lookup name).map fun s => (name, .string s)) ++ cors

/-- The names in a file that are no settings. One with an empty value is passed over. -/
def unknownNames (set : Variables) : List String :=
  (set.filter fun (name, v) => !textNames.contains name && name ≠ corsName && !v.isEmpty).map (·.1)

def unknownIssues (names : List String) : Checked Unit :=
  match names.map fun name => Issue.mk [.key name] .unknownKey with
  | [] => .valid ()
  | first :: more => .faulty first more

def check (given : Fields) : Checked Settings :=
  let setting := fun {α : Type} (name : String) (absent : α) (check : Value → Checked α) =>
    fieldOr (.word name) (.valid absent) check given
  Settings.mk
    <$> setting "app_name" defaults.appName text
    <*> setting "debug" defaults.debug flag
    <*> setting "log_level" defaults.logLevel text
    <*> setting "input_directory" defaults.inputDirectory text
    <*> setting "output_directory" defaults.outputDirectory text
    <*> setting "public_base_url" defaults.publicBaseUrl text
    <*> setting corsName defaults.corsOrigins (list text)
    <*> setting "clipper_api_key" defaults.apiKey (optional text)
    <*> setting "ffmpeg_path" defaults.enginePath text
    <*> setting "drawtext_font_file" defaults.fontFile (optional text)
    <*> setting "max_render_workers" defaults.maxRenders integer
    <*> setting "render_timeout_seconds" defaults.renderTimeout number
    <*> setting "file_max_age_seconds" defaults.fileMaxAge integer
    <*> setting "cleanup_interval_seconds" defaults.cleanupInterval integer

def read (environment : List (String × String)) (file : String) : Except Failure Settings := do
  let set := normalize (EnvironmentFile.read environment file)
  let outer ← fields .environment (normalize (environment.map fun (name, v) => (name, some v)))
  let inner ← fields .file set
  let both := outer ++ inner.filter fun f => !outer.any (·.1 = f.1)
  match (fun settings _ => settings) <$> check both <*> unknownIssues (unknownNames set) with
  | .valid settings => .ok settings
  | .faulty first more => .error (.invalidData (first :: more))

end ClipRender.Settings
