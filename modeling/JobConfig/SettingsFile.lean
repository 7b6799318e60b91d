import JobConfig.Config.Overlay
import JobConfig.Yaml.Value.Builder

/-!
Settings files: a YAML mapping from keys to values. A value that is a string stands for itself, any
other value for the text of its JSON form.
-/
namespace JobConfig

inductive FileContent where
  | missing
  | directory
  | bytes (content : List UInt8)

structure SettingsFile where
  path : String
  content : FileContent

namespace SettingsFile

def valueText (key : String) (v : Yaml.Value) : Except ConfigError String :=
  match v.toJson with
  | .ok json => .ok json.parameterText
  | .error e => .error (.invalid key (.unsupported e))

/-- The texts of values in ascending order of their keys; the first without one ends it. -/
def valueTexts : List (String × Yaml.Value) → Except ConfigError (List (String × String))
  | [] => .ok []
  | (key, v) :: rest =>
    match valueText key v with
    | .error e => .error e
    | .ok text => (valueTexts rest).map ((key, text) :: ·)

def load (file : SettingsFile) : Traced (Except ConfigError (StringMap String)) :=
  match file.content with
  | .missing => .quiet (.error .missingFile)
  | .directory => .quiet (.error .malformedFile)
  | .bytes content =>
    match Yaml.parse? content with
    | none => .quiet (.error .malformedFile)
    | some values =>
      match valueTexts values.entries with
      | .error e => .quiet (.error e)
      | .ok entries =>
        let settings := StringMap.ofList entries
        ⟨.ok settings, [.loaded settings.size file.path]⟩

end SettingsFile

def Config.fromFile (file : SettingsFile) : Traced (Except ConfigError Config) :=
  file.load.andThenOk fromSettings

end JobConfig
