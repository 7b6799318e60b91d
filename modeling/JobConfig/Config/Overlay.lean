import JobConfig.Config
import JobConfig.Log
import JobConfig.Setting.Text

/-!
Configs as texts of their settings, and texts laid over configs.

Laying texts over a config goes through them in ascending order of their keys. Unknown keys are
passed over; the first value that is refused ends it, and then nothing is changed.
-/
namespace JobConfig.Config

def settingText (c : Config) (s : Setting) : String :=
  s.render (c.get s)

def toSettings (c : Config) : StringMap String :=
  StringMap.ofList (Setting.all.map fun s => (s.key, c.settingText s))

def applyEntry (c : Config) (key value : String) : Traced (Except ConfigError Config) :=
  match Setting.ofKey? key with
  | none => ⟨.ok c, [.ignored key]⟩
  | some s =>
    match s.parse value with
    | .error reason => ⟨.error (.invalid key reason), []⟩
    | .ok v => ⟨.ok (c.set s v), [.applied key value]⟩

def applyEntries (c : Config) : List (String × String) → Traced (Except ConfigError Config)
  | [] => .quiet (.ok c)
  | (key, value) :: rest => (c.applyEntry key value).andThenOk fun c => c.applyEntries rest

/-- The config with the given texts laid over it. -/
def configure (c : Config) (settings : StringMap String) : Traced (Except ConfigError Config) :=
  c.applyEntries settings.entries

/-- Lays texts over a config in place: the config that there is afterwards, and what came of it. -/
def reconfigure (c : Config) (settings : StringMap String) :
    Traced (Config × Except ConfigError Unit) :=
  (c.configure settings).map fun
    | .ok next => (next, .ok ())
    | .error e => (c, .error e)

theorem value_reconfigure_of_ok {c next : Config} {settings : StringMap String}
    (h : (c.configure settings).value = .ok next) :
    (c.reconfigure settings).value = (next, .ok ()) := by
  rw [reconfigure, Traced.value_map, h]

theorem value_reconfigure_of_error {c : Config} {settings : StringMap String} {e : ConfigError}
    (h : (c.configure settings).value = .error e) :
    (c.reconfigure settings).value = (c, .error e) := by
  rw [reconfigure, Traced.value_map, h]

def fromSettings (settings : StringMap String) : Traced (Except ConfigError Config) :=
  default.configure settings

/-- The settings whose texts differ, with the later text, in ascending order of the keys. -/
def changes (before after : Config) : StringMap String :=
  let old := before.toSettings
  let new := after.toSettings
  ⟨new.entries.filter fun e => old.get? e.1 ≠ some e.2, new.ascending.filter _⟩

def display (c : Config) : String :=
  "ExecutionConfig(" ++
    ", ".intercalate (c.toSettings.entries.map fun e => e.1 ++ "=" ++ e.2) ++ ")"

end JobConfig.Config
