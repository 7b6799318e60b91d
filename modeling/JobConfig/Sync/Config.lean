import JobConfig.Config.Overlay
import JobConfig.Sync.Store

/-!
A config that is kept in step with the store of a runtime.

All settings are pushed when the two are brought together. An update forwards the settings that it
changes, in ascending order of their keys, and is taken over only if the store accepts every one of
them; what was accepted before a refusal stays in the store. A refresh lays the settings of the
store over the config.
-/
namespace JobConfig

/-- How far a list of settings went into a store. -/
structure Push (σ : Type) where
  store : σ
  /-- The settings offered to the store; a refused one is the last. -/
  attempted : List (String × String)
  refusal : Option String

/-- A config with the store of the runtime that follows it. -/
structure Synced (σ : Type) where
  config : Config
  store : σ

namespace Synced

variable {σ : Type} [SettingsStore σ]

/-- Offers settings to a store until one is refused. -/
def push (store : σ) : List (String × String) → Push σ
  | [] => ⟨store, [], none⟩
  | (key, value) :: rest =>
    match SettingsStore.apply store key value with
    | (store, .error cause) => ⟨store, [(key, value)], some cause⟩
    | (store, .ok ()) =>
      let p := push store rest
      { p with attempted := (key, value) :: p.attempted }

/-- Brings a config and a store together by pushing every setting. The store is given back when it
refuses one. -/
def connect (config : Config) (store : σ) : Traced (Except (ConfigError × σ) (Synced σ)) :=
  let p := push store config.toSettings.entries
  match p.refusal with
  | some cause => .quiet (.error (.refused cause, p.store))
  | none => ⟨.ok ⟨config, p.store⟩, [.pushedAll]⟩

/-- Changes the config by `f` and forwards the settings that `f` changed. -/
def update (s : Synced σ) (f : Config → Traced Config) :
    Traced (Synced σ × Except ConfigError Unit) :=
  (f s.config).andThen fun next =>
    let p := push s.store (Config.changes s.config next).entries
    let events := p.attempted.map fun e => Event.forwarding e.1 e.2
    match p.refusal with
    | some cause => ⟨(⟨s.config, p.store⟩, .error (.refused cause)), events⟩
    | none => ⟨(⟨next, p.store⟩, .ok ()), events⟩

def readSettings (store : σ) : List Setting → Except String (List (String × String))
  | [] => .ok []
  | s :: rest =>
    match SettingsStore.read store s.key with
    | .error cause => .error cause
    | .ok value =>
      (readSettings store rest).map fun l =>
        match value with
        | none => l
        | some v => (s.key, v) :: l

def refresh (s : Synced σ) : Traced (Synced σ × Except ConfigError Unit) :=
  match readSettings s.store Setting.all with
  | .error cause => .quiet (s, .error (.refused cause))
  | .ok entries =>
    (s.config.reconfigure (StringMap.ofList entries)).map fun (config, result) =>
      ({ s with config }, result)

end Synced

end JobConfig
