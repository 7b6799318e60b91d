import JobConfig.StringMap

/-!
Stores of settings on the side of a runtime.

A store applies and reads single settings and may fail at either, with a cause in words. The store
in memory accepts everything; a gate in front of a store refuses, hides and withholds by its rules.
-/
namespace JobConfig

/-- A store of settings that a runtime keeps. -/
class SettingsStore (σ : Type) where
  /-- Asks the store to take a setting; a refusal comes with its cause. -/
  apply : σ → (key value : String) → σ × Except String Unit
  /-- Asks the store for a setting, which it may not have. -/
  read : σ → (key : String) → Except String (Option String)

/-- Settings kept in memory, with the settings applied so far, the first one first. -/
structure MemoryStore where
  settings : StringMap String := StringMap.empty
  journal : List (String × String) := []
deriving DecidableEq, Inhabited

namespace MemoryStore

def appliedCount (s : MemoryStore) : Nat :=
  s.journal.length

def overwrite (s : MemoryStore) (key value : String) : MemoryStore :=
  { s with settings := s.settings.insert key value }

instance : SettingsStore MemoryStore where
  apply s key value :=
    ({ settings := s.settings.insert key value, journal := s.journal ++ [(key, value)] }, .ok ())
  read s key := .ok (s.settings.get? key)

end MemoryStore

structure GateRules where
  /-- How many more settings may be applied, if there is a limit. -/
  accept : Option Nat := none
  /-- Keys that are refused. -/
  reject : List String := []
  /-- Keys that look absent. -/
  hide : List String := []
  /-- Keys that cannot be read. -/
  unreadable : List String := []
deriving DecidableEq, Inhabited

/-- A store behind a gate. -/
structure Gated (σ : Type) where
  rules : GateRules
  store : σ

namespace Gated

variable {σ : Type} [SettingsStore σ]

instance : SettingsStore (Gated σ) where
  apply s key value :=
    if s.rules.reject.contains key then (s, .error ("runtime rejected " ++ key))
    else if s.rules.accept = some 0 then (s, .error ("runtime full at " ++ key))
    else
      let (store, result) := SettingsStore.apply s.store key value
      (⟨{ s.rules with accept := s.rules.accept.map (· - 1) }, store⟩, result)
  read s key :=
    if s.rules.unreadable.contains key then .error ("runtime cannot read " ++ key)
    else if s.rules.hide.contains key then .ok none
    else SettingsStore.read s.store key

end Gated

end JobConfig
