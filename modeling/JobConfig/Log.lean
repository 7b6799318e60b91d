import JobConfig.Error

/-!
Log events, and results that carry the events emitted on the way.
-/
namespace JobConfig

inductive LogLevel where
  | debug
  | warn
deriving DecidableEq, Repr

/-- What is worth a line in the log. -/
inductive Event where
  | ignored (key : String)
  | applied (key value : String)
  | loaded (count : Nat) (path : String)
  | rejected (error : ConfigError)
  | encoded (jobName : String) (size : Nat)
  /-- Every setting of a config was pushed to a store. -/
  | pushedAll
  | forwarding (key value : String)
deriving DecidableEq

namespace Event

def level : Event → LogLevel
  | ignored _ | rejected _ => .warn
  | _ => .debug

def message : Event → String
  | ignored key => "Ignoring unknown execution config key '" ++ key ++ "'"
  | applied key value => "Applied execution config setting " ++ key ++ "=" ++ value
  | loaded count path =>
    "Loaded " ++ toString count ++ " execution config settings from " ++ path
  | rejected error => "Rejected execution config: " ++ error.message
  | encoded jobName size =>
    "Encoded submission payload for job '" ++ jobName ++ "' (" ++ toString size ++ " bytes)"
  | pushedAll => "Mirrored full execution config to runtime"
  | forwarding key value => "Forwarding execution config setting " ++ key ++ "=" ++ value

end Event

/-- A value with the events emitted while it was computed. -/
structure Traced (α : Type) where
  value : α
  events : List Event

namespace Traced

variable {α β : Type}

def quiet (x : α) : Traced α := ⟨x, []⟩

/-- Goes on with a value; the events follow those emitted before. -/
def andThen (x : Traced α) (f : α → Traced β) : Traced β :=
  let y := f x.value
  ⟨y.value, x.events ++ y.events⟩

def map (f : α → β) (x : Traced α) : Traced β :=
  ⟨f x.value, x.events⟩

/-- Goes on with a result; an error ends the computation and keeps the events. -/
def andThenOk (x : Traced (Except ConfigError α)) (f : α → Traced (Except ConfigError β)) :
    Traced (Except ConfigError β) :=
  x.andThen fun
    | .error e => quiet (.error e)
    | .ok a => f a

@[simp] theorem value_quiet (x : α) : (quiet x).value = x := rfl

@[simp] theorem events_quiet (x : α) : (quiet x).events = [] := rfl

@[simp] theorem value_andThen (x : Traced α) (f : α → Traced β) :
    (x.andThen f).value = (f x.value).value := rfl

@[simp] theorem events_andThen (x : Traced α) (f : α → Traced β) :
    (x.andThen f).events = x.events ++ (f x.value).events := rfl

@[simp] theorem value_map (f : α → β) (x : Traced α) : (x.map f).value = f x.value := rfl

end Traced

end JobConfig
