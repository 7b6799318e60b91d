import JobConfig.Json.Fault
import JobConfig.Submission.Fault

/-!
Why an operation on a config is refused.
-/
namespace JobConfig

/-- Why a value has no JSON text. -/
inductive UnsupportedValue where
  /-- A key is neither text nor a number nor a truth value. -/
  | keyNotText
  /-- A key is no number on the line. -/
  | keyNotFinite
deriving DecidableEq, Repr

def UnsupportedValue.message : UnsupportedValue → String
  | .keyNotText => "key must be a string"
  | .keyNotFinite => "float key must be finite (got NaN or +/-inf)"

inductive Reason where
  | notBoolean (text : String)
  | notInteger (text : String) (fault : IntegerFault)
  | unknownLevel (text : String)
  | notObject (fault : Json.Fault)
  | notArray (fault : Json.Fault)
  | parallelismOutOfRange (n : Int)
  | maxParallelismOutOfRange (n bound : Int)
  | maxBelowParallelism (maximum n : Int)
  | negative (n : Int)
  | emptyTypeName
  | unsupported (value : UnsupportedValue)
deriving DecidableEq

def Reason.message : Reason → String
  | .notBoolean text => "expected true or false, got '" ++ text ++ "'"
  | .notInteger text fault => "expected an integer, got '" ++ text ++ "': " ++ fault.message
  | .unknownLevel text =>
    "unknown level '" ++ text ++ "', expected none, top_level or recursive"
  | .notObject fault => "expected a JSON object: " ++ fault.message
  | .notArray fault => "expected a JSON array: " ++ fault.message
  | .parallelismOutOfRange n =>
    "must be at least 1 or one of -1/-2, got " ++ Integer.text n
  | .maxParallelismOutOfRange n bound =>
    "must be in 1..=" ++ Integer.text bound ++ ", got " ++ Integer.text n
  | .maxBelowParallelism maximum n =>
    Integer.text maximum ++ " is lower than parallelism " ++ Integer.text n
  | .negative n => "must be >= 0, got " ++ Integer.text n
  | .emptyTypeName => "type names must not be empty"
  | .unsupported value => "unsupported value: " ++ value.message

inductive ConfigError where
  /-- The value of a setting is refused. -/
  | invalid (key : String) (reason : Reason)
  /-- A settings file holds no mapping of settings. -/
  | malformedFile
  /-- A settings file cannot be opened. -/
  | missingFile
  /-- Bytes are no submission payload. -/
  | malformedPayload (fault : Submission.Fault)
  /-- The runtime refused a setting or could not be read. -/
  | refused (cause : String)
deriving DecidableEq

def ConfigError.message : ConfigError → String
  | .invalid key reason => "invalid configuration for '" ++ key ++ "': " ++ reason.message
  | .malformedFile => "failed to parse settings file:"
  | .missingFile => "failed to read settings file: No such file or directory (os error 2)"
  | .malformedPayload fault => "failed to encode submission payload: " ++ fault.message
  | .refused cause => "settings adapter failed: " ++ cause

end JobConfig
