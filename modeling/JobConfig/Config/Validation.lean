import JobConfig.Config
import JobConfig.Log
import JobConfig.Text.Blank

/-!
What a config must satisfy before its job is submitted.

Each rule concerns one setting; the rules are checked in a fixed order and the first that is
violated is reported under the key of its setting.
-/
namespace JobConfig.Config

/-- Whether a degree of parallelism is an actual number of tasks. -/
def isConcrete (parallelism : Int32) : Bool :=
  1 ≤ parallelism

/-- Parallelism is an actual one or one of the two that stand for none. -/
def checkParallelism (c : Config) : Option Reason :=
  if isConcrete c.parallelism || c.parallelism = defaultParallelism
      || c.parallelism = unknownParallelism then none
  else some (.parallelismOutOfRange c.parallelism.toInt)

/-- Max parallelism is unset, or within its bound and not below an actual parallelism. -/
def checkMaxParallelism (c : Config) : Option Reason :=
  if c.maxParallelism = unsetMaxParallelism then none
  else if c.maxParallelism < 1 ∨ parallelismBound < c.maxParallelism then
    some (.maxParallelismOutOfRange c.maxParallelism.toInt parallelismBound.toInt)
  else if isConcrete c.parallelism ∧ c.maxParallelism < c.parallelism then
    some (.maxBelowParallelism c.maxParallelism.toInt c.parallelism.toInt)
  else none

def checkSpan (n : Int64) : Option Reason :=
  if n < 0 then some (.negative n.toInt) else none

def checkNames (names : List String) : Option Reason :=
  if names.any Text.isBlankText then some .emptyTypeName else none

/-- The rules in the order in which they are checked. -/
def rules : List (Setting × (Config → Option Reason)) :=
  [(.parallelism, checkParallelism),
    (.maxParallelism, checkMaxParallelism),
    (.watermarkInterval, fun c => checkSpan c.watermarkInterval),
    (.cancellationInterval, fun c => checkSpan c.cancellationInterval),
    (.cancellationTimeout, fun c => checkSpan c.cancellationTimeout),
    (.kryoTypes, fun c => checkNames c.serializers.kryoTypes.toList),
    (.pojoTypes, fun c => checkNames c.serializers.pojoTypes.toList),
    (.defaultSerializers, fun c =>
      checkNames (c.serializers.defaults.entries.flatMap fun e => [e.1, e.2]))]

def violation? (c : Config) : Option (Setting × Reason) :=
  rules.findSome? fun rule => (rule.2 c).map fun reason => (rule.1, reason)

def check (c : Config) : Except ConfigError Unit :=
  match c.violation? with
  | none => .ok ()
  | some (s, reason) => .error (.invalid s.key reason)

/-- Checks the config; a rejection is worth a warning. -/
def validate (c : Config) : Traced (Except ConfigError Unit) :=
  match c.check with
  | .ok () => .quiet (.ok ())
  | .error e => ⟨.error e, [.rejected e]⟩

end JobConfig.Config
