import JobConfig.Config.Mutator
import JobConfig.Dynamic.Host
import JobConfig.SettingsFile
import JobConfig.Submission.Payload

/-!
Configs as objects of a dynamically typed language.

A method is called by its name, with arguments by position and by keyword. The arguments are bound
to the parameters first and then read one after the other. A method either reads from them how the
config is to be changed, or it answers a question and leaves the config alone. A call that fails
leaves the config as it is at this point.
-/
namespace JobConfig.Dynamic

inductive Reply where
  /-- The object itself, so that calls can be chained. -/
  | self
  | nothing
  | flag (b : Bool)
  | integer (n : Int)
  | names (l : List String)
  | table (m : StringMap String)
  | bytes (content : List UInt8)
deriving DecidableEq

/-! ### Methods -/

/-- A step on a config. What it has changed stays changed when it fails later. -/
abbrev Step (ε : Type) : Type → Type :=
  ExceptT ε (StateM Config)

def Step.outcome {ε α : Type} (x : Step ε α) (c : Config) : Except ε α × Config :=
  Id.run (x.run.run c)

/-- A method of a config, with the names of its parameters. -/
inductive Method (V ε : Type) where
  /-- Reads a change from the values of the parameters. -/
  | mutator (parameters : List String) (read : List V → Except ε Mutator)
  /-- Answers a question about the config. -/
  | query (parameters : List String) (answer : List V → Config → Except ε Reply)

section

variable {V ε : Type}

namespace Method

def parameters : Method V ε → List String
  | mutator parameters _ => parameters
  | query parameters _ => parameters

def run : Method V ε → List V → Step ε Reply
  | mutator _ read, values => do
    let m ← read values
    modify fun c => m.apply c
    return .self
  | query _ answer, values => do
    answer values (← get)

def ask (f : Config → Reply) : Method V ε :=
  .query [] fun _ c => .ok (f c)

variable [Host V ε]

def change (m : Mutator) : Method V ε :=
  .mutator [] fun
    | [] => .ok m
    | _ => fail V .wrongType

def changeBy {α : Type} (parameter : String) (read : V → Except ε α) (f : α → Mutator) :
    Method V ε :=
  .mutator [parameter] fun
    | [v] => (read v).map f
    | _ => fail V .wrongType

def addDefaultSerializer : Method V ε :=
  .mutator ["type_name", "serializer_name"] fun
    | [t, s] => do return .addDefaultSerializer (← readText t) (← readText s)
    | _ => fail V .wrongType

def validate : Method V ε :=
  .query [] fun _ c =>
    match c.validate.value with
    | .ok () => .ok .nothing
    | .error e => fail V (.refused e)

def encode : Method V ε :=
  .query ["job_name"] fun
    | [v], c => do
      match (Submission.encode (← readText v) c).value with
      | .ok bytes => return .bytes bytes
      | .error e => fail V (.refused e)
    | _, _ => fail V .wrongType

def all : List (String × Method V ε) := [
  ("enable_closure_cleaner", change .enableCleaner),
  ("disable_closure_cleaner", change .disableCleaner),
  ("is_closure_cleaner_enabled", ask fun c => .flag c.isCleanerEnabled),
  ("set_auto_watermark_interval", changeBy "interval" readInt64 .setWatermarkInterval),
  ("get_auto_watermark_interval", ask fun c => .integer c.watermarkInterval.toInt),
  ("set_latency_tracking_interval", changeBy "interval" readInt64 .setLatencyInterval),
  ("get_latency_tracking_interval", ask fun c => .integer c.latencyInterval.toInt),
  ("set_parallelism", changeBy "parallelism" readInt32 .setParallelism),
  ("get_parallelism", ask fun c => .integer c.parallelism.toInt),
  ("set_max_parallelism", changeBy "max_parallelism" readInt32 .setMaxParallelism),
  ("get_max_parallelism", ask fun c => .integer c.maxParallelism.toInt),
  ("set_task_cancellation_interval", changeBy "interval" readInt64 .setCancellationInterval),
  ("get_task_cancellation_interval", ask fun c => .integer c.cancellationInterval.toInt),
  ("set_task_cancellation_timeout", changeBy "timeout" readInt64 .setCancellationTimeout),
  ("get_task_cancellation_timeout", ask fun c => .integer c.cancellationTimeout.toInt),
  ("enable_force_kryo", change .enableForceKryo),
  ("disable_force_kryo", change .disableForceKryo),
  ("is_force_kryo_enabled", ask fun c => .flag c.serializers.forceKryo),
  ("enable_generic_types", change .enableGenericTypes),
  ("disable_generic_types", change .disableGenericTypes),
  ("has_generic_types_disabled", ask fun c => .flag c.serializers.genericTypesDisabled),
  ("enable_auto_generated_uids", change .enableAutoUids),
  ("disable_auto_generated_uids", change .disableAutoUids),
  ("has_auto_generated_uids_enabled", ask fun c => .flag c.autoUids),
  ("enable_force_avro", change .enableForceAvro),
  ("disable_force_avro", change .disableForceAvro),
  ("is_force_avro_enabled", ask fun c => .flag c.serializers.forceAvro),
  ("enable_object_reuse", change .enableObjectReuse),
  ("disable_object_reuse", change .disableObjectReuse),
  ("is_object_reuse_enabled", ask fun c => .flag c.objectReuse),
  ("get_global_job_parameters", ask fun c => .table c.jobParameters),
  ("set_global_job_parameters",
    changeBy "global_job_parameters" readParameters .setJobParameters),
  ("register_kryo_type", changeBy "type_name" readText .registerKryoType),
  ("register_pojo_type", changeBy "type_name" readText .registerPojoType),
  ("add_default_kryo_serializer", addDefaultSerializer),
  ("get_default_kryo_serializer_classes", ask fun c => .table c.serializers.defaults),
  ("get_registered_kryo_types", ask fun c => .names c.serializers.kryoTypes.toList),
  ("get_registered_pojo_types", ask fun c => .names c.serializers.pojoTypes.toList),
  ("is_use_snapshot_compression", ask fun c => .flag c.snapshotCompression),
  ("set_use_snapshot_compression",
    changeBy "use_snapshot_compression" Host.truth .setSnapshotCompression),
  ("to_settings", ask fun c => .table c.toSettings),
  ("validate", validate),
  ("to_submission_bytes", encode)]

end Method

def classAttribute (name : String) : Except CallError Int :=
  if name = "PARALLELISM_DEFAULT" then .ok defaultParallelism.toInt
  else if name = "PARALLELISM_UNKNOWN" then .ok unknownParallelism.toInt
  else .error .unknownName

variable [Host V ε]

def callMethod (name : String) (arguments : List V) (keywords : List (String × V)) :
    Step ε Reply :=
  match Method.all.lookup name with
  | none =>
    -- An attribute of the class is an integer, which cannot be called.
    match classAttribute name with
    | .ok _ => liftM (fail V .wrongType)
    | .error e => liftM (fail V e)
  | some method => do
    let values ← bindArguments method.parameters arguments keywords
    method.run values

end

/-- Whether a config equals a value, which is no config: never. -/
def equalsValue (_ : Config) (_ : Value) : Bool := false

/-- Whether a config comes before another one: configs have no order. -/
def isBefore (_ _ : Config) : Except CallError Bool := .error .wrongType

def represent (c : Config) : String := c.display

/-! ### Objects -/

abbrev Objects := StringMap Config

namespace Objects

def start (names : List String) : Objects := StringMap.ofList (names.map fun n => (n, .default))

def call {V ε : Type} [Host V ε] (objects : Objects) (object name : String) (arguments : List V)
    (keywords : List (String × V)) : Objects × Except ε Reply :=
  match objects.get? object with
  | none => (objects, fail V .unknownObject)
  | some c =>
    let (reply, c) := (callMethod name arguments keywords).outcome c
    (objects.insert object c, reply)

/-- Makes a new object; the constructor takes no arguments. -/
def create (objects : Objects) (object : String) (arguments : List Value) :
    Except CallError Objects :=
  if arguments.isEmpty then .ok (objects.insert object .default) else .error .wrongType

def load (objects : Objects) (object : String) (file : SettingsFile) : Except CallError Objects :=
  match (Config.fromFile file).value with
  | .ok c => .ok (objects.insert object c)
  | .error e => .error (.refused e)

end Objects

end JobConfig.Dynamic
