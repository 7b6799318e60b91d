import JobConfig.CleanerLevel
import JobConfig.StringMap

/-!
The settings of a job: their keys, and the kind of value each one takes.
-/
namespace JobConfig

inductive Kind where
  /-- A level of the closure cleaner. -/
  | level
  /-- A span of time in milliseconds. -/
  | interval
  /-- A degree of parallelism. -/
  | parallelism
  | flag
  /-- A map from names to strings. -/
  | table
  /-- A set of names. -/
  | names
deriving DecidableEq, Repr

abbrev Kind.Value : Kind → Type
  | .level => CleanerLevel
  | .interval => Int64
  | .parallelism => Int32
  | .flag => Bool
  | .table => StringMap String
  | .names => StringSet

inductive Setting where
  | cleanerLevel
  | watermarkInterval
  | latencyInterval
  | parallelism
  | maxParallelism
  | cancellationInterval
  | cancellationTimeout
  | forceKryo
  /-- Whether generic types are allowed. -/
  | genericTypes
  | autoUids
  | forceAvro
  | objectReuse
  | jobParameters
  | defaultSerializers
  | kryoTypes
  | pojoTypes
  | snapshotCompression
deriving DecidableEq, Repr

namespace Setting

def kind : Setting → Kind
  | cleanerLevel => .level
  | watermarkInterval | latencyInterval | cancellationInterval | cancellationTimeout => .interval
  | parallelism | maxParallelism => .parallelism
  | forceKryo | genericTypes | autoUids | forceAvro | objectReuse | snapshotCompression => .flag
  | jobParameters | defaultSerializers => .table
  | kryoTypes | pojoTypes => .names

abbrev Value (s : Setting) : Type := s.kind.Value

def key : Setting → String
  | cleanerLevel => "pipeline.closure-cleaner-level"
  | watermarkInterval => "pipeline.auto-watermark-interval"
  | latencyInterval => "metrics.latency.interval"
  | parallelism => "parallelism.default"
  | maxParallelism => "pipeline.max-parallelism"
  | cancellationInterval => "task.cancellation.interval"
  | cancellationTimeout => "task.cancellation.timeout"
  | forceKryo => "pipeline.force-kryo"
  | genericTypes => "pipeline.generic-types"
  | autoUids => "pipeline.auto-generate-uids"
  | forceAvro => "pipeline.force-avro"
  | objectReuse => "pipeline.object-reuse"
  | jobParameters => "pipeline.global-job-parameters"
  | defaultSerializers => "pipeline.default-kryo-serializers"
  | kryoTypes => "pipeline.registered-kryo-types"
  | pojoTypes => "pipeline.registered-pojo-types"
  | snapshotCompression => "execution.checkpointing.snapshot-compression"

/-- All settings, in the order in which a runtime is asked for them. -/
def all : List Setting :=
  [cleanerLevel, watermarkInterval, latencyInterval, parallelism, maxParallelism,
    cancellationInterval, cancellationTimeout, forceKryo, genericTypes, autoUids, forceAvro,
    objectReuse, jobParameters, defaultSerializers, kryoTypes, pojoTypes, snapshotCompression]

theorem mem_all (s : Setting) : s ∈ all := by
  cases s <;> decide

def ofKey? (k : String) : Option Setting :=
  all.find? fun s => s.key = k

@[simp] theorem ofKey?_key (s : Setting) : ofKey? s.key = some s := by
  cases s <;> decide

theorem key_injective {s t : Setting} (h : s.key = t.key) : s = t := by
  have := congrArg ofKey? h
  simpa using this

theorem key_of_ofKey? {k : String} {s : Setting} (h : ofKey? k = some s) : s.key = k := by
  simpa using List.find?_some h

end Setting

end JobConfig
