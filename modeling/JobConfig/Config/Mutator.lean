import JobConfig.Config.Mutation

/-!
The methods that change a config. Each one is a change of a single setting. Most of them put a new
value in place of the old one; only registrations build on what is there.
-/
namespace JobConfig

/-- A method that changes a config, with what is passed to it. -/
inductive Mutator where
  /-- Cleans functions as far as possible. -/
  | enableCleaner
  | disableCleaner
  | setCleanerLevel (level : CleanerLevel)
  | setWatermarkInterval (interval : Int64)
  | setLatencyInterval (interval : Int64)
  | setParallelism (parallelism : Int32)
  | setMaxParallelism (maxParallelism : Int32)
  | setCancellationInterval (interval : Int64)
  | setCancellationTimeout (timeout : Int64)
  | enableForceKryo
  | disableForceKryo
  | enableGenericTypes
  | disableGenericTypes
  | enableAutoUids
  | disableAutoUids
  | enableForceAvro
  | disableForceAvro
  | enableObjectReuse
  | disableObjectReuse
  /-- Takes loosely typed values in place of all job parameters. -/
  | setJobParameters (values : List (String × Json))
  | setSnapshotCompression (compressed : Bool)
  | addDefaultSerializer (typeName serializer : String)
  | registerKryoType (typeName : String)
  | registerPojoType (typeName : String)

namespace Mutator

def change : Mutator → Mutation
  | enableCleaner => .put .cleanerLevel .recursive
  | disableCleaner => .put .cleanerLevel .disabled
  | setCleanerLevel level => .put .cleanerLevel level
  | setWatermarkInterval interval => .put .watermarkInterval interval
  | setLatencyInterval interval => .put .latencyInterval interval
  | setParallelism parallelism => .put .parallelism parallelism
  | setMaxParallelism maxParallelism => .put .maxParallelism maxParallelism
  | setCancellationInterval interval => .put .cancellationInterval interval
  | setCancellationTimeout timeout => .put .cancellationTimeout timeout
  | enableForceKryo => .put .forceKryo true
  | disableForceKryo => .put .forceKryo false
  | enableGenericTypes => .put .genericTypes true
  | disableGenericTypes => .put .genericTypes false
  | enableAutoUids => .put .autoUids true
  | disableAutoUids => .put .autoUids false
  | enableForceAvro => .put .forceAvro true
  | disableForceAvro => .put .forceAvro false
  | enableObjectReuse => .put .objectReuse true
  | disableObjectReuse => .put .objectReuse false
  | setJobParameters values => .put .jobParameters (parametersOf values)
  | setSnapshotCompression compressed => .put .snapshotCompression compressed
  | addDefaultSerializer typeName serializer => .addDefaultSerializer typeName serializer
  | registerKryoType typeName => .registerKryoType typeName
  | registerPojoType typeName => .registerPojoType typeName

def apply (c : Config) (m : Mutator) : Config :=
  m.change.apply c

def applyAll (c : Config) (ms : List Mutator) : Config :=
  Mutation.applyAll c (ms.map change)

@[simp] theorem applyAll_nil (c : Config) : applyAll c [] = c := rfl

@[simp] theorem applyAll_cons (c : Config) (m : Mutator) (ms : List Mutator) :
    applyAll c (m :: ms) = applyAll (m.apply c) ms := rfl

@[simp] theorem applyAll_append (c : Config) (ms ns : List Mutator) :
    applyAll c (ms ++ ns) = applyAll (applyAll c ms) ns := by
  simp [applyAll, Mutation.applyAll]

end Mutator

end JobConfig
