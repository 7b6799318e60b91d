import JobConfig.Config
import JobConfig.Json.Record

/-!
The JSON form of a config: a record with its fields in order of declaration. When it is read, fields
may be missing and then have their defaults.
-/
namespace JobConfig

namespace CleanerLevel

def variants : List (String × CleanerLevel) :=
  all.map fun level => (level.name, level)

def readJson : Json.DeepRead CleanerLevel := Json.readVariant variants

def toJson (level : CleanerLevel) : Json := .string level.name

end CleanerLevel

namespace Json

def ofInt64 (n : Int64) : Json :=
  .integer ⟨n.toInt, Int64.le_toInt n, by have := Int64.toInt_lt n; omega⟩

def ofInt32 (n : Int32) : Json :=
  .integer ⟨n.toInt, by have := Int32.le_toInt n; omega, by have := Int32.toInt_lt n; omega⟩

end Json

namespace Serializers

def record : Json.Record Serializers where
  name := "SerializerConfig"
  fields := [
    .of "force_kryo" (fun _ => Json.readBool) fun v s => { s with forceKryo := v },
    .of "generic_types_disabled" (fun _ => Json.readBool)
      fun v s => { s with genericTypesDisabled := v },
    .of "force_avro" (fun _ => Json.readBool) fun v s => { s with forceAvro := v },
    .of "default_kryo_serializer_classes" Json.readStringMap fun v s => { s with defaults := v },
    .of "registered_kryo_types" Json.readStringSet fun v s => { s with kryoTypes := v },
    .of "registered_pojo_types" Json.readStringSet fun v s => { s with pojoTypes := v }]

def readJson : Json.DeepRead Serializers := record.read {}

def toJson (s : Serializers) : Json :=
  .object [
    ("force_kryo", .bool s.forceKryo),
    ("generic_types_disabled", .bool s.genericTypesDisabled),
    ("force_avro", .bool s.forceAvro),
    ("default_kryo_serializer_classes", .ofStringMap s.defaults),
    ("registered_kryo_types", .ofStringSet s.kryoTypes),
    ("registered_pojo_types", .ofStringSet s.pojoTypes)]

def parseJson (text : String) : Except Json.Fault Serializers :=
  Json.readAll (readJson Json.maxDepth) text

end Serializers

namespace Config

def record : Json.Record Config where
  name := "ExecutionConfig"
  fields := [
    .of "closure_cleaner_level" CleanerLevel.readJson fun v c => { c with cleanerLevel := v },
    .of "auto_watermark_interval_ms" (fun _ => Json.readInt64)
      fun v c => { c with watermarkInterval := v },
    .of "latency_tracking_interval_ms" (fun _ => Json.readInt64)
      fun v c => { c with latencyInterval := v },
    .of "parallelism" (fun _ => Json.readInt32) fun v c => { c with parallelism := v },
    .of "max_parallelism" (fun _ => Json.readInt32) fun v c => { c with maxParallelism := v },
    .of "task_cancellation_interval_ms" (fun _ => Json.readInt64)
      fun v c => { c with cancellationInterval := v },
    .of "task_cancellation_timeout_ms" (fun _ => Json.readInt64)
      fun v c => { c with cancellationTimeout := v },
    .of "serializer_config" Serializers.readJson fun v c => { c with serializers := v },
    .of "auto_generated_uids" (fun _ => Json.readBool) fun v c => { c with autoUids := v },
    .of "object_reuse" (fun _ => Json.readBool) fun v c => { c with objectReuse := v },
    .of "global_job_parameters" Json.readStringMap fun v c => { c with jobParameters := v },
    .of "use_snapshot_compression" (fun _ => Json.readBool)
      fun v c => { c with snapshotCompression := v }]

def readJson : Json.DeepRead Config := record.read default

def toJson (c : Config) : Json :=
  .object [
    ("closure_cleaner_level", c.cleanerLevel.toJson),
    ("auto_watermark_interval_ms", .ofInt64 c.watermarkInterval),
    ("latency_tracking_interval_ms", .ofInt64 c.latencyInterval),
    ("parallelism", .ofInt32 c.parallelism),
    ("max_parallelism", .ofInt32 c.maxParallelism),
    ("task_cancellation_interval_ms", .ofInt64 c.cancellationInterval),
    ("task_cancellation_timeout_ms", .ofInt64 c.cancellationTimeout),
    ("serializer_config", c.serializers.toJson),
    ("auto_generated_uids", .bool c.autoUids),
    ("object_reuse", .bool c.objectReuse),
    ("global_job_parameters", .ofStringMap c.jobParameters),
    ("use_snapshot_compression", .bool c.snapshotCompression)]

def parseJson (text : String) : Except Json.Fault Config :=
  Json.readAll (readJson Json.maxDepth) text

end Config

end JobConfig
