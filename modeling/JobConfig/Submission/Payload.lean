import JobConfig.Config.Json
import JobConfig.Config.Validation
import JobConfig.Submission.Wire

/-!
What the runtime receives about the execution of a job: its name and its config, as bytes or as
JSON.

Only a valid config is encoded; decoding checks nothing but the form, and ignores what follows the
payload.
-/
namespace JobConfig.Submission

structure Payload where
  jobName : String
  config : Config
deriving DecidableEq

def encodeSerializers (s : Serializers) : List UInt8 :=
  encodeFlag s.forceKryo ++ encodeFlag s.genericTypesDisabled ++ encodeFlag s.forceAvro ++
    encodeMap s.defaults ++ encodeSet s.kryoTypes ++ encodeSet s.pojoTypes

def decodeSerializers : Decoder Serializers := do
  let forceKryo ← decodeFlag
  let genericTypesDisabled ← decodeFlag
  let forceAvro ← decodeFlag
  let defaults ← decodeMap
  let kryoTypes ← decodeSet
  let pojoTypes ← decodeSet
  return ⟨forceKryo, genericTypesDisabled, forceAvro, defaults, kryoTypes, pojoTypes⟩

def encodeConfig (c : Config) : List UInt8 :=
  encodeLevel c.cleanerLevel ++ encodeInt64 c.watermarkInterval ++ encodeInt64 c.latencyInterval ++
    encodeInt32 c.parallelism ++ encodeInt32 c.maxParallelism ++
    encodeInt64 c.cancellationInterval ++ encodeInt64 c.cancellationTimeout ++
    encodeSerializers c.serializers ++ encodeFlag c.autoUids ++ encodeFlag c.objectReuse ++
    encodeMap c.jobParameters ++ encodeFlag c.snapshotCompression

def decodeConfig : Decoder Config := do
  let cleanerLevel ← decodeLevel
  let watermarkInterval ← decodeInt64
  let latencyInterval ← decodeInt64
  let parallelism ← decodeInt32
  let maxParallelism ← decodeInt32
  let cancellationInterval ← decodeInt64
  let cancellationTimeout ← decodeInt64
  let serializers ← decodeSerializers
  let autoUids ← decodeFlag
  let objectReuse ← decodeFlag
  let jobParameters ← decodeMap
  let snapshotCompression ← decodeFlag
  return { cleanerLevel, watermarkInterval, latencyInterval, parallelism, maxParallelism,
           cancellationInterval, cancellationTimeout, serializers, autoUids, objectReuse,
           jobParameters, snapshotCompression }

namespace Payload

def toBytes (p : Payload) : List UInt8 :=
  encodeText p.jobName ++ encodeConfig p.config

def decoder : Decoder Payload := do
  let jobName ← decodeText
  let config ← decodeConfig
  return ⟨jobName, config⟩

def toJson (p : Payload) : Json :=
  .object [("job_name", .string p.jobName), ("execution_config", p.config.toJson)]

def record : Json.Record Payload where
  name := "SubmissionPayload"
  fields := [
    { Json.Field.of "job_name" (fun _ => Json.readText) fun v p => { p with jobName := v } with
      required := true },
    { Json.Field.of "execution_config" Config.readJson fun v p => { p with config := v } with
      required := true }]

def parseJson (text : String) : Except Json.Fault Payload :=
  Json.readAll (record.read ⟨"", .default⟩ Json.maxDepth) text

end Payload

/-- Checks a config and encodes it together with the name of its job. -/
def encode (jobName : String) (c : Config) : Traced (Except ConfigError (List UInt8)) :=
  c.validate.andThenOk fun () =>
    let bytes := (Payload.mk jobName c).toBytes
    ⟨.ok bytes, [.encoded jobName bytes.length]⟩

/-- Decodes the payload at the front of the bytes. -/
def decode (bytes : List UInt8) : Except ConfigError Payload :=
  match Payload.decoder bytes with
  | .ok (p, _) => .ok p
  | .error fault => .error (.malformedPayload fault)

end JobConfig.Submission
