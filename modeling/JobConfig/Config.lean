import JobConfig.Setting

/-!
The execution config of a job: plain data, one value per setting.

A setting is read by `Config.get` and written by `Config.set`; neither checks anything. A config is
determined by the values of its settings (`Config.ext_get`).
-/
namespace JobConfig

/-- How records are serialized. -/
structure Serializers where
  forceKryo : Bool := false
  genericTypesDisabled : Bool := false
  forceAvro : Bool := false
  /-- The serializer of each type that has one of its own. -/
  defaults : StringMap String := StringMap.empty
  kryoTypes : StringSet := StringMap.empty
  pojoTypes : StringSet := StringMap.empty
deriving DecidableEq, Hashable, Inhabited

namespace Serializers

/-- Registers a serializer for a type, in place of the one it had. -/
def addDefault (s : Serializers) (typeName serializer : String) : Serializers :=
  { s with defaults := s.defaults.insert typeName serializer }

def registerKryo (s : Serializers) (typeName : String) : Serializers :=
  { s with kryoTypes := s.kryoTypes.add typeName }

def registerPojo (s : Serializers) (typeName : String) : Serializers :=
  { s with pojoTypes := s.pojoTypes.add typeName }

end Serializers

/-- The parallelism that leaves the choice to the environment. -/
def defaultParallelism : Int32 := -1

/-- The parallelism that leaves the present one unchanged. -/
def unknownParallelism : Int32 := -2

/-- The largest degree of parallelism that a job may ask for. -/
def parallelismBound : Int32 := 32768

/-- The max parallelism of a job that asks for none. -/
def unsetMaxParallelism : Int32 := -1

/-- The execution config of a job. -/
structure Config where
  cleanerLevel : CleanerLevel := .recursive
  watermarkInterval : Int64 := 200
  latencyInterval : Int64 := 0
  parallelism : Int32 := defaultParallelism
  maxParallelism : Int32 := unsetMaxParallelism
  cancellationInterval : Int64 := 30000
  cancellationTimeout : Int64 := 180000
  serializers : Serializers := {}
  autoUids : Bool := true
  objectReuse : Bool := false
  jobParameters : StringMap String := StringMap.empty
  snapshotCompression : Bool := false
deriving DecidableEq, Hashable

namespace Config

def default : Config := {}

instance : Inhabited Config := ⟨default⟩

def isCleanerEnabled (c : Config) : Bool :=
  c.cleanerLevel != .disabled

def isLatencyTracked (c : Config) : Bool :=
  0 < c.latencyInterval

def get (c : Config) : (s : Setting) → s.Value
  | .cleanerLevel => c.cleanerLevel
  | .watermarkInterval => c.watermarkInterval
  | .latencyInterval => c.latencyInterval
  | .parallelism => c.parallelism
  | .maxParallelism => c.maxParallelism
  | .cancellationInterval => c.cancellationInterval
  | .cancellationTimeout => c.cancellationTimeout
  | .forceKryo => c.serializers.forceKryo
  | .genericTypes => !c.serializers.genericTypesDisabled
  | .autoUids => c.autoUids
  | .forceAvro => c.serializers.forceAvro
  | .objectReuse => c.objectReuse
  | .jobParameters => c.jobParameters
  | .defaultSerializers => c.serializers.defaults
  | .kryoTypes => c.serializers.kryoTypes
  | .pojoTypes => c.serializers.pojoTypes
  | .snapshotCompression => c.snapshotCompression

def set (c : Config) : (s : Setting) → s.Value → Config
  | .cleanerLevel, v => { c with cleanerLevel := v }
  | .watermarkInterval, v => { c with watermarkInterval := v }
  | .latencyInterval, v => { c with latencyInterval := v }
  | .parallelism, v => { c with parallelism := v }
  | .maxParallelism, v => { c with maxParallelism := v }
  | .cancellationInterval, v => { c with cancellationInterval := v }
  | .cancellationTimeout, v => { c with cancellationTimeout := v }
  | .forceKryo, v => { c with serializers := { c.serializers with forceKryo := v } }
  | .genericTypes, v => { c with serializers := { c.serializers with genericTypesDisabled := !v } }
  | .autoUids, v => { c with autoUids := v }
  | .forceAvro, v => { c with serializers := { c.serializers with forceAvro := v } }
  | .objectReuse, v => { c with objectReuse := v }
  | .jobParameters, v => { c with jobParameters := v }
  | .defaultSerializers, v => { c with serializers := { c.serializers with defaults := v } }
  | .kryoTypes, v => { c with serializers := { c.serializers with kryoTypes := v } }
  | .pojoTypes, v => { c with serializers := { c.serializers with pojoTypes := v } }
  | .snapshotCompression, v => { c with snapshotCompression := v }

theorem get_set_self (c : Config) (s : Setting) (v : s.Value) : (c.set s v).get s = v := by
  cases s <;> first | rfl | exact Bool.not_not v

theorem get_set_of_ne (c : Config) {s t : Setting} (v : s.Value) (h : t ≠ s) :
    (c.set s v).get t = c.get t := by
  cases s <;> cases t <;> first | exact absurd rfl h | rfl

theorem ext_get {a b : Config} (h : ∀ s, a.get s = b.get s) : a = b := by
  have hgeneric : a.serializers.genericTypesDisabled = b.serializers.genericTypesDisabled :=
    Bool.not_inj (h .genericTypes)
  have hfields := fun s (_ : s ∈ Setting.all) => h s
  simp only [Setting.all, List.forall_mem_cons, get] at hfields
  obtain ⟨_, _, _, _, _, _, _, ⟨_, _, _, _, _, _⟩, _, _, _, _⟩ := a
  obtain ⟨_, _, _, _, _, _, _, ⟨_, _, _, _, _, _⟩, _, _, _, _⟩ := b
  simp_all

/-- Nothing but the value of one setting tells the new config from the old one. -/
theorem eq_set_iff {c next : Config} {s : Setting} {v : s.Value} :
    next = c.set s v ↔ next.get s = v ∧ ∀ t, t ≠ s → next.get t = c.get t := by
  constructor
  · rintro rfl
    exact ⟨c.get_set_self s v, fun t ht => c.get_set_of_ne v ht⟩
  · rintro ⟨hvalue, hothers⟩
    refine ext_get fun t => ?_
    by_cases ht : t = s
    · subst ht
      rw [hvalue, c.get_set_self]
    · rw [hothers t ht, c.get_set_of_ne v ht]

theorem set_get (c : Config) (s : Setting) : c.set s (c.get s) = c :=
  (eq_set_iff.2 ⟨rfl, fun _ _ => rfl⟩).symm

end Config

end JobConfig
