import JobConfig.Config.Mutator
import JobConfig.Proofs.Overlay

/-!
Calls of mutators in any mixture. A call that is aimed at another setting can be
left out when one setting is looked at (`get_applyAll_aimedAt`); so each setting
follows its own calls alone, and calls of different settings may be interleaved
in any way. What the last call for a setting was passed is there in the end
(`Mutator.ShownIn`); registrations add up.
-/

namespace JobConfig

/-- The value under a key stands for the last member with this key. -/
theorem get?_parametersOf_eq_some_iff (members : List (String × Json)) (k t : String) :
    (parametersOf members).get? k = some t ↔
      ∃ before v after, members = before ++ (k, v) :: after ∧ (∀ m ∈ after, m.1 ≠ k) ∧
        v.parameterText = t := by
  rw [parametersOf, StringMap.ofList_map_values, StringMap.get?_mapValues, Option.map_eq_some_iff]
  simp only [StringMap.get?_ofList_eq_some_iff_last]
  constructor
  · rintro ⟨v, ⟨before, after, rfl, hafter⟩, rfl⟩
    exact ⟨before, v, after, rfl, hafter, rfl⟩
  · rintro ⟨before, v, after, rfl, hafter, rfl⟩
    exact ⟨v, ⟨before, after, rfl, hafter⟩, rfl⟩

/-! ### One change -/

namespace Mutation

/-- What a change makes of a setting depends on that setting alone. -/
theorem get_apply_congr {b c : Config} {s : Setting} (h : b.get s = c.get s) (m : Mutation) :
    (m.apply b).get s = (m.apply c).get s := by
  by_cases hs : s = m.target
  · subst hs
    cases m with
    | put s v => exact (b.get_set_self s v).trans (c.get_set_self s v).symm
    | addDefaultSerializer typeName serializer =>
      exact congrArg (StringMap.insert · typeName serializer) h
    | registerKryoType typeName => exact congrArg (StringSet.add · typeName) h
    | registerPojoType typeName => exact congrArg (StringSet.add · typeName) h
  · rw [get_apply_of_ne b m hs, get_apply_of_ne c m hs, h]

end Mutation

namespace Mutator

/-! ### One call -/

def target : Mutator → Setting
  | enableCleaner | disableCleaner | setCleanerLevel _ => .cleanerLevel
  | setWatermarkInterval _ => .watermarkInterval
  | setLatencyInterval _ => .latencyInterval
  | setParallelism _ => .parallelism
  | setMaxParallelism _ => .maxParallelism
  | setCancellationInterval _ => .cancellationInterval
  | setCancellationTimeout _ => .cancellationTimeout
  | enableForceKryo | disableForceKryo => .forceKryo
  | enableGenericTypes | disableGenericTypes => .genericTypes
  | enableAutoUids | disableAutoUids => .autoUids
  | enableForceAvro | disableForceAvro => .forceAvro
  | enableObjectReuse | disableObjectReuse => .objectReuse
  | setJobParameters _ => .jobParameters
  | setSnapshotCompression _ => .snapshotCompression
  | addDefaultSerializer _ _ => .defaultSerializers
  | registerKryoType _ => .kryoTypes
  | registerPojoType _ => .pojoTypes

@[simp] theorem target_change (m : Mutator) : m.change.target = m.target := by
  cases m <;> rfl

/-- A call changes no setting but the one that it is aimed at. -/
theorem get_apply_of_ne (c : Config) (m : Mutator) {s : Setting} (h : s ≠ m.target) :
    (m.apply c).get s = c.get s :=
  Mutation.get_apply_of_ne c m.change (by simpa using h)

/-- What was passed to a call is found in the config, in the field for it. -/
def ShownIn (c : Config) : Mutator → Prop
  | enableCleaner => c.cleanerLevel = .recursive
  | disableCleaner => c.cleanerLevel = .disabled
  | setCleanerLevel level => c.cleanerLevel = level
  | setWatermarkInterval interval => c.watermarkInterval = interval
  | setLatencyInterval interval => c.latencyInterval = interval
  | setParallelism parallelism => c.parallelism = parallelism
  | setMaxParallelism maxParallelism => c.maxParallelism = maxParallelism
  | setCancellationInterval interval => c.cancellationInterval = interval
  | setCancellationTimeout timeout => c.cancellationTimeout = timeout
  | enableForceKryo => c.serializers.forceKryo = true
  | disableForceKryo => c.serializers.forceKryo = false
  | enableGenericTypes => c.serializers.genericTypesDisabled = false
  | disableGenericTypes => c.serializers.genericTypesDisabled = true
  | enableAutoUids => c.autoUids = true
  | disableAutoUids => c.autoUids = false
  | enableForceAvro => c.serializers.forceAvro = true
  | disableForceAvro => c.serializers.forceAvro = false
  | enableObjectReuse => c.objectReuse = true
  | disableObjectReuse => c.objectReuse = false
  | setJobParameters values => ∀ k t, c.jobParameters.get? k = some t ↔
      ∃ before v after, values = before ++ (k, v) :: after ∧ (∀ e ∈ after, e.1 ≠ k) ∧
        v.parameterText = t
  | setSnapshotCompression compressed => c.snapshotCompression = compressed
  | addDefaultSerializer typeName serializer =>
      c.serializers.defaults.get? typeName = some serializer
  | registerKryoType typeName => typeName ∈ c.serializers.kryoTypes.toList
  | registerPojoType typeName => typeName ∈ c.serializers.pojoTypes.toList

theorem shownIn_apply (c : Config) (m : Mutator) : ShownIn (m.apply c) m := by
  cases m
  case setJobParameters values => exact get?_parametersOf_eq_some_iff values
  case addDefaultSerializer typeName serializer =>
    show (c.serializers.defaults.insert typeName serializer).get? typeName = some serializer
    rw [StringMap.get?_insert, if_pos rfl]
  case registerKryoType | registerPojoType =>
    exact (StringSet.mem_toList_add_iff _ _ _).2 (.inl rfl)
  all_goals rfl

/-- Where a call is shown is the setting that it is aimed at. -/
theorem ShownIn.congr {b c : Config} {m : Mutator} (hshown : ShownIn b m)
    (h : b.get m.target = c.get m.target) : ShownIn c m := by
  cases m <;> simp only [ShownIn, target, Config.get] at h hshown ⊢
  case enableGenericTypes | disableGenericTypes => rwa [← Bool.not_inj h]
  all_goals rwa [← h]

/-- `register` adds names to the set that `types` shows, and no other mutator
changes this set. -/
structure Registers (types : Config → StringSet) (register : String → Mutator) : Prop where
  injective : ∀ {x y : String}, register x = register y → x = y
  adds : ∀ (c : Config) (x : String), types ((register x).apply c) = (types c).add x
  others : ∀ (c : Config) (m : Mutator), (∀ x, m ≠ register x) → types (m.apply c) = types c

theorem registers_kryoTypes : Registers (·.serializers.kryoTypes) registerKryoType where
  injective := registerKryoType.inj
  adds _ _ := rfl
  others c m h := by cases m <;> first | rfl | exact absurd rfl (h _)

theorem registers_pojoTypes : Registers (·.serializers.pojoTypes) registerPojoType where
  injective := registerPojoType.inj
  adds _ _ := rfl
  others c m h := by cases m <;> first | rfl | exact absurd rfl (h _)

def serializerFor? (typeName : String) : Mutator → Option String
  | addDefaultSerializer name serializer => if typeName = name then some serializer else none
  | _ => none

theorem get?_defaults_apply (c : Config) (m : Mutator) (typeName : String) :
    (m.apply c).serializers.defaults.get? typeName =
      (m.serializerFor? typeName).or (c.serializers.defaults.get? typeName) := by
  cases m
  case addDefaultSerializer name serializer =>
    show (c.serializers.defaults.insert name serializer).get? typeName = _
    rw [StringMap.get?_insert, serializerFor?]
    split <;> rfl
  all_goals rfl

/-! ### Calls in sequence -/

def aimedAt (s : Setting) (ms : List Mutator) : List Mutator :=
  ms.filter fun m => m.target = s

/-- A setting follows the calls that are aimed at it, from its own value on. -/
theorem get_applyAll_aimedAt {b c : Config} {s : Setting} (h : b.get s = c.get s)
    (ms : List Mutator) : (applyAll b ms).get s = (applyAll c (aimedAt s ms)).get s := by
  induction ms generalizing b c with
  | nil => exact h
  | cons m ms ih =>
    by_cases hm : m.target = s
    · rw [aimedAt, List.filter_cons_of_pos (by simpa using hm)]
      exact ih (Mutation.get_apply_congr h m.change)
    · rw [aimedAt, List.filter_cons_of_neg (by simpa using hm)]
      exact ih ((get_apply_of_ne b m (Ne.symm hm)).trans h)

theorem get_applyAll_congr {b c : Config} {s : Setting} {ms ns : List Mutator}
    (h : b.get s = c.get s) (haimed : aimedAt s ms = aimedAt s ns) :
    (applyAll b ms).get s = (applyAll c ns).get s := by
  rw [get_applyAll_aimedAt h, haimed, ← get_applyAll_aimedAt rfl]

/-- What was passed to the last call for a setting is there in the end. -/
theorem shownIn_applyAll {s : Setting} {ms : List Mutator} {m : Mutator}
    (hlast : (aimedAt s ms).getLast? = some m) (c : Config) : ShownIn (applyAll c ms) m := by
  obtain ⟨earlier, hearlier⟩ := List.getLast?_eq_some_iff.1 hlast
  have hmem : m ∈ aimedAt s ms := by simp [hearlier]
  obtain rfl : m.target = s := by simpa using (List.mem_filter.1 hmem).2
  refine (shownIn_apply (applyAll c earlier) m).congr ?_
  rw [get_applyAll_aimedAt (s := m.target) rfl ms, hearlier, applyAll_append]
  rfl

namespace Registers

variable {types : Config → StringSet} {register : String → Mutator}

theorem mem_apply_iff (h : Registers types register) (c : Config) (m : Mutator) (x : String) :
    x ∈ (types (m.apply c)).toList ↔ x ∈ (types c).toList ∨ register x = m := by
  by_cases hm : ∃ y, m = register y
  · obtain ⟨y, rfl⟩ := hm
    have hname : register x = register y ↔ x = y := ⟨h.injective, congrArg register⟩
    rw [h.adds, StringSet.mem_toList_add_iff, hname, or_comm]
  · have hne : register x ≠ m := fun hx => hm ⟨x, hx.symm⟩
    rw [h.others c m fun y hy => hm ⟨y, hy⟩]
    simp [hne]

/-- Whatever was registered is there in the end, beside what was there before. -/
theorem mem_applyAll_iff (h : Registers types register) (c : Config) (ms : List Mutator)
    (x : String) :
    x ∈ (types (applyAll c ms)).toList ↔ x ∈ (types c).toList ∨ register x ∈ ms := by
  induction ms generalizing c with
  | nil => simp
  | cons m ms ih => simp [ih, h.mem_apply_iff, or_assoc]

end Registers

theorem get?_defaults_applyAll (c : Config) (ms : List Mutator) (typeName : String) :
    (applyAll c ms).serializers.defaults.get? typeName =
      (ms.reverse.findSome? (serializerFor? typeName)).or
        (c.serializers.defaults.get? typeName) := by
  induction ms generalizing c with
  | nil => simp
  | cons m ms ih => simp [ih, get?_defaults_apply, List.findSome?_append, Option.or_assoc]

/-- Each setting follows its own calls, whatever stands between them. What the last
call for a setting was passed is there in the end, which settles a value that is
replaced; registered types are those of the start and all that were registered; a
type has the serializer that was last registered for it. So calls may change places
as long as those of one setting keep their order. -/
theorem settings_follow_own_calls (c : Config) (ms : List Mutator) :
    (∀ (b : Config) (ns : List Mutator) (s : Setting), b.settingText s = c.settingText s →
        aimedAt s ns = aimedAt s ms →
          (applyAll b ns).settingText s = (applyAll c ms).settingText s) ∧
      (∀ s m, (aimedAt s ms).getLast? = some m → ShownIn (applyAll c ms) m) ∧
      (∀ x, x ∈ (applyAll c ms).serializers.kryoTypes.toList ↔
        x ∈ c.serializers.kryoTypes.toList ∨ registerKryoType x ∈ ms) ∧
      (∀ x, x ∈ (applyAll c ms).serializers.pojoTypes.toList ↔
        x ∈ c.serializers.pojoTypes.toList ∨ registerPojoType x ∈ ms) ∧
      (∀ typeName, (applyAll c ms).serializers.defaults.get? typeName =
        (ms.reverse.findSome? (serializerFor? typeName)).or
          (c.serializers.defaults.get? typeName)) ∧
      ∀ ns, (∀ s, aimedAt s ns = aimedAt s ms) → applyAll c ns = applyAll c ms := by
  refine ⟨?_, fun _ _ hlast => shownIn_applyAll hlast c, registers_kryoTypes.mem_applyAll_iff c ms,
    registers_pojoTypes.mem_applyAll_iff c ms, get?_defaults_applyAll c ms, ?_⟩
  · intro b ns s hstart haimed
    exact Config.settingText_inj.2 (get_applyAll_congr (Config.settingText_inj.1 hstart) haimed)
  · intro ns haimed
    exact Config.ext_get fun s => get_applyAll_congr rfl (haimed s)

end Mutator

end JobConfig
