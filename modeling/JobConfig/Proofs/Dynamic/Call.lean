import JobConfig.Dynamic.Object
import JobConfig.Proofs.Except
import JobConfig.Proofs.StringMap
import JobConfig.Proofs.Utf8.Canonical
import Mathlib.Data.List.Forall2

/-!
What a call of a method asks of a config. It is said from the side of the mutators:
each one has a name, parameters, and data that the values of the parameters must
stand for (`Asks`). The table of the methods carries out exactly this. A call that
asks for a mutator succeeds and applies it; any other call of a method with the name
of a mutator raises; and the remaining methods leave the config alone. What raises
does so while arguments are read or a question is answered, before any change.
-/

namespace JobConfig

inductive Datum where
  | integer (n : Int)
  | flag (b : Bool)
  | text (s : String)
  | table (values : List (String × Json))

/-- The name of the method for a mutator, and what is passed to it by parameter.
There is none for the level of cleaning, which is only switched on and off. -/
def Mutator.call? : Mutator → Option (String × List (String × Datum))
  | enableCleaner => some ("enable_closure_cleaner", [])
  | disableCleaner => some ("disable_closure_cleaner", [])
  | setCleanerLevel _ => none
  | setWatermarkInterval n =>
    some ("set_auto_watermark_interval", [("interval", .integer n.toInt)])
  | setLatencyInterval n =>
    some ("set_latency_tracking_interval", [("interval", .integer n.toInt)])
  | setParallelism n => some ("set_parallelism", [("parallelism", .integer n.toInt)])
  | setMaxParallelism n => some ("set_max_parallelism", [("max_parallelism", .integer n.toInt)])
  | setCancellationInterval n =>
    some ("set_task_cancellation_interval", [("interval", .integer n.toInt)])
  | setCancellationTimeout n =>
    some ("set_task_cancellation_timeout", [("timeout", .integer n.toInt)])
  | enableForceKryo => some ("enable_force_kryo", [])
  | disableForceKryo => some ("disable_force_kryo", [])
  | enableGenericTypes => some ("enable_generic_types", [])
  | disableGenericTypes => some ("disable_generic_types", [])
  | enableAutoUids => some ("enable_auto_generated_uids", [])
  | disableAutoUids => some ("disable_auto_generated_uids", [])
  | enableForceAvro => some ("enable_force_avro", [])
  | disableForceAvro => some ("disable_force_avro", [])
  | enableObjectReuse => some ("enable_object_reuse", [])
  | disableObjectReuse => some ("disable_object_reuse", [])
  | setJobParameters values =>
    some ("set_global_job_parameters", [("global_job_parameters", .table values)])
  | setSnapshotCompression b =>
    some ("set_use_snapshot_compression", [("use_snapshot_compression", .flag b)])
  | addDefaultSerializer typeName serializer =>
    some ("add_default_kryo_serializer",
      [("type_name", .text typeName), ("serializer_name", .text serializer)])
  | registerKryoType typeName => some ("register_kryo_type", [("type_name", .text typeName)])
  | registerPojoType typeName => some ("register_pojo_type", [("type_name", .text typeName)])

def Mutator.IsName (name : String) : Prop :=
  ∃ m data, call? m = some (name, data)

namespace Dynamic

/-! ### Texts -/

theorem stringOf?_eq_some_iff {ns : List Nat} {s : String} :
    stringOf? ns = some s ↔ ns = codes s := by
  constructor
  · intro h
    rw [stringOf?] at h
    split at h
    · rename_i hvalid
      obtain rfl := Option.some.inj h
      have hroundtrip : ∀ n ∈ ns, (Char.ofNat n).toNat = n := fun n hn =>
        Utf8.toNat_ofNat (of_decide_eq_true (List.all_eq_true.1 hvalid n hn))
      rw [codes, String.toList_ofList, List.map_map]
      exact ((List.map_congr_left hroundtrip).trans ns.map_id).symm
    · cases h
  · rintro rfl
    have hvalid : (codes s).all (fun n => n.isValidChar) = true := by
      simpa [codes] using fun c _ => c.valid
    have hchars : (codes s).map Char.ofNat = s.toList := by
      simp [codes, Function.comp_def]
    rw [stringOf?, if_pos hvalid, hchars, String.ofList_toList]

/-! ### Steps -/

section

variable {V ε α β : Type}

namespace Step

theorem outcome_lift (x : Except ε α) (c : Config) : (liftM x : Step ε α).outcome c = (x, c) :=
  rfl

theorem outcome_bind_of_ok {x : Except ε α} {a : α} (h : x = .ok a) (f : α → Step ε β)
    (c : Config) : (liftM x >>= f).outcome c = (f a).outcome c := by
  subst h
  rfl

theorem outcome_bind_of_error {x : Except ε α} {e : ε} (h : x = .error e) (f : α → Step ε β)
    (c : Config) : (liftM x >>= f).outcome c = (.error e, c) := by
  subst h
  rfl

end Step

namespace Method

variable {values : List V}

theorem outcome_run_of_ok {parameters : List String} {read : List V → Except ε Mutator}
    {m : Mutator} (h : read values = .ok m) (c : Config) :
    ((mutator parameters read).run values).outcome c = (.ok .self, m.apply c) := by
  rw [run, Step.outcome_bind_of_ok h]
  rfl

/-- A mutator that cannot read its arguments has changed nothing yet. -/
theorem outcome_run_of_error {parameters : List String} {read : List V → Except ε Mutator}
    {e : ε} (h : read values = .error e) (c : Config) :
    ((mutator parameters read).run values).outcome c = (.error e, c) := by
  rw [run, Step.outcome_bind_of_error h]

theorem outcome_run_query (parameters : List String)
    (answer : List V → Config → Except ε Reply) (values : List V) (c : Config) :
    ((query parameters answer).run values).outcome c = (answer values c, c) :=
  rfl

end Method

end

/-! ### Reading -/

section

variable {V ε α β : Type} [Host V ε]

/-- An entry of a dictionary is kept as a pair of texts: that of its key, and its
value if this is a text itself, else the text of the value. -/
structure Shows (entry : V × V) (pair : String × String) : Prop where
  key : Host.str entry.1 = .ok (codes pair.1)
  value : Host.codes? entry.2 = some (codes pair.2) ∨
    Host.codes? entry.2 = none ∧ Host.str entry.2 = .ok (codes pair.2)

def KeptAs (v : V) (pairs : List (String × String)) : Prop :=
  ∃ entries, Host.entries? v = some entries ∧ List.Forall₂ Shows entries pairs

/-- A value stands for what is passed to a mutator. -/
def Means (v : V) : Datum → Prop
  | .integer n => Host.index v = .ok n
  | .flag b => Host.truth v = .ok b
  | .text s => Host.codes? v = some (codes s)
  | .table values => ∃ pairs, KeptAs v pairs ∧ values = pairs.map fun e => (e.1, .string e.2)

/-- A reader accepts what stands for a datum, and nothing else. -/
def Reads (read : V → Except ε α) (datum : α → Datum) : Prop :=
  ∀ v a, read v = .ok a ↔ Means v (datum a)

theorem readInteger_eq_ok_iff {low high n : Int} {v : V} :
    readInteger low high v = .ok n ↔ Host.index v = .ok n ∧ low ≤ n ∧ n ≤ high := by
  rw [readInteger, bind_eq_ok_iff]
  constructor
  · rintro ⟨i, hindex, h⟩
    split at h
    · rename_i hrange
      obtain rfl := Except.ok.inj h
      exact ⟨hindex, hrange⟩
    · cases h
  · rintro ⟨hindex, hrange⟩
    exact ⟨n, hindex, if_pos hrange⟩

theorem reads_int64 : Reads (V := V) readInt64 fun n => .integer n.toInt := by
  intro v n
  show (readInteger _ _ v).map Int64.ofInt = .ok n ↔ Host.index v = .ok n.toInt
  rw [map_eq_ok_iff]
  constructor
  · rintro ⟨i, hi, rfl⟩
    obtain ⟨hindex, hlow, hhigh⟩ := readInteger_eq_ok_iff.1 hi
    rwa [Int64.toInt_ofInt_of_le hlow (Int.lt_of_le_sub_one hhigh)]
  · intro hindex
    exact ⟨n.toInt, readInteger_eq_ok_iff.2 ⟨hindex, n.le_toInt, n.toInt_le⟩, n.ofInt_toInt⟩

theorem reads_int32 : Reads (V := V) readInt32 fun n => .integer n.toInt := by
  intro v n
  show (readInteger _ _ v).map Int32.ofInt = .ok n ↔ Host.index v = .ok n.toInt
  rw [map_eq_ok_iff]
  constructor
  · rintro ⟨i, hi, rfl⟩
    obtain ⟨hindex, hlow, hhigh⟩ := readInteger_eq_ok_iff.1 hi
    rwa [Int32.toInt_ofInt_of_le hlow (Int.lt_of_le_sub_one hhigh)]
  · intro hindex
    exact ⟨n.toInt, readInteger_eq_ok_iff.2 ⟨hindex, n.le_toInt, n.toInt_le⟩, n.ofInt_toInt⟩

theorem reads_truth : Reads (V := V) Host.truth .flag :=
  fun _ _ => Iff.rfl

theorem readCodes_eq_ok_iff {ns : List Nat} {s : String} :
    readCodes V ns = .ok s ↔ ns = codes s := by
  rw [readCodes, ← stringOf?_eq_some_iff]
  cases stringOf? ns <;> simp [fail]

theorem reads_text : Reads (V := V) readText .text := by
  intro v s
  show readText v = .ok s ↔ Host.codes? v = some (codes s)
  rw [readText]
  cases Host.codes? v with
  | none => simp [fail]
  | some ns => simp [readCodes_eq_ok_iff]

theorem parameterCodes_eq_ok_iff {v : V} {ns : List Nat} :
    parameterCodes v = .ok ns ↔
      Host.codes? v = some ns ∨ Host.codes? v = none ∧ Host.str v = .ok ns := by
  rw [parameterCodes]
  cases Host.codes? v <;> simp

theorem readPairs_eq_ok_iff {entries : List (V × V)} {pairs : List (String × String)} :
    readPairs entries = .ok pairs ↔ List.Forall₂ Shows entries pairs := by
  induction entries generalizing pairs with
  | nil => simp [readPairs, eq_comm]
  | cons entry entries ih =>
    obtain ⟨k, v⟩ := entry
    simp only [readPairs, bind_eq_ok_iff, readCodes_eq_ok_iff, parameterCodes_eq_ok_iff, ih]
    constructor
    · rintro ⟨_, hkey, key, rfl, _, hvalue, text, rfl, rest, hrest, h⟩
      obtain rfl := Except.ok.inj h
      exact .cons ⟨hkey, hvalue⟩ hrest
    · intro h
      cases h with
      | cons hentry hrest =>
        exact ⟨_, hentry.key, _, rfl, _, hentry.value, _, rfl, _, hrest, rfl⟩

theorem reads_parameters : Reads (V := V) readParameters .table := by
  intro v values
  show readParameters v = .ok values ↔
    ∃ pairs, KeptAs v pairs ∧ values = pairs.map fun e => (e.1, .string e.2)
  rw [readParameters]
  cases hentries : Host.entries? v with
  | none => simp [KeptAs, hentries, fail]
  | some entries =>
    simp [KeptAs, hentries, map_eq_ok_iff, readPairs_eq_ok_iff, eq_comm (a := values)]

/-! ### The table of the methods -/

namespace Method

theorem names_ne : (all (V := V)).Pairwise fun a b => a.1 ≠ b.1 := by
  refine List.pairwise_map.1 ?_
  show List.Pairwise (· ≠ ·) _
  simp only [all, List.map]
  decide +kernel

theorem lookup_all {name : String} {method : Method V ε} (h : (name, method) ∈ all) :
    all.lookup name = some method :=
  (StringMap.lookup_eq_some_iff_mem names_ne name method).2 h

/-- What a method reads is a mutator of its own name, and it is read only from
values that stand for what is passed to it. -/
def Sound (name : String) : Method V ε → Prop
  | mutator parameters read => ∀ values m, read values = .ok m →
      ∃ data, m.call? = some (name, data) ∧ data.map Prod.fst = parameters ∧
        List.Forall₂ Means values (data.map Prod.snd)
  | query _ _ => True

variable {name : String}

theorem sound_change {m : Mutator} (h : m.call? = some (name, [])) :
    Sound name (change m : Method V ε) := by
  intro values m' hread
  cases values with
  | nil =>
    obtain rfl := Except.ok.inj hread
    exact ⟨[], h, rfl, .nil⟩
  | cons v rest => cases hread

theorem sound_changeBy {parameter : String} {read : V → Except ε α} {f : α → Mutator}
    {datum : α → Datum} (hreads : Reads read datum)
    (h : ∀ a, (f a).call? = some (name, [(parameter, datum a)])) :
    Sound name (changeBy parameter read f) := by
  intro values m hread
  match values, hread with
  | [v], hread =>
    obtain ⟨a, ha, rfl⟩ := map_eq_ok_iff.1 hread
    exact ⟨_, h a, rfl, .cons ((hreads v a).1 ha) .nil⟩

theorem sound_addDefaultSerializer :
    Sound "add_default_kryo_serializer" (addDefaultSerializer : Method V ε) := by
  intro values m hread
  match values, hread with
  | [t, s], hread =>
    simp only [bind_eq_ok_iff] at hread
    obtain ⟨typeName, ht, serializer, hs, h⟩ := hread
    obtain rfl := Except.ok.inj h
    exact ⟨_, rfl, rfl, .cons ((reads_text t _).1 ht) (.cons ((reads_text s _).1 hs) .nil)⟩

theorem sound_all : ∀ e ∈ all (V := V), Sound e.1 e.2 := by
  simp only [all, List.forall_mem_cons]
  and_intros
  all_goals first
    | exact trivial
    | exact sound_change rfl
    | exact sound_changeBy reads_int64 fun _ => rfl
    | exact sound_changeBy reads_int32 fun _ => rfl
    | exact sound_changeBy reads_text fun _ => rfl
    | exact sound_changeBy reads_truth fun _ => rfl
    | exact sound_changeBy reads_parameters fun _ => rfl
    | exact sound_addDefaultSerializer
    | simp

/-- The table has a method for what is passed to a mutator, and it reads the mutator
from all values that stand for this. -/
def Complete (V : Type) {ε : Type} [Host V ε] (m : Mutator) (name : String)
    (data : List (String × Datum)) : Prop :=
  ∃ read, (name, mutator (data.map Prod.fst) read) ∈ all (V := V) ∧
    ∀ values, List.Forall₂ Means values (data.map Prod.snd) → read values = .ok m

theorem complete_change {m : Mutator} (h : (name, change m) ∈ all (V := V)) :
    Complete V m name [] := by
  refine ⟨_, h, ?_⟩
  rintro _ ⟨⟩
  rfl

theorem complete_changeBy {parameter : String} {read : V → Except ε α} {f : α → Mutator}
    {datum : α → Datum} {a : α} (hreads : Reads read datum)
    (h : (name, changeBy parameter read f) ∈ all) :
    Complete V (f a) name [(parameter, datum a)] := by
  refine ⟨_, h, ?_⟩
  rintro _ (_ | ⟨hv, ⟨⟩⟩)
  exact map_eq_ok_iff.2 ⟨a, (hreads _ a).2 hv, rfl⟩

theorem complete_addDefaultSerializer {typeName serializer : String}
    (h : (name, addDefaultSerializer) ∈ all (V := V)) :
    Complete V (.addDefaultSerializer typeName serializer) name
      [("type_name", .text typeName), ("serializer_name", .text serializer)] := by
  refine ⟨_, h, ?_⟩
  rintro _ (_ | ⟨ht, _ | ⟨hs, ⟨⟩⟩⟩)
  refine bind_eq_ok_iff.2 ⟨_, (reads_text _ _).2 ht, ?_⟩
  exact bind_eq_ok_iff.2 ⟨_, (reads_text _ _).2 hs, rfl⟩

theorem complete_of_call? {m : Mutator} {data : List (String × Datum)}
    (h : m.call? = some (name, data)) : Complete V m name data := by
  cases m
  case setCleanerLevel => cases h
  all_goals obtain ⟨rfl, rfl⟩ := Prod.mk.inj (Option.some.inj h)
  case setWatermarkInterval | setLatencyInterval | setCancellationInterval |
      setCancellationTimeout =>
    exact complete_changeBy reads_int64 (by simp [all])
  case setParallelism | setMaxParallelism =>
    exact complete_changeBy reads_int32 (by simp [all])
  case registerKryoType | registerPojoType =>
    exact complete_changeBy reads_text (by simp [all])
  case setSnapshotCompression => exact complete_changeBy reads_truth (by simp [all])
  case setJobParameters => exact complete_changeBy reads_parameters (by simp [all])
  case addDefaultSerializer => exact complete_addDefaultSerializer (by simp [all])
  all_goals exact complete_change (by simp [all])

end Method

/-! ### Calls -/

structure Call (V : Type) where
  object : String
  method : String
  arguments : List V
  keywords : List (String × V)

namespace Call

/-- The call is one for a mutator: by its name, and by what its arguments stand for
once they are bound to the parameters. -/
def Asks (call : Call V) (m : Mutator) : Prop :=
  ∃ data values, m.call? = some (call.method, data) ∧
    bindArguments (data.map Prod.fst) call.arguments call.keywords = .ok values ∧
    List.Forall₂ Means values (data.map Prod.snd)

def step (call : Call V) : Step ε Reply :=
  callMethod call.method call.arguments call.keywords

variable {call : Call V}

theorem step_of_lookup {method : Method V ε} (h : Method.all.lookup call.method = some method) :
    call.step = liftM (bindArguments method.parameters call.arguments call.keywords) >>=
      method.run := by
  rw [step, callMethod, h]

/-- A call that asks for a mutator applies it and answers with the object itself. -/
theorem outcome_of_asks {m : Mutator} (h : call.Asks m) (c : Config) :
    call.step.outcome c = (.ok .self, m.apply c) := by
  obtain ⟨data, values, hcall, hbind, hmeans⟩ := h
  obtain ⟨read, hmem, hread⟩ := Method.complete_of_call? (V := V) hcall
  rw [step_of_lookup (Method.lookup_all hmem)]
  exact (Step.outcome_bind_of_ok hbind _ c).trans
    (Method.outcome_run_of_ok (hread values hmeans) c)

theorem Asks.isName {m : Mutator} (h : call.Asks m) : Mutator.IsName call.method := by
  obtain ⟨data, _, hcall, _⟩ := h
  exact ⟨m, data, hcall⟩

theorem Asks.apply_eq {m m' : Mutator} (h : call.Asks m) (h' : call.Asks m') (c : Config) :
    m.apply c = m'.apply c := by
  have hboth := (outcome_of_asks h c).symm.trans (outcome_of_asks h' c)
  exact (Prod.mk.inj hboth).2

/-- A call raises and leaves the config as it is, or it has asked for a mutator, or it
is no call of a mutator and leaves the config as it is. -/
theorem outcome_cases (call : Call V) (c : Config) :
    (∃ e, call.step.outcome c = (.error e, c)) ∨
      (∃ m, call.Asks m ∧ call.step.outcome c = (.ok .self, m.apply c)) ∨
      ¬ Mutator.IsName call.method ∧ ∃ reply, call.step.outcome c = (.ok reply, c) := by
  cases hlookup : (Method.all (V := V)).lookup call.method with
  | none =>
    rw [step, callMethod, hlookup]
    cases classAttribute call.method with
    | ok n => exact .inl ⟨_, Step.outcome_lift _ c⟩
    | error e => exact .inl ⟨_, Step.outcome_lift _ c⟩
  | some method =>
    have hmem := (StringMap.lookup_eq_some_iff_mem Method.names_ne _ _).1 hlookup
    rw [step_of_lookup hlookup]
    cases hbind : bindArguments method.parameters call.arguments call.keywords with
    | error e => exact .inl ⟨e, Step.outcome_bind_of_error rfl _ c⟩
    | ok values =>
      rw [Step.outcome_bind_of_ok rfl]
      cases method with
      | mutator parameters read =>
        cases hread : read values with
        | error e => exact .inl ⟨e, Method.outcome_run_of_error hread c⟩
        | ok m =>
          obtain ⟨data, hcall, hparameters, hmeans⟩ := Method.sound_all _ hmem values m hread
          have hasks : call.Asks m := ⟨data, values, hcall, hparameters ▸ hbind, hmeans⟩
          exact .inr (.inl ⟨m, hasks, Method.outcome_run_of_ok hread c⟩)
      | query parameters answer =>
        rw [Method.outcome_run_query]
        cases answer values c with
        | error e => exact .inl ⟨e, rfl⟩
        | ok reply =>
          -- The name is in the table once, so it is no name of a mutator as well.
          refine .inr (.inr ⟨?_, reply, rfl⟩)
          rintro ⟨m, data, hcall⟩
          obtain ⟨read, hmutator, _⟩ := Method.complete_of_call? (V := V) hcall
          cases hlookup.symm.trans (Method.lookup_all hmutator)

end Call

theorem outcome_toSettings (c : Config) :
    (callMethod "to_settings" ([] : List V) []).outcome c = (.ok (.table c.toSettings), c) := by
  have hmem : ("to_settings", .ask fun c => .table c.toSettings) ∈ Method.all (V := V) := by
    simp [Method.all]
  rw [callMethod, Method.lookup_all hmem]
  rfl

end

end Dynamic

end JobConfig
