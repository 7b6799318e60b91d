import JobConfig.Proofs.Json.Record
import JobConfig.Submission.Payload

/-!
The JSON forms of a config: whichever of its fields a text names, in whichever
form, it is read as the config with those fields and the defaults for all
others. The serializers within a config have forms of the same kind, with
defaults of their own.
-/

namespace JobConfig

namespace Serializers

/-- The serializers with the named fields, and the defaults for all others. -/
def restrict (s : Serializers) (names : List String) : Serializers :=
  let other : Serializers := {}
  { forceKryo := if "force_kryo" ∈ names then s.forceKryo else other.forceKryo
    genericTypesDisabled :=
      if "generic_types_disabled" ∈ names then s.genericTypesDisabled
      else other.genericTypesDisabled
    forceAvro := if "force_avro" ∈ names then s.forceAvro else other.forceAvro
    defaults := if "default_kryo_serializer_classes" ∈ names then s.defaults else other.defaults
    kryoTypes := if "registered_kryo_types" ∈ names then s.kryoTypes else other.kryoTypes
    pojoTypes := if "registered_pojo_types" ∈ names then s.pojoTypes else other.pojoTypes }

theorem distinct_names : record.names.Nodup := by
  simp [Json.Record.names, record, Json.Field.of]

theorem optional_fields : ∀ field ∈ record.fields, field.required = false := by
  simp [record, Json.Field.of]

theorem takes_toJson (s : Serializers) (depth : Nat) :
    ∀ p ∈ record.fields.zip s.toJson.members, ∀ text, Json.TextOf p.2.2 text →
      p.1.Takes (depth + 1) s.restrict text := by
  simp only [record, toJson, Json.members, List.zip_cons_cons, List.zip_nil_right,
    List.forall_mem_cons]
  refine ⟨fun _ h => Json.Field.takes_of (Json.readsAs_bool h) ?_,
    fun _ h => Json.Field.takes_of (Json.readsAs_bool h) ?_,
    fun _ h => Json.Field.takes_of (Json.readsAs_bool h) ?_,
    fun _ h => Json.Field.takes_of (Json.readsAs_stringMap h depth) ?_,
    fun _ h => Json.Field.takes_of (Json.readsAs_stringSet h depth) ?_,
    fun _ h => Json.Field.takes_of (Json.readsAs_stringSet h depth) ?_,
    by simp⟩
  all_goals
    intro seen
    simp [restrict]

theorem follows (s : Serializers) (depth : Nat) :
    record.Follows (depth + 1) s.restrict s.toJson.ValueText where
  distinct := distinct_names
  takes := Json.Record.takes_valueText rfl distinct_names (s.takes_toJson depth)
  unordered h := by
    simp only [Json.Record.names, record, Json.Field.of, List.map_cons, List.map_nil,
      List.forall_mem_cons] at h
    simp only [restrict, h]

theorem restrict_nil (s : Serializers) : s.restrict [] = {} := by
  simp [restrict]

theorem restrict_names (s : Serializers) : s.restrict record.names = s := by
  simp [restrict, Json.Record.names, record, Json.Field.of]

/-- A text that the serializers may be read from, as a value of their own or
within a config: some of the fields of some serializers. -/
def HasForm (s : Serializers) (text : List Char) : Prop :=
  ∃ full : Serializers, record.Form full.toJson.ValueText full.restrict s text

theorem HasForm.readsAs {s : Serializers} {text : List Char} (h : s.HasForm text) (depth : Nat) :
    Json.ReadsAs (readJson (depth + 2)) text s := by
  obtain ⟨full, hform⟩ := h
  have hread := Json.Record.readsAs_form (full.follows depth) optional_fields hform
  rwa [restrict_nil] at hread

theorem parseJson_of_hasForm {s : Serializers} {body : List Char} {text : String}
    (h : s.HasForm body) (htext : Json.Spaced body text.toList) : parseJson text = .ok s :=
  Json.readAll_spaced (h.readsAs 125) htext

theorem hasForm_of_textOf {s : Serializers} {text : List Char} (h : Json.TextOf s.toJson text) :
    s.HasForm text := by
  obtain ⟨members, hmembers, htext, hnames⟩ :=
    Json.Record.exists_members_of_textOf h rfl distinct_names fun _ _ hvalue => hvalue
  have hform : record.Form s.toJson.ValueText s.restrict _ text := .object hmembers htext
  rw [hnames, restrict_names] at hform
  exact ⟨s, hform⟩

end Serializers

namespace Config

def restrict (c : Config) (names : List String) : Config where
  cleanerLevel :=
    if "closure_cleaner_level" ∈ names then c.cleanerLevel else default.cleanerLevel
  watermarkInterval :=
    if "auto_watermark_interval_ms" ∈ names then c.watermarkInterval
    else default.watermarkInterval
  latencyInterval :=
    if "latency_tracking_interval_ms" ∈ names then c.latencyInterval else default.latencyInterval
  parallelism := if "parallelism" ∈ names then c.parallelism else default.parallelism
  maxParallelism := if "max_parallelism" ∈ names then c.maxParallelism else default.maxParallelism
  cancellationInterval :=
    if "task_cancellation_interval_ms" ∈ names then c.cancellationInterval
    else default.cancellationInterval
  cancellationTimeout :=
    if "task_cancellation_timeout_ms" ∈ names then c.cancellationTimeout
    else default.cancellationTimeout
  serializers := if "serializer_config" ∈ names then c.serializers else default.serializers
  autoUids := if "auto_generated_uids" ∈ names then c.autoUids else default.autoUids
  objectReuse := if "object_reuse" ∈ names then c.objectReuse else default.objectReuse
  jobParameters :=
    if "global_job_parameters" ∈ names then c.jobParameters else default.jobParameters
  snapshotCompression :=
    if "use_snapshot_compression" ∈ names then c.snapshotCompression
    else default.snapshotCompression

theorem distinct_names : record.names.Nodup := by
  simp [Json.Record.names, record, Json.Field.of]

theorem optional_fields : ∀ field ∈ record.fields, field.required = false := by
  simp [record, Json.Field.of]

/-- A text of the value of a field; of the serializers, any of their forms. -/
def FieldText (c : Config) (name : String) (text : List Char) : Prop :=
  c.toJson.ValueText name text ∨ name = "serializer_config" ∧ c.serializers.HasForm text

theorem takes_toJson (c : Config) (depth : Nat) :
    ∀ p ∈ record.fields.zip c.toJson.members, ∀ text, Json.TextOf p.2.2 text →
      p.1.Takes (depth + 2) c.restrict text := by
  simp only [record, toJson, Json.members, List.zip_cons_cons, List.zip_nil_right,
    List.forall_mem_cons]
  refine ⟨fun _ h => Json.Field.takes_of (CleanerLevel.readsAs_readJson h _) ?_,
    fun _ h => Json.Field.takes_of (Json.readsAs_int64 h) ?_,
    fun _ h => Json.Field.takes_of (Json.readsAs_int64 h) ?_,
    fun _ h => Json.Field.takes_of (Json.readsAs_int32 h) ?_,
    fun _ h => Json.Field.takes_of (Json.readsAs_int32 h) ?_,
    fun _ h => Json.Field.takes_of (Json.readsAs_int64 h) ?_,
    fun _ h => Json.Field.takes_of (Json.readsAs_int64 h) ?_,
    fun _ h => Json.Field.takes_of ((Serializers.hasForm_of_textOf h).readsAs depth) ?_,
    fun _ h => Json.Field.takes_of (Json.readsAs_bool h) ?_,
    fun _ h => Json.Field.takes_of (Json.readsAs_bool h) ?_,
    fun _ h => Json.Field.takes_of (Json.readsAs_stringMap h _) ?_,
    fun _ h => Json.Field.takes_of (Json.readsAs_bool h) ?_,
    by simp⟩
  all_goals
    intro seen
    simp [restrict]

theorem follows (c : Config) (depth : Nat) :
    record.Follows (depth + 2) c.restrict c.FieldText where
  distinct := distinct_names
  takes field hfield text htext := by
    rcases htext with hvalue | ⟨hname, hform⟩
    · exact Json.Record.takes_valueText rfl distinct_names (c.takes_toJson depth) field hfield
        text hvalue
    · obtain rfl : field = .of "serializer_config" Serializers.readJson
          fun v c => { c with serializers := v } :=
        Json.Record.eq_of_name_eq distinct_names hfield (by simp [record]) hname
      exact Json.Field.takes_of (hform.readsAs depth) fun seen => by simp [restrict]
  unordered h := by
    simp only [Json.Record.names, record, Json.Field.of, List.map_cons, List.map_nil,
      List.forall_mem_cons] at h
    simp only [restrict, h]

theorem restrict_nil (c : Config) : c.restrict [] = default := by
  simp [restrict]

theorem restrict_names (c : Config) : c.restrict record.names = c := by
  simp [restrict, Json.Record.names, record, Json.Field.of]

def HasForm (c : Config) (text : List Char) : Prop :=
  ∃ full : Config, record.Form full.FieldText full.restrict c text

theorem HasForm.readsAs {c : Config} {text : List Char} (h : c.HasForm text) (depth : Nat) :
    Json.ReadsAs (readJson (depth + 3)) text c := by
  obtain ⟨full, hform⟩ := h
  have hread := Json.Record.readsAs_form (full.follows depth) optional_fields hform
  rwa [restrict_nil] at hread

theorem parseJson_of_hasForm {c : Config} {body : List Char} {text : String}
    (h : c.HasForm body) (htext : Json.Spaced body text.toList) : parseJson text = .ok c :=
  Json.readAll_spaced (h.readsAs 124) htext

theorem hasForm_of_textOf {c : Config} {text : List Char} (h : Json.TextOf c.toJson text) :
    c.HasForm text := by
  have hvalues : ∀ name text, c.toJson.ValueText name text → c.FieldText name text :=
    fun _ _ hvalue => .inl hvalue
  obtain ⟨members, hmembers, htext, hnames⟩ :=
    Json.Record.exists_members_of_textOf h rfl distinct_names hvalues
  have hform : record.Form c.FieldText c.restrict _ text := .object hmembers htext
  rw [hnames, restrict_names] at hform
  exact ⟨c, hform⟩

end Config

namespace Submission.Payload

def restrict (p : Payload) (names : List String) : Payload where
  jobName := if "job_name" ∈ names then p.jobName else ""
  config := if "execution_config" ∈ names then p.config else .default

theorem distinct_names : record.names.Nodup := by
  simp [Json.Record.names, record, Json.Field.of]

theorem takes_toJson (p : Payload) (depth : Nat) :
    ∀ q ∈ record.fields.zip p.toJson.members, ∀ text, Json.TextOf q.2.2 text →
      q.1.Takes (depth + 3) p.restrict text := by
  simp only [record, toJson, Json.members, List.zip_cons_cons, List.zip_nil_right,
    List.forall_mem_cons]
  refine ⟨fun _ h => (Json.Field.takes_of (Json.readsAs_text h) ?_).required,
    fun _ h => (Json.Field.takes_of ((Config.hasForm_of_textOf h).readsAs depth) ?_).required,
    by simp⟩
  all_goals
    intro seen
    simp [restrict]

theorem follows (p : Payload) (depth : Nat) :
    record.Follows (depth + 3) p.restrict p.toJson.ValueText where
  distinct := distinct_names
  takes := Json.Record.takes_valueText rfl distinct_names (p.takes_toJson depth)
  unordered h := by
    simp only [Json.Record.names, record, Json.Field.of, List.map_cons, List.map_nil,
      List.forall_mem_cons] at h
    simp only [restrict, h]

theorem restrict_nil (p : Payload) : p.restrict [] = ⟨"", .default⟩ := by
  simp [restrict]

theorem restrict_names (p : Payload) : p.restrict record.names = p := by
  simp [restrict, Json.Record.names, record, Json.Field.of]

theorem readsAs_of_textOf {p : Payload} {text : List Char} (h : Json.TextOf p.toJson text)
    (depth : Nat) : Json.ReadsAs (record.read ⟨"", .default⟩ (depth + 4)) text p := by
  obtain ⟨members, hmembers, htext, hnames⟩ :=
    Json.Record.exists_members_of_textOf h rfl distinct_names fun _ _ hvalue => hvalue
  have hread := Json.Record.readsAs_object (p.follows depth) hmembers htext
    fun field hfield _ => hnames ▸ List.mem_map_of_mem hfield
  rwa [hnames, restrict_nil, restrict_names] at hread

end Submission.Payload

/-- A config and a payload are read back from their texts. An object of some
fields of a config, in any order and among members of other names, is read as the
config with those fields; so is an array of its first fields. Names and strings
may be spelled and tokens spaced in any way. The same holds of the serializers,
on their own as well as within a config. -/
theorem parseJson_forms :
    (∀ c : Config, Config.parseJson c.toJson.text = .ok c) ∧
    (∀ p : Submission.Payload, Submission.Payload.parseJson p.toJson.text = .ok p) ∧
    (∀ (c : Config) (members : List (String × List Char)) (body : List Char) (text : String),
      Config.record.IsMembers c.FieldText members → Json.RecordText members body →
      Json.Spaced body text.toList →
      Config.parseJson text = .ok (c.restrict (members.map Prod.fst))) ∧
    (∀ (s : Serializers) (members : List (String × List Char)) (body : List Char) (text : String),
      Serializers.record.IsMembers s.toJson.ValueText members → Json.RecordText members body →
      Json.Spaced body text.toList →
      Serializers.parseJson text = .ok (s.restrict (members.map Prod.fst))) ∧
    (∀ (c : Config) (items : List (List Char)) (body : List Char) (text : String),
      Config.record.IsItems c.FieldText items → Json.ArrayText items body →
      Json.Spaced body text.toList →
      Config.parseJson text = .ok (c.restrict (Config.record.names.take items.length))) ∧
    (∀ (s : Serializers) (items : List (List Char)) (body : List Char) (text : String),
      Serializers.record.IsItems s.toJson.ValueText items → Json.ArrayText items body →
      Json.Spaced body text.toList →
      Serializers.parseJson text =
        .ok (s.restrict (Serializers.record.names.take items.length))) := by
  refine ⟨?_, ?_, ?_, ?_, ?_, ?_⟩
  · intro c
    exact Config.parseJson_of_hasForm (Config.hasForm_of_textOf (Json.textOf_chars c.toJson))
      (Json.spaced_text c.toJson)
  · intro p
    exact Json.readAll_spaced
      (Submission.Payload.readsAs_of_textOf (Json.textOf_chars p.toJson) 123)
      (Json.spaced_text p.toJson)
  · intro c members body text hmembers hbody htext
    exact Config.parseJson_of_hasForm ⟨c, .object hmembers hbody⟩ htext
  · intro s members body text hmembers hbody htext
    exact Serializers.parseJson_of_hasForm ⟨s, .object hmembers hbody⟩ htext
  · intro c items body text hitems hbody htext
    exact Config.parseJson_of_hasForm ⟨c, .array hitems hbody⟩ htext
  · intro s items body text hitems hbody htext
    exact Serializers.parseJson_of_hasForm ⟨s, .array hitems hbody⟩ htext

def interleavedMembers : List (String × List Char) :=
  [("note", "[null]".toList), ("parallelism", "4".toList), ("serializer_config", "[true]".toList)]

def interleavedConfig : Config :=
  { parallelism := 4, serializers := { forceKryo := true } }

theorem hasForm_interleaved : interleavedConfig.serializers.HasForm "[true]".toList := by
  have htext : Json.ArrayText ["true".toList] "[true]".toList :=
    ⟨_, .parts (.single (Json.spaced_self _)), by decide⟩
  have hitems : Serializers.record.IsItems interleavedConfig.serializers.toJson.ValueText
      ["true".toList] := by
    refine ⟨by decide, fun p hp => ?_⟩
    obtain rfl : p = ("force_kryo", "true".toList) := by
      simpa [Json.Record.names, Serializers.record, Json.Field.of] using hp
    exact ⟨.bool true, .head _, .bool true⟩
  have hrestrict : interleavedConfig.serializers.restrict (Serializers.record.names.take 1) =
      interleavedConfig.serializers := by
    decide +kernel
  rw [← hrestrict]
  exact ⟨_, .array hitems htext⟩

theorem isMembers_interleaved :
    Config.record.IsMembers interleavedConfig.FieldText interleavedMembers where
  distinct := by decide +kernel
  field := by
    simp only [interleavedMembers, List.forall_mem_cons]
    refine ⟨fun hname => ?_, fun _ => ?_, fun _ => .inr ⟨rfl, hasForm_interleaved⟩, by simp⟩
    · exact absurd hname (by decide +kernel)
    · refine .inl ⟨Json.ofInt32 4, by simp [interleavedConfig, Config.toJson, Json.members], ?_⟩
      exact Json.textOf_chars (Json.ofInt32 4)
  other := by
    simp only [interleavedMembers, List.forall_mem_cons]
    refine ⟨fun _ => ?_, fun hname => ?_, fun hname => ?_, by simp⟩
    · exact .array ⟨_, .parts (.single (Json.spaced_self "null".toList)), by decide⟩
        (by simpa using .null)
    · exact absurd (by decide +kernel) hname
    · exact absurd (by decide +kernel) hname

theorem parseJson_forms_interleaved :
    Config.parseJson
        "\x7b \"note\": [null], \"parallelism\":4, \"serializer_config\":[true] \x7d" =
      .ok interleavedConfig := by
  have hspace : ∀ body, Json.Spaced body (' ' :: body) := fun body =>
    ⟨[' '], [], by decide, by decide, by simp⟩
  have hend : ∀ body, Json.Spaced body (body ++ [' ']) := fun body =>
    ⟨[], [' '], by decide, by decide, rfl⟩
  have hbody : Json.RecordText interleavedMembers
      "\x7b \"note\": [null], \"parallelism\":4, \"serializer_config\":[true] \x7d".toList := by
    refine ⟨_, .parts
      (.cons ⟨_, Json.spells_quotedChars "note", _, _, hspace _, hspace _, rfl⟩
      (.cons ⟨_, Json.spells_quotedChars "parallelism", _, _, hspace _, Json.spaced_self _, rfl⟩
      (.single ⟨_, Json.spells_quotedChars "serializer_config", _, _, hspace _, hend _, rfl⟩))), ?_⟩
    decide +kernel
  have hrestrict :
      interleavedConfig.restrict (interleavedMembers.map Prod.fst) = interleavedConfig := by
    decide +kernel
  have hread := parseJson_forms.2.2.1 interleavedConfig interleavedMembers _ _
    isMembers_interleaved hbody (Json.spaced_self _)
  rwa [hrestrict] at hread

end JobConfig
