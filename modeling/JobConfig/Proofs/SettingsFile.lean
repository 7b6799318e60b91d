import JobConfig.Proofs.Overlay.Outcome
import JobConfig.Proofs.SettingText.Collection
import JobConfig.Proofs.Yaml.Built
import JobConfig.Proofs.Yaml.Text
import JobConfig.SettingsFile

/-!
Settings files whose values are plain. Laying such a file over the defaults is
laying the texts of its values over them, each told from the value at once. A
table or a set of names that stands in the file as a collection of its own is
kept entry by entry, although it is written out, read back and taken apart again.

Floats and tags are no plain values: the former are not always read back as they
were, and a tag adds a level of nesting.
-/

namespace JobConfig

namespace Yaml.Value

mutual

/-- Whether a value holds no floats and no tags, and strings are the keys of all
its mappings. -/
def isPlain : Value → Bool
  | null | bool _ | integer _ | string _ => true
  | float _ | tagged _ _ => false
  | sequence items => allPlain items
  | mapping entries => entriesPlain entries

def allPlain : List Value → Bool
  | [] => true
  | x :: rest => x.isPlain && allPlain rest

def entriesPlain : List (Value × Value) → Bool
  | [] => true
  | (string _, v) :: rest => v.isPlain && entriesPlain rest
  | _ => false

end

theorem isPlain_sequence {items : List Value} (h : (sequence items).isPlain = true) :
    ∀ x ∈ items, x.isPlain = true := by
  rw [isPlain] at h
  induction items with
  | nil => simp
  | cons x rest ih =>
    obtain ⟨hx, hrest⟩ := Bool.and_eq_true_iff.1 h
    exact List.forall_mem_cons.2 ⟨hx, ih hrest⟩

theorem isPlain_mapping {entries : List (Value × Value)} (h : (mapping entries).isPlain = true) :
    ∀ e ∈ entries, (∃ k, e.1 = string k) ∧ e.2.isPlain = true := by
  rw [isPlain] at h
  induction entries with
  | nil => simp
  | cons e rest ih =>
    obtain ⟨k, v⟩ := e
    cases k with
    | string k =>
      obtain ⟨hv, hrest⟩ := Bool.and_eq_true_iff.1 h
      exact List.forall_mem_cons.2 ⟨⟨⟨k, rfl⟩, hv⟩, ih hrest⟩
    | _ => cases h

/-! ### The JSON form of plain values -/

theorem toJson_sequence {items : List Value} {j : Value → Json}
    (hj : ∀ x ∈ items, x.toJson = .ok (j x)) :
    (sequence items).toJson = .ok (.array (items.map j)) := by
  refine map_eq_ok_iff.2 ⟨_, itemsToJson_eq_ok_iff.2 ?_, rfl⟩
  rw [List.forall₂_map_right_iff, List.forall₂_same]
  exact hj

theorem toJson_mapping {entries : List (Value × Value)} {k : Value × Value → String}
    {j : Value × Value → Json} (hk : ∀ e ∈ entries, e.1 = string (k e))
    (hj : ∀ e ∈ entries, e.2.toJson = .ok (j e)) :
    (mapping entries).toJson = .ok (.ofMembers (entries.map fun e => (k e, j e))) := by
  refine map_eq_ok_iff.2 ⟨_, entriesToJson_eq_ok_iff.2 ?_, rfl⟩
  rw [List.forall₂_map_right_iff, List.forall₂_same]
  intro e he
  rw [hk e he]
  exact ⟨rfl, hj e he⟩

/-- A plain value has a JSON form, which nests as deep as the value. -/
theorem exists_toJson {depth : Nat} {v : Value} (hbuilt : v.Built depth)
    (hplain : v.isPlain = true) : ∃ j, v.toJson = .ok j ∧ j.Within depth := by
  induction hbuilt with
  | null => exact ⟨.null, rfl, .null⟩
  | bool b => exact ⟨.bool b, rfl, .bool b⟩
  | integer n => exact ⟨.integer n, rfl, .integer n⟩
  | string s => exact ⟨.string s, rfl, .string s⟩
  | float x => cases hplain
  | tagged tag => cases hplain
  | sequence _ ih =>
    choose! j hj hwithin using fun x hx => ih x hx (isPlain_sequence hplain x hx)
    refine ⟨_, toJson_sequence hj, .array ?_⟩
    simpa using hwithin
  | mapping _ _ _ _ ih =>
    choose! k hk using fun e he => (isPlain_mapping hplain e he).1
    choose! j hj hwithin using fun e he => ih e he (isPlain_mapping hplain e he).2
    refine ⟨_, toJson_mapping hk hj, .object _ fun m hm => ?_⟩
    obtain ⟨e, he, rfl⟩ := List.mem_map.1 (StringMap.mem_of_mem_entries_ofList hm)
    exact hwithin e he

/-! ### Collections -/

/-- The text of a mapping with the keys `k` is read as a table of the texts of its
values. -/
theorem readTable_mapping {entries : List (Value × Value)} {k : Value × Value → String}
    (hk : ∀ e ∈ entries, e.1 = string (k e)) (hbuilt : ∀ e ∈ entries, e.2.Built 126)
    (hplain : ∀ e ∈ entries, e.2.isPlain = true) :
    readTable (mapping entries).plainText =
      .ok (StringMap.ofList (entries.map fun e => (k e, e.2.plainText))) := by
  choose! j hj hwithin using fun e he => exists_toJson (hbuilt e he) (hplain e he)
  let members := entries.map fun e => (k e, j e)
  have htext : (mapping entries).plainText = (Json.ofMembers members).text :=
    (parameterText_of_toJson (toJson_mapping hk hj)).symm
  have hmembers : ∀ m ∈ (StringMap.ofList members).entries, m.2.Within 126 := by
    intro m hm
    obtain ⟨e, he, rfl⟩ := List.mem_map.1 (StringMap.mem_of_mem_entries_ofList hm)
    exact hwithin e he
  have hvalues : members.map (fun m => (m.1, m.2.parameterText)) =
      entries.map fun e => (k e, e.2.plainText) := by
    rw [List.map_map]
    refine List.map_congr_left fun e he => ?_
    exact congrArg (Prod.mk (k e)) (parameterText_of_toJson (hj e he))
  -- The members are put in order before they are written; their values could be
  -- replaced by texts before that as well.
  rw [htext, Json.ofMembers, readTable_object hmembers, parametersOf, StringMap.ofList_map_values,
    StringMap.ofList_entries, ← StringMap.ofList_map_values, hvalues]

/-- The table that comes of a mapping has the text of the value under each key. -/
theorem exists_readTable {entries : List (Value × Value)} (hbuilt : (mapping entries).Built 127)
    (hplain : (mapping entries).isPlain = true) :
    ∃ m, readTable (mapping entries).plainText = .ok m ∧
      ∀ key text, m.get? key = some text ↔
        ∃ v, (string key, v) ∈ entries ∧ text = v.plainText := by
  cases hbuilt with | mapping hdistinct _ hvalues => ?_
  choose! k hk using fun e he => (isPlain_mapping hplain e he).1
  have hkeys_ne : (entries.map fun e => (k e, e.2.plainText)).Pairwise
      (fun a b => a.1 ≠ b.1) := by
    rw [List.pairwise_map]
    refine hdistinct.imp_of_mem fun ha hb hsame => ?_
    rw [hk _ ha, hk _ hb] at hsame
    simpa [same] using hsame
  refine ⟨_, readTable_mapping hk hvalues fun e he => (isPlain_mapping hplain e he).2, ?_⟩
  intro key text
  rw [StringMap.get?_ofList_eq_some_iff hkeys_ne, List.mem_map]
  constructor
  · rintro ⟨e, he, heq⟩
    obtain ⟨rfl, rfl⟩ := Prod.mk.inj heq
    refine ⟨e.2, ?_, rfl⟩
    rw [← hk e he]
    exact he
  · rintro ⟨v, hv, rfl⟩
    have hkey := Value.string.inj (hk _ hv)
    exact ⟨_, hv, by rw [← hkey]⟩

/-- The text of a sequence is read as the set of the texts of its items. -/
theorem readNames_sequence {items : List Value} (hbuilt : (sequence items).Built 127)
    (hplain : (sequence items).isPlain = true) :
    readNames (sequence items).plainText = .ok (StringSet.ofList (items.map plainText)) := by
  cases hbuilt with | sequence hbuilt => ?_
  choose! j hj hwithin using fun x hx =>
    exists_toJson (hbuilt x hx) (isPlain_sequence hplain x hx)
  have htext : (sequence items).plainText = (Json.array (items.map j)).text :=
    (parameterText_of_toJson (toJson_sequence hj)).symm
  have hitems : ∀ x ∈ items.map j, x.Within 126 := by simpa using hwithin
  have htexts : (items.map j).map Json.parameterText = items.map plainText := by
    rw [List.map_map]
    exact List.map_congr_left fun x hx => parameterText_of_toJson (hj x hx)
  rw [htext, readNames_array hitems, htexts]

end Yaml.Value

open Yaml (Value)

/-! ### Files -/

namespace SettingsFile

/-- The texts that stand for values, told from the values at once. -/
def texts (values : StringMap Value) : StringMap String :=
  values.mapValues Value.plainText

theorem valueTexts_eq_ok {l : List (String × Value)} (h : ∀ e ∈ l, ∃ j, e.2.toJson = .ok j) :
    valueTexts l = .ok (l.map fun e => (e.1, e.2.plainText)) := by
  induction l with
  | nil => rfl
  | cons e rest ih =>
    obtain ⟨⟨j, hj⟩, hrest⟩ := List.forall_mem_cons.1 h
    simp only [valueTexts, valueText, hj, ih hrest, Value.parameterText_of_toJson hj, Except.map,
      List.map_cons]

/-- A file of plain values is loaded as the texts that stand for them. -/
theorem value_load {file : SettingsFile} {content : List UInt8} {values : StringMap Value}
    (hcontent : file.content = .bytes content) (hparse : Yaml.parse? content = some values)
    (hplain : ∀ e ∈ values.entries, e.2.isPlain = true) :
    file.load.value = .ok (texts values) := by
  have htexts : valueTexts values.entries =
      .ok (values.entries.map fun e => (e.1, e.2.plainText)) := by
    refine valueTexts_eq_ok fun e he => ?_
    obtain ⟨j, hj, -⟩ := Value.exists_toJson (Yaml.built_of_parse? hparse e he) (hplain e he)
    exact ⟨j, hj⟩
  simp only [load, hcontent, hparse, htexts, StringMap.ofList_map_values, StringMap.ofList_entries,
    texts]

end SettingsFile

namespace Config

theorem accepted_and_get_eq {s : Setting} {text : String} {v : s.Value}
    (h : s.parse text = .ok v) :
    Accepted (s.key, text) ∧ ∀ c : Config, s.parse text = .ok (c.get s) → c.get s = v :=
  ⟨accepted_of_ok h, fun _ hget => Except.ok.inj (hget.symm.trans h)⟩

/-- A text that is read as a table is accepted for these settings, and then the
field holds that table. -/
theorem accepted_table {p : Setting × (Config → StringMap String)} (hp : p ∈ tables)
    {text : String} {m : StringMap String} (hread : readTable text = .ok m) :
    Accepted (p.1.key, text) ∧ ∀ c : Config, p.1.parse text = .ok (c.get p.1) → p.2 c = m := by
  simp only [tables, List.mem_cons, List.not_mem_nil, or_false] at hp
  rcases hp with rfl | rfl
  · exact accepted_and_get_eq (s := .jobParameters) hread
  · exact accepted_and_get_eq (s := .defaultSerializers) hread

theorem accepted_nameSet {p : Setting × (Config → StringSet)} (hp : p ∈ nameSets)
    {text : String} {m : StringSet} (hread : readNames text = .ok m) :
    Accepted (p.1.key, text) ∧ ∀ c : Config, p.1.parse text = .ok (c.get p.1) → p.2 c = m := by
  simp only [nameSets, List.mem_cons, List.not_mem_nil, or_false] at hp
  rcases hp with rfl | rfl
  · exact accepted_and_get_eq (s := .kryoTypes) hread
  · exact accepted_and_get_eq (s := .pojoTypes) hread

/-- A config made of the texts of values holds what the text of each value says. -/
theorem parse_plainText {values : StringMap Value} {next : Config}
    (hnext : (fromSettings (SettingsFile.texts values)).value = .ok next) {s : Setting} {v : Value}
    (hget : values.get? s.key = some v) : s.parse v.plainText = .ok (next.get s) := by
  refine (get_of_configure hnext).1 s _ ?_
  rw [SettingsFile.texts, StringMap.get?_mapValues, hget]
  rfl

/-- A file of plain values is laid over the defaults as the texts that stand for
them. A table or a set of names that is given as a mapping or a sequence is always
accepted, and holds the texts of what was given and nothing else. The file as a
whole is taken exactly when every text in it is accepted, and otherwise refused
under the least key whose text is not. -/
theorem fromFile_eq_fromSettings {file : SettingsFile} {content : List UInt8}
    {values : StringMap Value} (hcontent : file.content = .bytes content)
    (hparse : Yaml.parse? content = some values)
    (hplain : ∀ e ∈ values.entries, e.2.isPlain = true) :
    file.load.value = .ok (SettingsFile.texts values) ∧
      (fromFile file).value = (fromSettings (SettingsFile.texts values)).value ∧
      (∀ p ∈ tables, ∀ entries, values.get? p.1.key = some (.mapping entries) →
        Accepted (p.1.key, (Value.mapping entries).plainText) ∧
          ∀ next, (fromFile file).value = .ok next → ∀ k text,
            (p.2 next).get? k = some text ↔
              ∃ v, (.string k, v) ∈ entries ∧ text = v.plainText) ∧
      (∀ p ∈ nameSets, ∀ items, values.get? p.1.key = some (.sequence items) →
        Accepted (p.1.key, (Value.sequence items).plainText) ∧
          ∀ next, (fromFile file).value = .ok next → ∀ name,
            name ∈ (p.2 next).toList ↔ ∃ v ∈ items, name = v.plainText) ∧
      ((∃ next, (fromFile file).value = .ok next) ↔
        ∀ e ∈ values.entries, Accepted (e.1, e.2.plainText)) ∧
      ∀ e, (fromFile file).value = .error e →
        ∃ s reason, e = .invalid s.key reason ∧
          FirstRefused (SettingsFile.texts values) s reason := by
  have hload := SettingsFile.value_load hcontent hparse hplain
  have hvalue : (fromFile file).value = (fromSettings (SettingsFile.texts values)).value := by
    simp only [fromFile, Traced.andThenOk, Traced.value_andThen, hload]
  rw [hvalue]
  refine ⟨hload, rfl, ?_, ?_, ?_, ?_⟩
  · intro p hp entries hget
    have hmem := (values.mem_entries_iff _ _).2 hget
    obtain ⟨m, hread, hm⟩ :=
      Value.exists_readTable (Yaml.built_of_parse? hparse _ hmem) (hplain _ hmem)
    obtain ⟨haccepted, hfield⟩ := accepted_table hp hread
    refine ⟨haccepted, fun next hnext => ?_⟩
    rw [hfield next (parse_plainText hnext hget)]
    exact hm
  · intro p hp items hget
    have hmem := (values.mem_entries_iff _ _).2 hget
    have hread := Value.readNames_sequence (Yaml.built_of_parse? hparse _ hmem) (hplain _ hmem)
    obtain ⟨haccepted, hfield⟩ := accepted_nameSet hp hread
    refine ⟨haccepted, fun next hnext name => ?_⟩
    rw [hfield next (parse_plainText hnext hget), StringSet.mem_toList_ofList_iff]
    simp [eq_comm]
  · simp only [fromSettings, configure_eq_ok_iff, SettingsFile.texts, StringMap.mapValues,
      List.forall_mem_map]
  · intro e he
    rcases configure_cases default (SettingsFile.texts values) with
      ⟨-, next, hok⟩ | ⟨s, reason, hfirst, herror⟩
    · rw [fromSettings, hok] at he
      cases he
    · rw [fromSettings, herror] at he
      exact ⟨s, reason, (Except.error.inj he).symm, hfirst⟩

/-- A file with a mapping whose keys do not ascend, a string that looks like a
number, a sequence and numbers. -/
def mixedContent : List UInt8 :=
  Utf8.encode
    "pipeline.global-job-parameters: \x7bb: ['1', 2], a: ~\x7d\nparallelism.default: -3\n"

def mixedTexts : StringMap String :=
  StringMap.ofList
    [("parallelism.default", "-3"),
      ("pipeline.global-job-parameters", "\x7b\"a\":null,\"b\":[\"1\",2]\x7d")]

theorem fromFile_eq_fromSettings_mixedContent :
    ∃ values, Yaml.parse? mixedContent = some values ∧
      (∀ e ∈ values.entries, e.2.isPlain = true) ∧ SettingsFile.texts values = mixedTexts ∧
      (fromFile ⟨"settings.yaml", .bytes mixedContent⟩).value = (fromSettings mixedTexts).value := by
  have hrun : (Yaml.parse? mixedContent).map (fun values =>
      (values.entries.all fun e => e.2.isPlain, SettingsFile.texts values)) =
      some (true, mixedTexts) := by
    decide +kernel
  obtain ⟨values, hparse, hvalues⟩ := Option.map_eq_some_iff.1 hrun
  obtain ⟨hplain, htexts⟩ := Prod.mk.inj hvalues
  rw [List.all_eq_true] at hplain
  refine ⟨values, hparse, hplain, htexts, ?_⟩
  rw [← htexts]
  exact (fromFile_eq_fromSettings rfl hparse hplain).2.1

end Config

end JobConfig
