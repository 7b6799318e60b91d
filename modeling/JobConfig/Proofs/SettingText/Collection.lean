import JobConfig.Config.Mutator
import JobConfig.Proofs.Json.Nested
import JobConfig.Proofs.Overlay

/-!
Settings that hold collections, given as JSON whose values are of any shape.

The reader of a setting sees a text, parses it and then turns each value into
the string that stands for it. What comes out is what turning the values into
strings directly gives: a string is never quoted, any other value stands for its
own compact text, from which it can be read again.
-/

namespace JobConfig

open Json (Within)

/-- An object is read from any of its texts as its members, values as the strings
that stand for them. -/
theorem readTable_of_written {members : List (String × Json)} {text : String}
    (h : ∀ m ∈ members, m.2.Within 126) (htext : (Json.object members).Written text) :
    readTable text = .ok (parametersOf members) := by
  obtain ⟨body, hbody, hspaced⟩ := htext
  have hread : Json.ReadsAs (Json.readMap Json.readValue Json.maxDepth) body _ :=
    hbody.readsAs_map (f := fun v => v) fun m hm _ hpart => Json.readsAs_textOf (h m hm) hpart
  rw [List.map_id'] at hread
  rw [readTable, Json.readAll_spaced hread hspaced]
  rfl

/-- An array is read from any of its texts as the strings that stand for its items. -/
theorem readNames_of_written {items : List Json} {text : String}
    (h : ∀ v ∈ items, v.Within 126) (htext : (Json.array items).Written text) :
    readNames text = .ok (StringSet.ofList (items.map Json.parameterText)) := by
  obtain ⟨body, hbody, hspaced⟩ := htext
  have hread : Json.ReadsAs (Json.readSequence Json.readValue Json.maxDepth) body _ :=
    hbody.readsAs_sequence fun v hv _ hpart => Json.readsAs_textOf (h v hv) hpart
  rw [List.map_id'] at hread
  rw [readNames, Json.readAll_spaced hread hspaced]

theorem readTable_object {members : List (String × Json)} (h : ∀ m ∈ members, m.2.Within 126) :
    readTable (Json.object members).text = .ok (parametersOf members) :=
  readTable_of_written h (Json.written_text _)

theorem readNames_array {items : List Json} (h : ∀ v ∈ items, v.Within 126) :
    readNames (Json.array items).text = .ok (StringSet.ofList (items.map Json.parameterText)) :=
  readNames_of_written h (Json.written_text _)

namespace Config

def tables : List (Setting × (Config → StringMap String)) :=
  [(.jobParameters, jobParameters), (.defaultSerializers, fun c => c.serializers.defaults)]

def nameSets : List (Setting × (Config → StringSet)) :=
  [(.kryoTypes, fun c => c.serializers.kryoTypes), (.pojoTypes, fun c => c.serializers.pojoTypes)]

end Config

theorem Json.parameterText_eq_text {v : Json} (hv : ∀ s, v ≠ .string s) : v.parameterText = v.text := by
  cases v with
  | string s => exact absurd rfl (hv s)
  | _ => rfl

theorem Json.parse_parameterText {depth : Nat} {v : Json} (h : v.Within depth)
    (hdepth : depth ≤ maxDepth) (hv : ∀ s, v ≠ .string s) : parse v.parameterText = .ok v := by
  rw [parameterText_eq_text hv, parse_text (h.mono hdepth)]

/-- A map of values becomes the map of the strings that stand for them. -/
theorem get?_parametersOf {members : List (String × Json)}
    (h : members.Pairwise (fun a b => a.1 < b.1)) {m : String × Json} (hm : m ∈ members) :
    (parametersOf members).get? m.1 = some m.2.parameterText := by
  have hdistinct : (members.map fun e => (e.1, e.2.parameterText)).Pairwise
      (fun a b => a.1 ≠ b.1) := by
    rw [List.pairwise_map]
    exact StringMap.entries_ne ⟨members, h⟩
  rw [parametersOf, StringMap.get?_ofList_eq_some_iff hdistinct]
  exact List.mem_map.2 ⟨m, hm, rfl⟩

/-- Job parameters set as values are those set as the text of the object of the
values, and a value that is no string can be read again from what is stored. -/
theorem Mutator.setJobParameters_eq_configure (c : Config) {members : List (String × Json)}
    (h : (Json.object members).Within 127) :
    (c.configure (StringMap.ofList
        [(Setting.jobParameters.key, (Json.object members).text)])).value =
        .ok ((setJobParameters members).apply c) ∧
      ∀ m ∈ members,
        ((setJobParameters members).apply c).jobParameters.get? m.1 = some m.2.parameterText ∧
          ((∀ s, m.2 ≠ .string s) → Json.parse m.2.parameterText = .ok m.2) := by
  have hread : Setting.jobParameters.parse (Json.object members).text =
      .ok (parametersOf members) := readTable_object h.values
  refine ⟨Config.configure_singleton hread c, fun m hm => ⟨?_, ?_⟩⟩
  · exact get?_parametersOf h.ascending hm
  · exact Json.parse_parameterText (h.values m hm) (by decide)

def nestedParameter : Json :=
  .array [.null, .object [("a\n", .string "\"quoted\""), ("b", .array [])]]

def mixedParameters : List (String × Json) :=
  [("Größe", .integer ⟨0xffffffffffffffff, by decide, by decide⟩),
    ("least", .integer ⟨-0x8000000000000000, by decide, by decide⟩),
    ("nested", nestedParameter),
    ("text", .string "[1]")]

theorem within_nestedParameter : nestedParameter.Within 126 := by
  let inner : StringMap Json :=
    ⟨[("a\n", .string "\"quoted\""), ("b", .array [])], by decide⟩
  have hinner : ∀ e ∈ inner.entries, e.2.Within 124 := by
    simp only [inner, List.forall_mem_cons]
    exact ⟨.string _, .array (by simp), by simp⟩
  refine .array ?_
  simp only [List.forall_mem_cons]
  exact ⟨.null, .object inner hinner, by simp⟩

theorem within_mixedParameters : (Json.object mixedParameters).Within 127 := by
  let outer : StringMap Json := ⟨mixedParameters, by decide⟩
  refine .object outer ?_
  simp only [outer, mixedParameters, List.forall_mem_cons]
  exact ⟨.integer _, .integer _, within_nestedParameter, .string _, by simp⟩

theorem setJobParameters_eq_configure_mixedParameters :
    (Json.object mixedParameters).Within 127 ∧
      (Config.default.configure (StringMap.ofList
          [(Setting.jobParameters.key, (Json.object mixedParameters).text)])).value =
        .ok ((Mutator.setJobParameters mixedParameters).apply Config.default) ∧
      ((Mutator.setJobParameters mixedParameters).apply Config.default).jobParameters.get?
        "nested" = some nestedParameter.text ∧
      Json.parse nestedParameter.text = .ok nestedParameter := by
  obtain ⟨hvalue, hstored⟩ :=
    Mutator.setJobParameters_eq_configure Config.default within_mixedParameters
  obtain ⟨hget, hparse⟩ := hstored ("nested", nestedParameter) (by simp [mixedParameters])
  exact ⟨within_mixedParameters, hvalue, hget, hparse fun s => by simp [nestedParameter]⟩

end JobConfig
