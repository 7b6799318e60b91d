import JobConfig.Proofs.Mutator
import JobConfig.Proofs.Overlay.Outcome
import JobConfig.Proofs.SettingText.Collection
import Mathlib.Logic.Relation

/-!
Collections that are given as JSON are kept by their content. A set of names does
not depend on the order of the values it is given as, on repetitions, or on which of
them come as strings of their text (`Json.Restated`); of a table the last member of
each key counts. However it was given, a collection is written back in strictly
ascending order, and that text changes nothing any more.
-/

namespace JobConfig

/-! ### Values that say the same -/

namespace Json

/-- The lists differ in nothing that a set of names can tell: in the order of their
values, in a repetition, or in a value that comes as the string of its text. -/
inductive Restated : List Json → List Json → Prop
  | order {items items' : List Json} (h : items.Perm items') : Restated items items'
  | repetition {items : List Json} {v : Json} (hv : v ∈ items) : Restated items (v :: items)
  | quotation {before after : List Json} {v : Json} (hv : ∀ s, v ≠ .string s) :
      Restated (before ++ v :: after) (before ++ .string v.text :: after)

theorem Restated.mem_texts_iff {items items' : List Json} (h : Restated items items')
    (name : String) : name ∈ items.map parameterText ↔ name ∈ items'.map parameterText := by
  cases h with
  | order h => exact (h.map parameterText).mem_iff
  | repetition hv =>
    have hname := List.mem_map_of_mem (f := parameterText) hv
    rw [List.map_cons, List.mem_cons]
    exact ⟨.inr, fun h => h.elim (fun heq => heq ▸ hname) id⟩
  | @quotation before after v hv =>
    have hquoted : (string v.text).parameterText = v.parameterText := (parameterText_eq_text hv).symm
    rw [List.map_append, List.map_append, List.map_cons, List.map_cons, hquoted]

/-- Values may be restated any number of times, there and back. -/
theorem mem_texts_iff_of_eqvGen {items items' : List Json}
    (h : Relation.EqvGen Restated items items') (name : String) :
    name ∈ items.map parameterText ↔ name ∈ items'.map parameterText := by
  induction h with
  | rel _ _ h => exact h.mem_texts_iff name
  | refl => exact Iff.rfl
  | symm _ _ _ ih => exact ih.symm
  | trans _ _ _ _ _ ih ih' => exact ih.trans ih'

end Json

namespace Config

/-! ### Canonical texts -/

/-- The config writes `text` for the setting, and `text` laid over it changes
nothing. -/
structure Settled (c : Config) (s : Setting) (text : String) : Prop where
  written : c.toSettings.get? s.key = some text
  unchanged : (c.configure (StringMap.ofList [(s.key, text)])).value = .ok c

theorem settled_settingText (c : Config) (s : Setting) : c.Settled s (c.settingText s) where
  written := c.get?_toSettings_key s
  unchanged := by rw [configure_singleton (c.parse_settingText s), set_get]

/-- Every text that is read as a value leads to the config that has this value. -/
theorem exists_stored (c : Config) (s : Setting) (v : s.Value) :
    ∃ next, (∀ text, s.parse text = .ok v →
        (c.configure (StringMap.ofList [(s.key, text)])).value = .ok next) ∧
      next.get s = v ∧ (∀ t, t ≠ s → next.get t = c.get t) ∧ next.Settled s (s.render v) := by
  have hget := c.get_set_self s v
  refine ⟨c.set s v, fun text hread => configure_singleton hread c, hget,
    fun t ht => c.get_set_of_ne v ht, ?_⟩
  have hsettled := (c.set s v).settled_settingText s
  rwa [settingText, hget] at hsettled

/-! ### Sets of names -/

/-- What becomes of `c` when a set of names is given as a list of values: the set
holds the strings that stand for them and nothing else, every other setting is as
it was, and what is written for the set lists the strings in the order of their
bytes. -/
structure StoresNames (c : Config) (p : Setting × (Config → StringSet)) (items : List Json)
    (next : Config) : Prop where
  mem_iff : ∀ name, name ∈ (p.2 next).toList ↔ ∃ v ∈ items, v.parameterText = name
  others : ∀ s, s ≠ p.1 → next.get s = c.get s
  canonical : ∃ names : List String,
    names.Pairwise (fun a b => Utf8.encode a < Utf8.encode b) ∧ names.Nodup ∧
      (∀ name, name ∈ names ↔ ∃ v ∈ items, v.parameterText = name) ∧
      next.Settled p.1 (Json.array (names.map Json.string)).text

theorem exists_stored_names (c : Config) {p : Setting × (Config → StringSet)} (hp : p ∈ nameSets)
    (names : StringSet) :
    ∃ next, (∀ text, readNames text = .ok names →
        (c.configure (StringMap.ofList [(p.1.key, text)])).value = .ok next) ∧
      p.2 next = names ∧ (∀ s, s ≠ p.1 → next.get s = c.get s) ∧
      next.Settled p.1 (Json.ofStringSet names).text := by
  simp only [nameSets, List.mem_cons, List.not_mem_nil, or_false] at hp
  rcases hp with rfl | rfl
  · exact c.exists_stored .kryoTypes names
  · exact c.exists_stored .pojoTypes names

/-- All texts of all lists of values that stand for the same names have one outcome. -/
theorem exists_storesNames (c : Config) {p : Setting × (Config → StringSet)} (hp : p ∈ nameSets)
    (items : List Json) :
    ∃ next, StoresNames c p items next ∧ ∀ (items' : List Json) (text : String),
      Relation.EqvGen Json.Restated items items' → (∀ v ∈ items', v.Within 126) →
        (Json.array items').Written text →
          (c.configure (StringMap.ofList [(p.1.key, text)])).value = .ok next := by
  let names := StringSet.ofList (items.map Json.parameterText)
  obtain ⟨next, hread, hfield, hothers, hsettled⟩ := c.exists_stored_names hp names
  have hmem : ∀ name, name ∈ names.toList ↔ ∃ v ∈ items, v.parameterText = name := fun name => by
    rw [StringSet.mem_toList_ofList_iff, List.mem_map]
  have hascending : names.toList.Pairwise (· < ·) := List.pairwise_map.2 names.ascending
  refine ⟨next, ⟨fun name => by rw [hfield, hmem], hothers, names.toList, ?_, ?_, hmem, hsettled⟩, ?_⟩
  · simpa only [Utf8.encode_lt_iff] using hascending
  · exact List.pairwise_map.2 names.entries_ne
  · intro items' text hsame hwithin htext
    refine hread text ?_
    rw [readNames_of_written hwithin htext]
    exact congrArg Except.ok (StringSet.ofList_congr fun x =>
      (Json.mem_texts_iff_of_eqvGen hsame x).symm)

/-! ### Tables -/

/-- What becomes of `c` when a table is given as a list of members: of each key the
last member counts, as for job parameters that are set as values, every other
setting is as it was, and what is written for the table lists its entries in the
order of the bytes of their keys. -/
structure StoresTable (c : Config) (p : Setting × (Config → StringMap String))
    (members : List (String × Json)) (next : Config) : Prop where
  get?_iff : ∀ k t, (p.2 next).get? k = some t ↔
    ∃ before v after, members = before ++ (k, v) :: after ∧ (∀ m ∈ after, m.1 ≠ k) ∧
      v.parameterText = t
  eq_parametersOf : p.2 next = parametersOf members
  others : ∀ s, s ≠ p.1 → next.get s = c.get s
  canonical : ∃ entries : List (String × String),
    entries.Pairwise (fun a b => Utf8.encode a.1 < Utf8.encode b.1) ∧
      (entries.map Prod.fst).Nodup ∧ (∀ k t, (k, t) ∈ entries ↔ (p.2 next).get? k = some t) ∧
      next.Settled p.1 (Json.object (entries.map fun e => (e.1, Json.string e.2))).text

theorem exists_stored_table (c : Config) {p : Setting × (Config → StringMap String)}
    (hp : p ∈ tables) (table : StringMap String) :
    ∃ next, (∀ text, readTable text = .ok table →
        (c.configure (StringMap.ofList [(p.1.key, text)])).value = .ok next) ∧
      p.2 next = table ∧ (∀ s, s ≠ p.1 → next.get s = c.get s) ∧
      next.Settled p.1 (Json.ofStringMap table).text := by
  simp only [tables, List.mem_cons, List.not_mem_nil, or_false] at hp
  rcases hp with rfl | rfl
  · exact c.exists_stored .jobParameters table
  · exact c.exists_stored .defaultSerializers table

theorem exists_storesTable (c : Config) {p : Setting × (Config → StringMap String)}
    (hp : p ∈ tables) {members : List (String × Json)} (hwithin : ∀ m ∈ members, m.2.Within 126)
    {text : String} (htext : (Json.object members).Written text) :
    ∃ next, (c.configure (StringMap.ofList [(p.1.key, text)])).value = .ok next ∧
      StoresTable c p members next := by
  let table := parametersOf members
  obtain ⟨next, hread, hfield, hothers, hsettled⟩ := c.exists_stored_table hp table
  have hascending := table.ascending
  refine ⟨next, hread text (readTable_of_written hwithin htext), fun k t => ?_, hfield, hothers,
    table.entries, ?_, ?_, fun k t => ?_, hsettled⟩
  · rw [hfield, get?_parametersOf_eq_some_iff]
  · simpa only [Utf8.encode_lt_iff] using hascending
  · exact List.pairwise_map.2 table.entries_ne
  · rw [hfield, StringMap.mem_entries_iff]

/-! ### The content decides -/

/-- A set of names that is given as the text of an array holds exactly the strings
that stand for its values, and any text of any list that restates these values has
the same outcome. A table that is given as the text of an object holds, under each
key, the string that stands for the value of its last member and nothing else. What
is written for them afterwards is in strict order and changes nothing. -/
theorem configure_collection (c : Config) :
    (∀ p ∈ nameSets, ∀ (items : List Json) (text : String), (∀ v ∈ items, v.Within 126) →
      (Json.array items).Written text →
        ∃ next, (c.configure (StringMap.ofList [(p.1.key, text)])).value = .ok next ∧
          StoresNames c p items next ∧
          ∀ (items' : List Json) (text' : String), Relation.EqvGen Json.Restated items items' →
            (∀ v ∈ items', v.Within 126) → (Json.array items').Written text' →
              (c.configure (StringMap.ofList [(p.1.key, text')])).value = .ok next) ∧
    ∀ p ∈ tables, ∀ (members : List (String × Json)) (text : String),
      (∀ m ∈ members, m.2.Within 126) → (Json.object members).Written text →
        ∃ next, (c.configure (StringMap.ofList [(p.1.key, text)])).value = .ok next ∧
          StoresTable c p members next := by
  constructor
  · intro p hp items text hwithin htext
    obtain ⟨next, hstores, hsame⟩ := c.exists_storesNames hp items
    exact ⟨next, hsame items text (.refl items) hwithin htext, hstores, hsame⟩
  · intro p hp members text hwithin htext
    exact c.exists_storesTable hp hwithin htext

def mixedNames : List Json :=
  [.integer ⟨1, by decide, by decide⟩, .string "1", .null]

def repeatedMembers : List (String × Json) :=
  [("b", .bool true), ("a", .array [.null]), ("b", .string "x")]

theorem within_mixedNames : ∀ v ∈ mixedNames, v.Within 126 := by
  simp only [mixedNames, List.forall_mem_cons]
  exact ⟨.integer _, .string _, .null, by simp⟩

theorem restated_mixedNames : Relation.EqvGen Json.Restated mixedNames [.null, .string "1"] := by
  have hquoted : Json.Restated mixedNames [.string "1", .string "1", .null] :=
    @Json.Restated.quotation [] [.string "1", .null] (.integer _) (by simp)
  have hrepeated : Json.Restated [.string "1", .null] [.string "1", .string "1", .null] :=
    .repetition List.mem_cons_self
  have hordered : Json.Restated [.string "1", .null] [.null, .string "1"] :=
    .order (.swap _ _ _)
  exact .trans _ _ _ (.rel _ _ hquoted)
    (.trans _ _ _ (.symm _ _ (.rel _ _ hrepeated)) (.rel _ _ hordered))

theorem written_mixedNames : (Json.array mixedNames).Written " [1,\"1\",null]" :=
  ⟨_, Json.textOf_chars _, [' '], [], by decide, by decide, by decide +kernel⟩

theorem configure_collection_mixed :
    (∃ next, (default.configure (StringMap.ofList
          [(Setting.kryoTypes.key, " [1,\"1\",null]")])).value = .ok next ∧
        (default.configure (StringMap.ofList
          [(Setting.kryoTypes.key, "[null,\"1\"]")])).value = .ok next ∧
        "null" ∈ next.serializers.kryoTypes.toList) ∧
      ∃ next, (default.configure (StringMap.ofList [(Setting.jobParameters.key,
          "\x7b\"b\":true,\"a\":[null],\"b\":\"x\"\x7d")])).value = .ok next ∧
        next.jobParameters.get? "b" = some "x" := by
  constructor
  · have hwithin : ∀ v ∈ [Json.null, .string "1"], v.Within 126 := by
      simp only [List.forall_mem_cons]
      exact ⟨.null, .string _, by simp⟩
    obtain ⟨next, hnext, hstores, hsame⟩ :=
      (configure_collection default).1 _ (.head _) mixedNames _ within_mixedNames written_mixedNames
    exact ⟨next, hnext, hsame _ _ restated_mixedNames hwithin (Json.written_text _),
      (hstores.mem_iff "null").2 ⟨.null, by simp [mixedNames], rfl⟩⟩
  · have hwithin : ∀ m ∈ repeatedMembers, m.2.Within 126 := by
      simp only [repeatedMembers, List.forall_mem_cons]
      exact ⟨.bool _, .array (by simpa using .null), .string _, by simp⟩
    obtain ⟨next, hnext, hstores⟩ :=
      (configure_collection default).2 _ (.head _) repeatedMembers _ hwithin (Json.written_text _)
    refine ⟨next, hnext, (hstores.get?_iff "b" "x").2 ?_⟩
    exact ⟨repeatedMembers.take 2, .string "x", [], rfl, by simp, rfl⟩

end Config

end JobConfig
