import JobConfig.Setting.Text
import JobConfig.Proofs.Decimal
import JobConfig.Proofs.Json.Text
import JobConfig.Proofs.StringMap

/-!
The canonical text of a setting value is read back as that value, for every
kind of setting; so the text determines the value.
-/

namespace JobConfig

/-! ### Trimming -/

namespace Text

theorem trimChars_eq_self {cs : List Char} (h : ∀ c ∈ cs, isBlank c = false) :
    trimChars cs = cs := by
  have hfront : ∀ l : List Char, (∀ c ∈ l, isBlank c = false) → l.dropWhile isBlank = l := by
    intro l hl
    cases l with
    | nil => rfl
    | cons c l => simp [hl c List.mem_cons_self]
  rw [trimChars, hfront cs h, hfront cs.reverse fun c hc => h c (List.mem_reverse.1 hc),
    List.reverse_reverse]

theorem isBlank_of_isDigit {c : Char} (h : c.isDigit = true) : isBlank c = false := by
  have hval : 48 ≤ c.val ∧ c.val ≤ 57 := by simpa [Char.isDigit] using h
  have hlow : 48 ≤ c.toNat := hval.1
  have hhigh : c.toNat ≤ 57 := hval.2
  simp [isBlank]
  omega

theorem trim_text (n : Int) : trim (Integer.text n) = Integer.text n := by
  have hblank : ∀ c ∈ Integer.chars n, isBlank c = false := by
    intro c hc
    rcases Integer.eq_dash_or_isDigit_of_mem_chars hc with rfl | hdigit
    · decide
    · exact isBlank_of_isDigit hdigit
  simp [trim, Integer.text, trimChars_eq_self hblank]

end Text

/-! ### Scalars -/

theorem readFlag_boolChars (b : Bool) : readFlag (String.ofList (Json.boolChars b)) = .ok b := by
  cases b <;> rfl

theorem readNumeral_text {low high n : Int} (hlow : low ≤ n) (hhigh : n ≤ high) :
    readNumeral low high (Integer.text n) = .ok n := by
  have hread := Integer.read_chars hlow hhigh
  rw [readNumeral, Text.trim_text, Integer.text, String.toList_ofList, hread]

theorem CleanerLevel.parse_name (level : CleanerLevel) : parse level.name = .ok level := by
  cases level <;> rfl

/-! ### Collections -/

section Collections

open Json

/-- The text of a map is read back as its entries, whatever follows it. -/
theorem readMap_ofStringMap (m : StringMap String) (rest : List Char) :
    readMap readValue maxDepth ((ofStringMap m).chars ++ rest) =
      .ok (m.entries.map fun e => (e.1, string e.2), rest) := by
  have hvalues : ∀ e ∈ m.entries.map (fun e => (e.1, string e.2)), ∀ {part},
      TextOf e.2 part → ReadsAs (readValue 126) part e.2 := by
    intro e he part hpart
    obtain ⟨entry, -, rfl⟩ := List.mem_map.1 he
    exact readsAs_string hpart 126
  have hread := (textOf_chars (ofStringMap m)).readMap_eq (f := fun v => v) hvalues rest
  rwa [List.map_id'] at hread

/-- The text of a set is read back as its members, whatever follows it. -/
theorem readSequence_ofStringSet (s : StringSet) (rest : List Char) :
    readSequence readValue maxDepth ((ofStringSet s).chars ++ rest) =
      .ok (s.toList.map string, rest) := by
  have hitems : ∀ v ∈ s.toList.map string, ∀ {part},
      TextOf v part → ReadsAs (readValue 126) part v := by
    intro v hv part hpart
    obtain ⟨name, -, rfl⟩ := List.mem_map.1 hv
    exact readsAs_string hpart 126
  have hread := (textOf_chars (ofStringSet s)).readSequence_eq hitems rest
  rwa [List.map_id'] at hread

theorem readTable_text (m : StringMap String) : readTable (ofStringMap m).text = .ok m := by
  have hread := readMap_ofStringMap m []
  rw [List.append_nil] at hread
  rw [readTable, readAll_text hread]
  exact congrArg Except.ok (ofList_parameterTexts m)

theorem readNames_text (s : StringSet) : readNames (ofStringSet s).text = .ok s := by
  have hread := readSequence_ofStringSet s []
  rw [List.append_nil] at hread
  rw [readNames, readAll_text hread]
  exact congrArg Except.ok (ofList_itemTexts s)

end Collections

/-! ### All kinds -/

theorem Kind.parse_render (k : Kind) (v : k.Value) : k.parse (k.render v) = .ok v := by
  cases k with
  | level => exact CleanerLevel.parse_name v
  | interval =>
    have hlow : -0x8000000000000000 ≤ v.toInt := Int64.le_toInt v
    have hhigh : v.toInt ≤ 0x7fffffffffffffff := Int64.toInt_le v
    simp [parse, render, readNumeral_text hlow hhigh, Except.map]
  | parallelism =>
    have hlow : -0x80000000 ≤ v.toInt := Int32.le_toInt v
    have hhigh : v.toInt ≤ 0x7fffffff := Int32.toInt_le v
    simp [parse, render, readNumeral_text hlow hhigh, Except.map]
  | flag => exact readFlag_boolChars v
  | table => exact readTable_text v
  | names => exact readNames_text v

/-- Every value of a setting is read back from its canonical text. -/
@[simp] theorem Setting.parse_render (s : Setting) (v : s.Value) :
    s.parse (s.render v) = .ok v :=
  Kind.parse_render s.kind v

theorem Kind.render_injective (k : Kind) {v w : k.Value} (h : k.render v = k.render w) :
    v = w := by
  have hparse := congrArg k.parse h
  simpa [Kind.parse_render] using hparse

theorem Setting.render_injective (s : Setting) {v w : s.Value} (h : s.render v = s.render w) :
    v = w :=
  s.kind.render_injective h

end JobConfig
