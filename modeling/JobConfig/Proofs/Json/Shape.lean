import JobConfig.Config.Json
import JobConfig.Proofs.Json.Number
import JobConfig.Proofs.Json.Text
import JobConfig.Proofs.StringMap

/-!
Values of a known shape: each reader gives back the value whose text it reads,
whichever of its texts that is.
-/

namespace JobConfig.Json

variable {α : Type} {text : List Char}

/-! ### Scalars -/

theorem readsAs_bool {b : Bool} (h : TextOf (bool b) text) : ReadsAs readBool text b := by
  have hskips : SkipsSpace readBool := fun cs => by simp only [readBool, skipSpace_skipSpace]
  cases h
  cases b with
  | true => exact .of_skipsSpace hskips ⟨'t', _, rfl, by decide, by decide⟩ fun rest _ => rfl
  | false => exact .of_skipsSpace hskips ⟨'f', _, rfl, by decide, by decide⟩ fun rest _ => rfl

theorem exists_cons_chars (n : Int) :
    ∃ c tail, Integer.chars n = c :: tail ∧ (c = '-' ∨ c.isDigit = true) := by
  cases n with
  | ofNat m =>
    obtain ⟨c, tail, htext, hc⟩ := exists_cons_toDigits m
    exact ⟨c, tail, htext, .inr hc⟩
  | negSucc m => exact ⟨'-', _, rfl, .inl rfl⟩

theorem readsAs_integer (expected : Shape) {low high : Int} {n : WideInt}
    (h : TextOf (integer n) text) (hlow : low ≤ n.val) (hhigh : n.val ≤ high) :
    ReadsAs (readInteger expected low high) text n.val := by
  have hskips : SkipsSpace (readInteger expected low high) := fun cs => by
    simp only [readInteger, skipSpace_skipSpace]
  cases h
  obtain ⟨c, tail, htext, hc⟩ := exists_cons_chars n.val
  have hspace : isSpace c = false := by
    rcases hc with rfl | hc
    · decide
    · exact isSpace_of_isDigit hc
  have hclose : c ≠ ']' := by
    rintro rfl
    exact absurd hc (by decide)
  refine .of_skipsSpace hskips ⟨c, tail, htext, hspace, hclose⟩ fun rest hrest => ?_
  have hnumber := readNumber_chars n hrest
  rw [htext, List.cons_append] at hnumber
  rw [htext, List.cons_append, readInteger, skipSpace_cons hspace]
  dsimp only
  rw [if_pos (by simpa using hc), hnumber]
  exact if_pos ⟨hlow, hhigh⟩

theorem readsAs_int64 {n : Int64} (h : TextOf (ofInt64 n) text) : ReadsAs readInt64 text n := by
  have hhigh := Int.le_sub_one_of_lt (Int64.toInt_lt n)
  have hread := (readsAs_integer .integer64 h (Int64.le_toInt n) hhigh).map Int64.ofInt
  rwa [Int64.ofInt_toInt] at hread

theorem readsAs_int32 {n : Int32} (h : TextOf (ofInt32 n) text) : ReadsAs readInt32 text n := by
  have hhigh := Int.le_sub_one_of_lt (Int32.toInt_lt n)
  have hread := (readsAs_integer .integer32 h (Int32.le_toInt n) hhigh).map Int32.ofInt
  rwa [Int32.ofInt_toInt] at hread

theorem readsAs_text {s : String} (h : TextOf (string s) text) : ReadsAs readText text s := by
  have hskips : SkipsSpace readText := fun cs => by
    simp only [readText, readTextAs, skipSpace_skipSpace]
  obtain ⟨tail, rfl, htail⟩ := h.exists_tail
  refine .of_skipsSpace hskips ⟨'"', tail, rfl, by decide, by decide⟩ fun rest _ => ?_
  rw [List.cons_append, readText, readTextAs, skipSpace_cons (by decide)]
  exact htail rest

theorem readsAs_variant {known : List (String × α)} {name : String} {x : α}
    (hname : known.lookup name = some x) (h : TextOf (string name) text) (depth : Nat) :
    ReadsAs (readVariant known depth) text x := by
  have hskips : SkipsSpace (readVariant known depth) := fun cs => by
    simp only [readVariant, skipSpace_skipSpace]
  obtain ⟨tail, rfl, htail⟩ := h.exists_tail
  refine .of_skipsSpace hskips ⟨'"', tail, rfl, by decide, by decide⟩ fun rest _ => ?_
  rw [List.cons_append, readVariant, skipSpace_cons (by decide)]
  simp [htail, hname, Except.bind]

/-! ### Collections -/

theorem readsAs_parameterText {v : Json} {s : String} (hv : v = string s) (h : TextOf v text) :
    ReadsAs readText text v.parameterText := by
  subst hv
  exact readsAs_text h

theorem readsAs_stringMap {m : StringMap String} (h : TextOf (ofStringMap m) text) (depth : Nat) :
    ReadsAs (readStringMap (depth + 1)) text m := by
  have hvalues : ∀ e ∈ m.entries.map (fun e => (e.1, string e.2)), ∀ {part},
      TextOf e.2 part → ReadsAs readText part e.2.parameterText := by
    intro e he part hpart
    obtain ⟨entry, -, rfl⟩ := List.mem_map.1 he
    exact readsAs_parameterText rfl hpart
  have hread : ReadsAs (readMap (fun _ => readText) (depth + 1)) text _ := h.readsAs_map hvalues
  have hmap := hread.map StringMap.ofList
  rwa [ofList_parameterTexts] at hmap

theorem readsAs_stringSet {s : StringSet} (h : TextOf (ofStringSet s) text) (depth : Nat) :
    ReadsAs (readStringSet (depth + 1)) text s := by
  have hitems : ∀ v ∈ s.toList.map string, ∀ {part},
      TextOf v part → ReadsAs readText part v.parameterText := by
    intro v hv part hpart
    obtain ⟨name, -, rfl⟩ := List.mem_map.1 hv
    exact readsAs_parameterText rfl hpart
  have hread : ReadsAs (readSequence (fun _ => readText) (depth + 1)) text _ :=
    h.readsAs_sequence hitems
  have hset := hread.map StringSet.ofList
  rwa [ofList_itemTexts] at hset

end JobConfig.Json

namespace JobConfig.CleanerLevel

theorem readsAs_readJson {level : CleanerLevel} {text : List Char}
    (h : Json.TextOf level.toJson text) (depth : Nat) :
    Json.ReadsAs (readJson depth) text level := by
  have hknown : variants.lookup level.name = some level := by
    cases level <;> decide
  exact Json.readsAs_variant hknown h depth

end JobConfig.CleanerLevel
