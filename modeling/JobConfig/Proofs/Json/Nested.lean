import JobConfig.Proofs.Json.Shape

/-!
Values of any shape: each text of a value, the compact one among them, is read
back as that value, as long as it holds no floats and nests no deeper than the
reader goes.

Floats are left out because reading does not always round to the nearest number.
-/

namespace JobConfig.Json

/-- A value without floats that nests at most so many levels of arrays and
objects. An object is a map: its members ascend in their keys. -/
inductive Within : Nat → Json → Prop
  | null {depth : Nat} : Within depth .null
  | bool {depth : Nat} (b : Bool) : Within depth (.bool b)
  | integer {depth : Nat} (n : WideInt) : Within depth (.integer n)
  | string {depth : Nat} (s : String) : Within depth (.string s)
  | array {depth : Nat} {items : List Json} (hitems : ∀ x ∈ items, Within depth x) :
      Within (depth + 1) (.array items)
  | object {depth : Nat} (m : StringMap Json) (hvalues : ∀ e ∈ m.entries, Within depth e.2) :
      Within (depth + 1) (.object m.entries)

theorem Within.mono {depth : Nat} {v : Json} (h : v.Within depth) {depth' : Nat}
    (hle : depth ≤ depth') : v.Within depth' := by
  induction h generalizing depth' with
  | null => exact .null
  | bool b => exact .bool b
  | integer n => exact .integer n
  | string s => exact .string s
  | array _ ih =>
    obtain ⟨depth', rfl⟩ := Nat.exists_eq_succ_of_ne_zero (Nat.ne_zero_of_lt hle)
    exact .array fun x hx => ih x hx (Nat.le_of_succ_le_succ hle)
  | object m _ ih =>
    obtain ⟨depth', rfl⟩ := Nat.exists_eq_succ_of_ne_zero (Nat.ne_zero_of_lt hle)
    exact .object m fun e he => ih e he (Nat.le_of_succ_le_succ hle)

theorem Within.values {depth : Nat} {members : List (String × Json)}
    (h : (Json.object members).Within (depth + 1)) : ∀ m ∈ members, m.2.Within depth := by
  cases h with
  | object m hvalues => exact hvalues

theorem Within.ascending {depth : Nat} {members : List (String × Json)}
    (h : (Json.object members).Within depth) : members.Pairwise (fun a b => a.1 < b.1) := by
  cases h with
  | object m _ => exact m.ascending

/-! ### Reading -/

/-- A text that is read as a value whatever stands behind it. -/
theorem readsAs_letters {depth : Nat} {c : Char} {tail : List Char} {v : Json}
    (hspace : isSpace c = false) (hclose : c ≠ ']')
    (hread : ∀ rest, readValue depth (c :: (tail ++ rest)) = .ok (v, rest)) :
    ReadsAs (readValue depth) (c :: tail) v :=
  .of_skipsSpace (skipsSpace_value depth) ⟨c, tail, rfl, hspace, hclose⟩ fun rest _ => hread rest

theorem readsAs_integerValue (depth : Nat) (n : WideInt) :
    ReadsAs (readValue depth) (integer n).chars (integer n) := by
  obtain ⟨c, tail, htext, hc⟩ := exists_cons_chars n.val
  have hspace : isSpace c = false := by
    rcases hc with rfl | hc
    · decide
    · exact isSpace_of_isDigit hc
  have hother : ∀ d ∈ ['n', 't', 'f', '"', '[', '{', ']'], c ≠ d := by
    rcases hc with rfl | hc
    · simp
    · exact forall_ne_of_isDigit hc (by decide)
  simp only [List.forall_mem_cons, List.not_mem_nil, false_implies, implies_true] at hother
  obtain ⟨hn, ht, hf, hquote, hlist, hobject, hclose, -⟩ := hother
  rw [chars]
  refine .of_skipsSpace (skipsSpace_value depth) ⟨c, tail, htext, hspace, hclose⟩ ?_
  intro rest hrest
  have hnumber := readNumber_chars n hrest
  rw [htext, List.cons_append] at hnumber ⊢
  have hhead : (decide (c = '-') || c.isDigit) = true := by simpa using hc
  cases depth <;>
    simp only [readValue, readValueWith, skipSpace_cons hspace, if_neg hn, if_neg ht, if_neg hf,
      if_neg hquote, if_neg hlist, if_neg hobject, hhead, if_true, hnumber, Except.map,
      Numeral.toJson]

/-- A value is read back from any of its texts, wherever that stands as a part. -/
theorem readsAs_textOf {depth : Nat} {v : Json} (h : v.Within depth) {text : List Char}
    (htext : TextOf v text) : ReadsAs (readValue depth) text v := by
  induction h generalizing text with
  | @null depth =>
    cases htext
    exact readsAs_letters (by decide) (by decide) fun rest => by cases depth <;> rfl
  | @bool depth b =>
    cases htext
    cases b <;>
      exact readsAs_letters (by decide) (by decide) fun rest => by cases depth <;> rfl
  | @integer depth n =>
    cases htext
    have hread := readsAs_integerValue depth n
    rwa [chars] at hread
  | string s => exact readsAs_string htext _
  | @array depth items _ ih =>
    refine .of_skipsSpace (skipsSpace_value _) htext.startsPart_array fun rest _ => ?_
    have hread := htext.readSequence_eq ih rest
    rw [List.map_id'] at hread
    obtain ⟨_, -, ⟨inner, -, rfl⟩, -⟩ := htext.exists_items
    exact congrArg (Except.map fun r => (array r.1, r.2)) hread
  | @object depth m _ ih =>
    refine .of_skipsSpace (skipsSpace_value _) htext.startsPart_object fun rest _ => ?_
    have hread := htext.readMap_eq (f := fun v => v) ih rest
    rw [List.map_id'] at hread
    obtain ⟨_, -, ⟨inner, -, rfl⟩, -⟩ := htext.exists_members
    have hvalue := congrArg (Except.map fun r => (ofMembers r.1, r.2)) hread
    simp only [Except.map, ofMembers, StringMap.ofList_entries] at hvalue
    exact hvalue

/-- A value is read back from its compact text. -/
theorem parse_text {v : Json} (h : v.Within maxDepth) : parse v.text = .ok v :=
  readAll_spaced (readsAs_textOf h (textOf_chars v)) (spaced_text v)

end JobConfig.Json
