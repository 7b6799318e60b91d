import JobConfig.Proofs.Json.Collection
import JobConfig.Proofs.StringMap

/-!
The texts of a value: strings may be spelled in any way and arrays and objects
spaced in any way, at any depth. The compact text is one of them.
-/

namespace JobConfig.Json

/-- The text writes the value, with the members of its objects in their order. -/
inductive TextOf : Json → List Char → Prop
  | null : TextOf .null ['n', 'u', 'l', 'l']
  | bool (b : Bool) : TextOf (.bool b) (boolChars b)
  | integer (n : WideInt) : TextOf (.integer n) (Integer.chars n.val)
  | float (x : Binary64) : TextOf (.float x) (floatLayout.chars x)
  | string {s : String} {text : List Char} (htext : Spells text s) : TextOf (.string s) text
  | array {parts : List (Json × List Char)} {text : List Char}
      (htext : ArrayText (parts.map Prod.snd) text) (hparts : ∀ p ∈ parts, TextOf p.1 p.2) :
      TextOf (.array (parts.map Prod.fst)) text
  | object {parts : List (String × Json × List Char)} {text : List Char}
      (htext : RecordText (parts.map fun p => (p.1, p.2.2)) text)
      (hparts : ∀ p ∈ parts, TextOf p.2.1 p.2.2) :
      TextOf (.object (parts.map fun p => (p.1, p.2.1))) text

section Parts

variable {text : List Char}

theorem TextOf.exists_tail {s : String} (h : TextOf (.string s) text) :
    ∃ tail, text = '"' :: tail ∧ ∀ rest, readString (tail ++ rest) = .ok (s, rest) := by
  cases h with
  | string htext => exact htext.exists_tail

theorem TextOf.exists_items {items : List Json} (h : TextOf (.array items) text) :
    ∃ parts : List (Json × List Char), parts.map Prod.fst = items ∧
      ArrayText (parts.map Prod.snd) text ∧ ∀ p ∈ parts, TextOf p.1 p.2 := by
  cases h with
  | array htext hparts => exact ⟨_, rfl, htext, hparts⟩

theorem TextOf.exists_members {members : List (String × Json)} (h : TextOf (.object members) text) :
    ∃ parts : List (String × Json × List Char), (parts.map fun p => (p.1, p.2.1)) = members ∧
      RecordText (parts.map fun p => (p.1, p.2.2)) text ∧ ∀ p ∈ parts, TextOf p.2.1 p.2.2 := by
  cases h with
  | object htext hparts => exact ⟨_, rfl, htext, hparts⟩

end Parts

/-! ### Compact texts -/

theorem separated_itemsChars (x : Json) (items : List Json) :
    ∃ inner, Separated Spaced ((x :: items).map chars) inner ∧
      x.chars ++ itemsChars items = inner ++ [']'] := by
  induction items generalizing x with
  | nil => exact ⟨_, .single (spaced_self x.chars), by simp [itemsChars]⟩
  | cons y items ih =>
    obtain ⟨inner, hinner, htext⟩ := ih y
    refine ⟨_, .cons (spaced_self x.chars) hinner, ?_⟩
    simp [itemsChars, htext]

theorem arrayText_chars (items : List Json) :
    ArrayText (items.map chars) (array items).chars := by
  cases items with
  | nil => exact ⟨[], .empty (by decide), by rw [chars]; rfl⟩
  | cons x items =>
    obtain ⟨inner, hinner, htext⟩ := separated_itemsChars x items
    exact ⟨inner, .parts hinner, by rw [chars, htext]; rfl⟩

theorem namedText_chars (name : String) (v : Json) :
    NamedText (name, v.chars) (quotedChars name.toList ++ ':' :: v.chars) :=
  ⟨_, spells_quotedChars name, _, _, spaced_self _, spaced_self _, rfl⟩

theorem separated_membersChars (m : String × Json) (members : List (String × Json)) :
    ∃ inner, Separated NamedText ((m :: members).map fun m => (m.1, m.2.chars)) inner ∧
      quotedChars m.1.toList ++ ':' :: (m.2.chars ++ membersChars members) = inner ++ ['}'] := by
  induction members generalizing m with
  | nil => exact ⟨_, .single (namedText_chars m.1 m.2), by simp [membersChars]⟩
  | cons n members ih =>
    obtain ⟨inner, hinner, htext⟩ := ih n
    refine ⟨_, .cons (namedText_chars m.1 m.2) hinner, ?_⟩
    simp [membersChars, htext]

theorem recordText_chars (members : List (String × Json)) :
    RecordText (members.map fun m => (m.1, m.2.chars)) (object members).chars := by
  cases members with
  | nil => exact ⟨[], .empty (by decide), by rw [chars]; rfl⟩
  | cons m members =>
    obtain ⟨inner, hinner, htext⟩ := separated_membersChars m members
    exact ⟨inner, .parts hinner, by rw [chars, htext]; rfl⟩

/-- The compact text of a value is one of its texts. -/
theorem textOf_chars (v : Json) : TextOf v v.chars := by
  cases v with
  | null => rw [chars]; exact .null
  | bool b => rw [chars]; exact .bool b
  | integer n => rw [chars]; exact .integer n
  | float x => rw [chars]; exact .float x
  | string s => rw [chars]; exact .string (spells_quotedChars s)
  | array items =>
    let parts := items.map fun x => (x, x.chars)
    have hitems : parts.map Prod.fst = items := by simp [parts, Function.comp_def]
    have htext : ArrayText (parts.map Prod.snd) (array items).chars := by
      simpa [parts, Function.comp_def] using arrayText_chars items
    have hparts : ∀ p ∈ parts, TextOf p.1 p.2 := by
      intro p hp
      obtain ⟨x, hx, rfl⟩ := List.mem_map.1 hp
      exact textOf_chars x
    have harray := TextOf.array htext hparts
    rwa [hitems] at harray
  | object members =>
    let parts := members.map fun m => (m.1, m.2, m.2.chars)
    have hmembers : (parts.map fun p => (p.1, p.2.1)) = members := by
      simp [parts, Function.comp_def]
    have htext : RecordText (parts.map fun p => (p.1, p.2.2)) (object members).chars := by
      simpa [parts, Function.comp_def] using recordText_chars members
    have hparts : ∀ p ∈ parts, TextOf p.2.1 p.2.2 := by
      intro p hp
      obtain ⟨m, hm, rfl⟩ := List.mem_map.1 hp
      exact textOf_chars m.2
    have hobject := TextOf.object htext hparts
    rwa [hmembers] at hobject
termination_by sizeOf v
decreasing_by
  · have hlt := List.sizeOf_lt_of_mem hx
    simp only [array.sizeOf_spec]
    omega
  · have hlt := List.sizeOf_lt_of_mem hm
    obtain ⟨name, w⟩ := m
    simp only [Prod.mk.sizeOf_spec, object.sizeOf_spec] at hlt ⊢
    omega

/-! ### Reading -/

variable {α : Type}

theorem skipsSpace_value (depth : Nat) : SkipsSpace (readValue depth) := fun cs => by
  cases depth <;> simp only [readValue, readValueWith, skipSpace_skipSpace]

section Reading

variable {text : List Char} {depth : Nat} {f : Json → α}

/-- An array is read item by item from any of its texts, if its items are read
from theirs. -/
theorem TextOf.readSequence_eq {items : List Json} (h : TextOf (.array items) text)
    {item : DeepRead α}
    (hitems : ∀ v ∈ items, ∀ {part}, TextOf v part → ReadsAs (item depth) part (f v))
    (rest : List Char) :
    readSequence item (depth + 1) (text ++ rest) = .ok (items.map f, rest) := by
  obtain ⟨parts, rfl, htext, htexts⟩ := h.exists_items
  let read := parts.map fun p => (p.2, f p.1)
  have htext : ArrayText (read.map Prod.fst) text := by
    simpa [read, Function.comp_def] using htext
  have hread : ∀ q ∈ read, ReadsAs (item depth) q.1 q.2 := by
    intro q hq
    obtain ⟨p, hp, rfl⟩ := List.mem_map.1 hq
    exact hitems p.1 (List.mem_map_of_mem hp) (htexts p hp)
  rw [readSequence_text htext hread]
  simp [read, Function.comp_def]

/-- An object is read member by member from any of its texts, if its values are
read from theirs. -/
theorem TextOf.readMap_eq {members : List (String × Json)} (h : TextOf (.object members) text)
    {value : DeepRead α}
    (hvalues : ∀ m ∈ members, ∀ {part}, TextOf m.2 part → ReadsAs (value depth) part (f m.2))
    (rest : List Char) :
    readMap value (depth + 1) (text ++ rest) = .ok (members.map fun m => (m.1, f m.2), rest) := by
  obtain ⟨parts, rfl, htext, htexts⟩ := h.exists_members
  let read := parts.map fun p => (p.1, p.2.2, f p.2.1)
  have htext : RecordText (read.map fun m => (m.1, m.2.1)) text := by
    simpa [read, Function.comp_def] using htext
  have hread : ∀ q ∈ read, ReadsAs (value depth) q.2.1 q.2.2 := by
    intro q hq
    obtain ⟨p, hp, rfl⟩ := List.mem_map.1 hq
    exact hvalues _ (List.mem_map_of_mem hp) (htexts p hp)
  rw [readMap_text htext hread]
  simp [read, Function.comp_def]

theorem TextOf.startsPart_array {items : List Json} (h : TextOf (.array items) text) :
    StartsPart text := by
  obtain ⟨parts, -, htext, -⟩ := h.exists_items
  exact startsPart_encloses htext

theorem TextOf.startsPart_object {members : List (String × Json)}
    (h : TextOf (.object members) text) : StartsPart text := by
  obtain ⟨parts, -, htext, -⟩ := h.exists_members
  exact startsPart_encloses htext

theorem TextOf.readsAs_sequence {items : List Json} (h : TextOf (.array items) text)
    {item : DeepRead α}
    (hitems : ∀ v ∈ items, ∀ {part}, TextOf v part → ReadsAs (item depth) part (f v)) :
    ReadsAs (readSequence item (depth + 1)) text (items.map f) := by
  have hskips : SkipsSpace (readSequence item (depth + 1)) := fun cs => by
    simp only [readSequence, skipSpace_skipSpace]
  exact .of_skipsSpace hskips h.startsPart_array fun rest _ => h.readSequence_eq hitems rest

theorem TextOf.readsAs_map {members : List (String × Json)} (h : TextOf (.object members) text)
    {value : DeepRead α}
    (hvalues : ∀ m ∈ members, ∀ {part}, TextOf m.2 part → ReadsAs (value depth) part (f m.2)) :
    ReadsAs (readMap value (depth + 1)) text (members.map fun m => (m.1, f m.2)) := by
  have hskips : SkipsSpace (readMap value (depth + 1)) := fun cs => by
    simp only [readMap, skipSpace_skipSpace]
  exact .of_skipsSpace hskips h.startsPart_object fun rest _ => h.readMap_eq hvalues rest

end Reading

theorem readsAs_string {s : String} {text : List Char} (h : TextOf (string s) text)
    (depth : Nat) : ReadsAs (readValue depth) text (string s) := by
  obtain ⟨tail, rfl, htail⟩ := h.exists_tail
  refine .of_skipsSpace (skipsSpace_value depth) ⟨'"', tail, rfl, by decide, by decide⟩ ?_
  intro rest _
  cases depth <;>
    simp [readValue, readValueWith, skipSpace_cons, isSpace, htail, Except.map]

/-! ### Collections of strings

The values are read as strings, and a string stands for itself. -/

theorem ofList_parameterTexts (m : StringMap String) :
    StringMap.ofList ((m.entries.map fun e => (e.1, string e.2)).map
      fun e => (e.1, e.2.parameterText)) = m := by
  simp [Function.comp_def, parameterText]

theorem ofList_itemTexts (s : StringSet) :
    StringSet.ofList ((s.toList.map string).map parameterText) = s := by
  simp [Function.comp_def, parameterText]

/-! ### Whole texts -/

/-- The text is one of those of the value, with any space around it. -/
def Written (v : Json) (text : String) : Prop :=
  ∃ body, TextOf v body ∧ Spaced body text.toList

/-- A reader that takes all of a text reads the whole text. -/
theorem readAll_text {read : Read α} {v : Json} {x : α} (h : read v.chars = .ok (x, [])) :
    readAll read v.text = .ok x := by
  simp [readAll, text, h, skipSpace]

theorem spaced_text (v : Json) : Spaced v.chars v.text.toList := by
  rw [text, String.toList_ofList]
  exact spaced_self v.chars

theorem written_text (v : Json) : v.Written v.text :=
  ⟨v.chars, textOf_chars v, spaced_text v⟩

end JobConfig.Json
