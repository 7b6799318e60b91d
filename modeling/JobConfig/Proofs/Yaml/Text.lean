import JobConfig.Proofs.Except
import JobConfig.Proofs.Json.Nested
import JobConfig.Proofs.StringMap
import JobConfig.Yaml.Value
import Mathlib.Data.List.Forall2

/-!
The texts of YAML values, told without their JSON form.

A value is turned into a JSON value, which is then written out. The same text
comes of writing the value out at once (`compactChars`), whatever the value is.
Values that are plain have a JSON form, which nests as deep as they do.
-/

namespace JobConfig

namespace Json

def enclosed (opening closing : Char) (texts : List (List Char)) : List Char :=
  opening :: ([','].intercalate texts ++ [closing])

def memberChars (m : String × List Char) : List Char :=
  quotedChars m.1.toList ++ ':' :: m.2

theorem itemsChars_eq (x : Json) (rest : List Json) :
    x.chars ++ itemsChars rest = [','].intercalate ((x :: rest).map chars) ++ [']'] := by
  induction rest generalizing x with
  | nil => simp [itemsChars]
  | cons y rest ih =>
    rw [itemsChars, ih]
    simp [List.intercalate_cons_cons]

theorem chars_array (items : List Json) :
    (array items).chars = enclosed '[' ']' (items.map chars) := by
  cases items with
  | nil => rfl
  | cons x rest => rw [chars, itemsChars_eq, enclosed]

theorem membersChars_eq (m : String × Json) (rest : List (String × Json)) :
    quotedChars m.1.toList ++ ':' :: (m.2.chars ++ membersChars rest) =
      [','].intercalate ((m :: rest).map fun m => memberChars (m.1, m.2.chars)) ++ ['}'] := by
  induction rest generalizing m with
  | nil => simp [membersChars, memberChars]
  | cons n rest ih =>
    rw [membersChars, ih]
    simp [memberChars, List.intercalate_cons_cons]

theorem chars_object (members : List (String × Json)) :
    (object members).chars =
      enclosed '{' '}' (members.map fun m => memberChars (m.1, m.2.chars)) := by
  cases members with
  | nil => rfl
  | cons m rest => rw [chars, membersChars_eq, enclosed]

end Json

namespace Yaml.Value

mutual

/-- The compact text of a value: the entries of a mapping in ascending order of
the texts of their keys, of several with one such text the last one only. -/
def compactChars : Value → List Char
  | null => ['n', 'u', 'l', 'l']
  | bool b => Json.boolChars b
  | integer n => Integer.chars n.val
  | float (.finite x) => Json.floatLayout.chars x
  | float _ => ['n', 'u', 'l', 'l']
  | string s => Json.quotedChars s.toList
  | sequence items => Json.enclosed '[' ']' (itemTexts items)
  | mapping entries =>
    Json.enclosed '{' '}' ((StringMap.ofList (entryTexts entries)).entries.map Json.memberChars)
  | tagged tag v => Json.enclosed '{' '}' [Json.memberChars ("!" ++ tag, v.compactChars)]

def itemTexts : List Value → List (List Char)
  | [] => []
  | x :: rest => x.compactChars :: itemTexts rest

def entryTexts : List (Value × Value) → List (String × List Char)
  | [] => []
  | (k, v) :: rest =>
    match k.keyText with
    | .ok k => (k, v.compactChars) :: entryTexts rest
    | .error _ => entryTexts rest

end

/-- The text that stands for a value: a string stands for itself, any other value
for its compact text. -/
def plainText : Value → String
  | string s => s
  | v => String.ofList v.compactChars

/-! ### The JSON form of collections -/

theorem itemsToJson_cons (x : Value) (rest : List Value) :
    itemsToJson (x :: rest) = x.toJson >>= fun j => (itemsToJson rest).map (j :: ·) := by
  rw [itemsToJson]
  cases x.toJson <;> rfl

theorem itemsToJson_eq_ok_iff {items : List Value} {js : List Json} :
    itemsToJson items = .ok js ↔ List.Forall₂ (fun x j => x.toJson = .ok j) items js := by
  induction items generalizing js with
  | nil => simp [itemsToJson, eq_comm]
  | cons x rest ih =>
    simp only [itemsToJson_cons, bind_eq_ok_iff, map_eq_ok_iff, ih, List.forall₂_cons_left_iff]
    grind

theorem entriesToJson_cons (e : Value × Value) (rest : List (Value × Value)) :
    entriesToJson (e :: rest) = e.1.keyText >>= fun k => e.2.toJson >>= fun j =>
      (entriesToJson rest).map ((k, j) :: ·) := by
  rw [entriesToJson]
  cases e.1.keyText with
  | error fault => rfl
  | ok k => cases e.2.toJson <;> rfl

theorem entriesToJson_eq_ok_iff {entries : List (Value × Value)} {ms : List (String × Json)} :
    entriesToJson entries = .ok ms ↔
      List.Forall₂ (fun e m => e.1.keyText = .ok m.1 ∧ e.2.toJson = .ok m.2) entries ms := by
  induction entries generalizing ms with
  | nil => simp [entriesToJson, eq_comm]
  | cons e rest ih =>
    simp only [entriesToJson_cons, bind_eq_ok_iff, map_eq_ok_iff, ih, List.forall₂_cons_left_iff,
      Prod.exists]
    grind

/-! ### The text of the JSON form -/

mutual

/-- The JSON form of a value has the compact text of the value. -/
theorem chars_of_toJson {v : Value} {j : Json} (h : v.toJson = .ok j) :
    j.chars = v.compactChars := by
  cases v with
  | null => cases h; rfl
  | bool b => cases h; rfl
  | integer n => cases h; rfl
  | float x =>
    cases x <;> cases h <;> rfl
  | string s => cases h; rfl
  | sequence items =>
    obtain ⟨js, hjs, rfl⟩ := map_eq_ok_iff.1 h
    rw [Json.chars_array, chars_of_itemsToJson hjs, compactChars]
  | mapping entries =>
    obtain ⟨ms, hms, rfl⟩ := map_eq_ok_iff.1 h
    rw [Json.ofMembers, Json.chars_object, compactChars, ← chars_of_entriesToJson hms,
      StringMap.ofList_map_values, StringMap.mapValues, List.map_map]
    rfl
  | tagged tag value =>
    obtain ⟨j, hj, rfl⟩ := map_eq_ok_iff.1 h
    rw [Json.chars_object, compactChars, ← chars_of_toJson hj]
    rfl

theorem chars_of_itemsToJson {items : List Value} {js : List Json}
    (h : itemsToJson items = .ok js) : js.map Json.chars = itemTexts items := by
  cases items with
  | nil => cases h; rfl
  | cons x rest =>
    rw [itemsToJson_cons, bind_eq_ok_iff] at h
    obtain ⟨j, hj, h⟩ := h
    obtain ⟨js, hjs, rfl⟩ := map_eq_ok_iff.1 h
    rw [List.map_cons, chars_of_toJson hj, chars_of_itemsToJson hjs, itemTexts]

theorem chars_of_entriesToJson {entries : List (Value × Value)} {ms : List (String × Json)}
    (h : entriesToJson entries = .ok ms) :
    ms.map (fun m => (m.1, m.2.chars)) = entryTexts entries := by
  cases entries with
  | nil => cases h; rfl
  | cons e rest =>
    obtain ⟨k, v⟩ := e
    simp only [entriesToJson_cons, bind_eq_ok_iff, map_eq_ok_iff] at h
    obtain ⟨key, hkey, j, hj, ms, hms, rfl⟩ := h
    simp only [entryTexts, hkey]
    rw [List.map_cons, chars_of_toJson hj, chars_of_entriesToJson hms]

end

/-- A string is never quoted on the way, and anything else is written out once. -/
theorem parameterText_of_toJson {v : Value} {j : Json} (h : v.toJson = .ok j) :
    j.parameterText = v.plainText := by
  have hchars := chars_of_toJson h
  cases v with
  | null => cases h; rfl
  | bool b => cases h; rfl
  | integer n => cases h; rfl
  | float x => cases x <;> cases h <;> rfl
  | string s => cases h; rfl
  | sequence items =>
    obtain ⟨js, -, rfl⟩ := map_eq_ok_iff.1 h
    exact congrArg String.ofList hchars
  | mapping entries =>
    obtain ⟨ms, -, rfl⟩ := map_eq_ok_iff.1 h
    exact congrArg String.ofList hchars
  | tagged tag value =>
    obtain ⟨j, -, rfl⟩ := map_eq_ok_iff.1 h
    exact congrArg String.ofList hchars

end Yaml.Value

end JobConfig
