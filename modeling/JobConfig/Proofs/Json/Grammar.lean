import JobConfig.Json.Record

/-!
The grammar of JSON texts: which texts are values, wherever space stands
between their tokens and however deep they nest.

Arrays and objects are described by their parts. `ArrayText items` and
`ObjectText members` say how given texts of items, or of keys and values, are
put together; a value is an array of values or an object of values. The same
two relations describe the arrays and objects that a record is read from, where
the parts are not just any values.

A string may name single surrogates by their code units: the grammar allows it,
and no character needs to be made of a string that is skimmed.
-/

namespace JobConfig.Json

/-! ### Space -/

/-- Nothing but the characters between tokens. -/
def Blank (text : List Char) : Prop :=
  ∀ c ∈ text, isSpace c = true

instance (text : List Char) : Decidable (Blank text) :=
  List.decidableBAll (fun c => isSpace c = true) text

def Spaced (body text : List Char) : Prop :=
  ∃ before after, Blank before ∧ Blank after ∧ text = before ++ (body ++ after)

theorem spaced_self (body : List Char) : Spaced body body :=
  ⟨[], [], by decide, by decide, by simp⟩

/-! ### Scalars -/

def IsDigits (text : List Char) : Prop :=
  text ≠ [] ∧ ∀ c ∈ text, c.isDigit = true

/-- The digits in front of the point: no needless zero leads them. -/
inductive IsWhole : List Char → Prop
  | zero : IsWhole ['0']
  | positive {text : List Char} (hdigits : IsDigits text) (hhead : text.head? ≠ some '0') :
      IsWhole text

inductive IsFraction : List Char → Prop
  | none : IsFraction []
  | digits {text : List Char} (hdigits : IsDigits text) : IsFraction ('.' :: text)

inductive IsExponent : List Char → Prop
  | none : IsExponent []
  | digits {letter : Char} {sign text : List Char} (hletter : letter = 'e' ∨ letter = 'E')
      (hsign : sign = [] ∨ sign = ['+'] ∨ sign = ['-']) (hdigits : IsDigits text) :
      IsExponent (letter :: (sign ++ text))

/-- A number behind its sign. -/
inductive IsUnsigned : List Char → Prop
  | mk {whole fraction exponent : List Char} (hwhole : IsWhole whole)
      (hfraction : IsFraction fraction) (hexponent : IsExponent exponent) :
      IsUnsigned (whole ++ (fraction ++ exponent))

def hexDigits : List Char :=
  ['0', '1', '2', '3', '4', '5', '6', '7', '8', '9', 'a', 'b', 'c', 'd', 'e', 'f', 'A', 'B', 'C',
    'D', 'E', 'F']

/-- A string behind its opening quote. -/
inductive IsStringTail : List Char → Prop
  | close : IsStringTail ['"']
  | plain {c : Char} {tail : List Char} (hquote : c ≠ '"') (hbackslash : c ≠ '\\')
      (hcontrol : 0x20 ≤ c.toNat) (htail : IsStringTail tail) : IsStringTail (c :: tail)
  | escape {c : Char} {tail : List Char} (hc : c ∈ ['"', '\\', '/', 'b', 'f', 'n', 'r', 't'])
      (htail : IsStringTail tail) : IsStringTail ('\\' :: c :: tail)
  | codeUnit {a b c d : Char} {tail : List Char} (hdigits : ∀ x ∈ [a, b, c, d], x ∈ hexDigits)
      (htail : IsStringTail tail) : IsStringTail ('\\' :: 'u' :: a :: b :: c :: d :: tail)

def IsString (text : List Char) : Prop :=
  ∃ tail, text = '"' :: tail ∧ IsStringTail tail

/-! ### Arrays and objects -/

namespace Bracket

def opening : Bracket → Char
  | .list => '['
  | .object => '{'

end Bracket

variable {α : Type}

/-- The texts of one or more parts with commas between them. -/
inductive Separated (part : α → List Char → Prop) : List α → List Char → Prop
  | single {x : α} {text : List Char} (hpart : part x text) : Separated part [x] text
  | cons {x : α} {xs : List α} {text texts : List Char} (hpart : part x text)
      (hparts : Separated part xs texts) : Separated part (x :: xs) (text ++ ',' :: texts)

/-- What stands between two brackets: the texts of parts, or nothing but space. -/
inductive Inner (part : α → List Char → Prop) : List α → List Char → Prop
  | empty {text : List Char} (hblank : Blank text) : Inner part [] text
  | parts {xs : List α} {text : List Char} (hparts : Separated part xs text) : Inner part xs text

section Parts

variable {part : α → List Char → Prop} {text : List Char}

/-- No part is written as nothing, so there are no more of them than characters. -/
theorem Separated.length_le {xs : List α} (h : Separated part xs text)
    (hpart : ∀ x ∈ xs, ∀ text, part x text → text ≠ []) : xs.length ≤ text.length := by
  induction h with
  | single htext =>
    exact List.length_pos_iff.2 (hpart _ List.mem_cons_self _ htext)
  | cons htext _ ih =>
    have htail := ih fun x hx => hpart x (List.mem_cons_of_mem _ hx)
    simp only [List.length_append, List.length_cons]
    omega

variable {β : Type} {f : β → α} {ys : List β}

theorem Separated.of_map (h : Separated part (ys.map f) text) :
    Separated (fun y => part (f y)) ys text := by
  generalize hxs : ys.map f = xs at h
  induction h generalizing ys with
  | single hpart =>
    obtain ⟨y, rfl, rfl⟩ := List.map_eq_singleton_iff.1 hxs
    exact .single hpart
  | cons hpart _ ih =>
    obtain ⟨y, ys, rfl, rfl, hys⟩ := List.map_eq_cons_iff.1 hxs
    exact .cons hpart (ih hys)

theorem Inner.of_map (h : Inner part (ys.map f) text) : Inner (fun y => part (f y)) ys text := by
  generalize hxs : ys.map f = xs at h
  cases h with
  | empty hblank =>
    obtain rfl := List.map_eq_nil_iff.1 hxs
    exact .empty hblank
  | parts hparts =>
    subst hxs
    exact .parts hparts.of_map

end Parts

def Bracket.Encloses (bracket : Bracket) (part : α → List Char → Prop) (xs : List α)
    (text : List Char) : Prop :=
  ∃ inner, Inner part xs inner ∧ text = bracket.opening :: (inner ++ [bracket.closing])

def ArrayText : List (List Char) → List Char → Prop :=
  Bracket.list.Encloses Spaced

def MemberText (m : List Char × List Char) (text : List Char) : Prop :=
  ∃ key value, Spaced m.1 key ∧ Spaced m.2 value ∧ text = key ++ ':' :: value

def ObjectText : List (List Char × List Char) → List Char → Prop :=
  Bracket.object.Encloses MemberText

/-! ### Values -/

inductive IsValue : List Char → Prop
  | null : IsValue ['n', 'u', 'l', 'l']
  | true : IsValue ['t', 'r', 'u', 'e']
  | false : IsValue ['f', 'a', 'l', 's', 'e']
  | unsigned {text : List Char} (hnumber : IsUnsigned text) : IsValue text
  | negative {text : List Char} (hnumber : IsUnsigned text) : IsValue ('-' :: text)
  | string {text : List Char} (hstring : IsString text) : IsValue text
  | array {items : List (List Char)} {text : List Char} (htext : ArrayText items text)
      (hitems : ∀ item ∈ items, IsValue item) : IsValue text
  | object {members : List (List Char × List Char)} {text : List Char}
      (htext : ObjectText members text) (hkeys : ∀ m ∈ members, IsString m.1)
      (hvalues : ∀ m ∈ members, IsValue m.2) : IsValue text

end JobConfig.Json
