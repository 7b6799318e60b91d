import JobConfig.Proofs.Json.Grammar
import JobConfig.Proofs.Json.Quoted

/-!
Arrays and objects: a text that is put together of parts is read back part by
part, with any space between the tokens.

Readers see a text together with all that follows it. A part is followed by
space, a comma, a closing bracket or nothing, and this is all that the reader
of a part may rely on (`EndsPart`); so a reader of numbers, which has to look
one character ahead, fits here just as a reader of strings does.
-/

namespace JobConfig.Json

variable {α : Type}

/-! ### Space -/

theorem skipSpace_cons {c : Char} (h : isSpace c = false) (cs : List Char) :
    skipSpace (c :: cs) = c :: cs := by
  simp [skipSpace, h]

theorem skipSpace_blank {blank : List Char} (h : Blank blank) (cs : List Char) :
    skipSpace (blank ++ cs) = skipSpace cs :=
  List.dropWhile_append_of_pos h

theorem skipSpace_skipSpace (cs : List Char) : skipSpace (skipSpace cs) = skipSpace cs := by
  induction cs with
  | nil => rfl
  | cons c cs ih =>
    by_cases h : isSpace c = true
    · simpa [skipSpace, h] using ih
    · simp [skipSpace, h]

theorem readColon_blank {blank : List Char} (h : Blank blank) (rest : List Char) :
    readColon (blank ++ ':' :: rest) = .ok rest := by
  rw [readColon, skipSpace_blank h, skipSpace_cons (by decide)]
  rfl

/-! ### Parts -/

def EndsPart (rest : List Char) : Prop :=
  ∀ c ∈ rest.head?, isSpace c = true ∨ c = ',' ∨ c = ']' ∨ c = '}'

/-- A text that starts like a part: neither blank nor with the end of an array. -/
def StartsPart (text : List Char) : Prop :=
  ∃ c tail, text = c :: tail ∧ isSpace c = false ∧ c ≠ ']'

theorem StartsPart.ne_nil {body text : List Char} (hbody : StartsPart body)
    (htext : Spaced body text) : text ≠ [] := by
  obtain ⟨c, tail, rfl, -, -⟩ := hbody
  obtain ⟨before, after, -, -, rfl⟩ := htext
  simp

theorem startsPart_encloses {bracket : Bracket} {β : Type} {part : β → List Char → Prop}
    {xs : List β} {text : List Char} (h : bracket.Encloses part xs text) : StartsPart text := by
  obtain ⟨inner, -, rfl⟩ := h
  cases bracket <;> exact ⟨_, _, rfl, by decide, by decide⟩

/-- `read` takes `text` for `x` wherever it stands as a part of an array or an
object, with any space in front of it. -/
structure ReadsAs (read : Read α) (text : List Char) (x : α) : Prop where
  starts : StartsPart text
  reads : ∀ {before rest : List Char}, Blank before → EndsPart rest →
    read (before ++ (text ++ rest)) = .ok (x, rest)

theorem EndsPart.blank {blank rest : List Char} (hblank : Blank blank) (h : EndsPart rest) :
    EndsPart (blank ++ rest) := by
  cases blank with
  | nil => exact h
  | cons c blank =>
    intro d hd
    obtain rfl : c = d := by simpa using hd
    exact .inl (hblank c List.mem_cons_self)

theorem endsPart_closing (bracket : Bracket) (rest : List Char) :
    EndsPart (bracket.closing :: rest) := by
  cases bracket <;> simp [EndsPart, Bracket.closing]

theorem endsPart_comma (rest : List Char) : EndsPart (',' :: rest) := by
  simp [EndsPart]

def SkipsSpace (read : Read α) : Prop :=
  ∀ cs, read (skipSpace cs) = read cs

section Readers

variable {read : Read α} {text : List Char} {x : α}

theorem ReadsAs.of_skipsSpace (hskips : SkipsSpace read) (hstarts : StartsPart text)
    (hreads : ∀ rest, EndsPart rest → read (text ++ rest) = .ok (x, rest)) :
    ReadsAs read text x where
  starts := hstarts
  reads hbefore hrest := by rw [← hskips, skipSpace_blank hbefore, hskips, hreads _ hrest]

theorem ReadsAs.reads_front (h : ReadsAs read text x) {rest : List Char} (hrest : EndsPart rest) :
    read (text ++ rest) = .ok (x, rest) := by
  have hblank : Blank [] := by simp [Blank]
  exact h.reads hblank hrest

theorem ReadsAs.map {β : Type} (h : ReadsAs read text x) (f : α → β) :
    ReadsAs (fun cs => (read cs).map fun r => (f r.1, r.2)) text (f x) where
  starts := h.starts
  reads hbefore hrest := by
    rw [h.reads hbefore hrest]
    rfl

/-- A reader reads a whole text of a value with space around it. -/
theorem readAll_spaced (hread : ReadsAs read text x) {whole : String}
    (hwhole : Spaced text whole.toList) : readAll read whole = .ok x := by
  obtain ⟨before, after, hbefore, hafter, hwhole⟩ := hwhole
  have hends : EndsPart after := by
    intro c hc
    exact .inl (hafter c (List.mem_of_mem_head? hc))
  have hspace : skipSpace after = [] := by
    simpa [skipSpace] using skipSpace_blank hafter []
  rw [readAll, hwhole, hread.reads hbefore hends]
  simp [hspace]

end Readers

/-- What stands between two parts: nothing in front of the first one, a comma
in front of the others. -/
def lead (first : Bool) (cs : List Char) : List Char :=
  if first then cs else ',' :: cs

/-! ### Arrays -/

theorem nextItem_lead (first : Bool) {before item : List Char} (hbefore : Blank before)
    (hitem : StartsPart item) (rest : List Char) :
    nextItem first (lead first (before ++ (item ++ rest))) = .ok (true, item ++ rest) := by
  obtain ⟨c, tail, rfl, hspace, hclose⟩ := hitem
  cases first with
  | true =>
    change nextItem true (before ++ (c :: tail ++ rest)) = _
    rw [nextItem, skipSpace_blank hbefore, List.cons_append, skipSpace_cons hspace]
    dsimp only
    rw [if_neg hclose, if_pos rfl]
  | false =>
    change nextItem false (',' :: (before ++ (c :: tail ++ rest))) = _
    rw [nextItem, skipSpace_cons (by decide)]
    dsimp only
    rw [if_neg (by decide), if_neg (by decide), if_pos rfl, skipSpace_blank hbefore,
      List.cons_append, skipSpace_cons hspace]
    dsimp only
    rw [if_neg hclose]

theorem readItems_closing (item : Read α) (bound : Nat) (first : Bool) (rest : List Char) :
    readItems item (bound + 1) first (']' :: rest) = .ok ([], rest) := by
  have hitem : nextItem first (']' :: rest) = .ok (false, rest) := rfl
  rw [readItems, hitem]

theorem readItems_blank (item : Read α) (bound : Nat) (first : Bool) {blank : List Char}
    (hblank : Blank blank) (cs : List Char) :
    readItems item bound first (blank ++ cs) = readItems item bound first cs := by
  cases bound with
  | zero => rfl
  | succ bound => rw [readItems, readItems, nextItem, nextItem, skipSpace_blank hblank]

theorem readItems_item {item : Read α} {itemText text : List Char} {x : α}
    (htext : Spaced itemText text) (hitem : ReadsAs item itemText x) (bound : Nat) (first : Bool)
    {rest : List Char} (hrest : EndsPart rest) :
    readItems item (bound + 1) first (lead first (text ++ rest)) =
      (readItems item bound false rest).map fun r => (x :: r.1, r.2) := by
  obtain ⟨before, after, hbefore, hafter, rfl⟩ := htext
  rw [List.append_assoc, List.append_assoc, readItems, nextItem_lead first hbefore hitem.starts]
  dsimp only
  rw [hitem.reads_front (hrest.blank hafter)]
  dsimp only
  rw [readItems_blank item bound false hafter]

/-- Items with commas between them are read up to the closing bracket. -/
theorem readItems_separated {item : Read α} {items : List (List Char × α)} {inner : List Char}
    (hinner : Separated (fun p => Spaced p.1) items inner)
    (hitems : ∀ p ∈ items, ReadsAs item p.1 p.2) {bound : Nat} (hbound : items.length < bound)
    (first : Bool) (rest : List Char) :
    readItems item bound first (lead first (inner ++ ']' :: rest)) =
      .ok (items.map Prod.snd, rest) := by
  induction hinner generalizing bound first with
  | @single p text htext =>
    obtain ⟨bound, rfl⟩ : ∃ n, bound = n + 2 := Nat.exists_eq_add_of_le' hbound
    have hclosing : EndsPart (']' :: rest) := endsPart_closing .list rest
    rw [readItems_item htext (hitems p List.mem_cons_self) (bound + 1) first hclosing,
      readItems_closing]
    rfl
  | @cons p items text texts htext _ ih =>
    obtain ⟨bound, rfl⟩ := Nat.exists_eq_succ_of_ne_zero (Nat.ne_zero_of_lt hbound)
    have htail : readItems item bound false (',' :: (texts ++ ']' :: rest)) =
        .ok (items.map Prod.snd, rest) :=
      ih (fun q hq => hitems q (List.mem_cons_of_mem _ hq)) (Nat.lt_of_succ_lt_succ hbound) false
    rw [List.append_assoc, List.cons_append,
      readItems_item htext (hitems p List.mem_cons_self) bound first (endsPart_comma _), htail]
    rfl

/-- An array is read back as the list of its items, however they are spaced. -/
theorem readSequence_text {item : DeepRead α} {depth : Nat} {items : List (List Char × α)}
    {text : List Char} (htext : ArrayText (items.map Prod.fst) text)
    (hitems : ∀ p ∈ items, ReadsAs (item depth) p.1 p.2) (rest : List Char) :
    readSequence item (depth + 1) (text ++ rest) = .ok (items.map Prod.snd, rest) := by
  obtain ⟨inner, hinner, rfl⟩ := htext
  rw [List.cons_append, List.append_assoc, List.singleton_append, readSequence,
    skipSpace_cons (by decide)]
  change readItems (item depth) _ true (inner ++ ']' :: rest) = _
  cases hinner.of_map with
  | empty hblank =>
    rw [readItems_blank _ _ _ hblank, List.length_append, List.length_cons, ← Nat.add_assoc]
    exact readItems_closing (item depth) _ true rest
  | parts hparts =>
    have hlength := hparts.length_le fun p hp text htext => (hitems p hp).starts.ne_nil htext
    refine readItems_separated hparts hitems ?_ true rest
    rw [List.length_append, List.length_cons]
    omega

/-! ### Objects -/

/-- The member of a name, however it is spelled, and a value with the given text. -/
def NamedText (m : String × List Char) (text : List Char) : Prop :=
  ∃ key, Spells key m.1 ∧ MemberText (key, m.2) text

def RecordText : List (String × List Char) → List Char → Prop :=
  Bracket.object.Encloses NamedText

theorem NamedText.ne_nil {m : String × List Char} {text : List Char} (h : NamedText m text) :
    text ≠ [] := by
  obtain ⟨_, -, _, _, -, -, rfl⟩ := h
  simp

theorem readKey_tail {tail rest : List Char} {name : String}
    (h : readString (tail ++ rest) = .ok (name, rest)) :
    readKey ('"' :: (tail ++ rest)) = .ok (some name, rest) := by
  rw [readKey, h]
  rfl

theorem nextKey_blank (first : Bool) {blank : List Char} (hblank : Blank blank) (cs : List Char) :
    nextKey first (blank ++ cs) = nextKey first cs := by
  rw [nextKey, nextKey, skipSpace_blank hblank]

theorem nextKey_lead (first : Bool) {before key : List Char} {name : String}
    (hbefore : Blank before) (hkey : Spells key name) (rest : List Char) :
    nextKey first (lead first (before ++ (key ++ rest))) = .ok (some name, rest) := by
  obtain ⟨tail, rfl, htail⟩ := hkey.exists_tail
  have hread := readKey_tail (htail rest)
  rw [List.cons_append]
  cases first with
  | true =>
    change nextKey true (before ++ '"' :: (tail ++ rest)) = _
    rw [nextKey, skipSpace_blank hbefore, skipSpace_cons (by decide)]
    dsimp only
    rw [if_neg (by decide), if_pos rfl, hread]
  | false =>
    change nextKey false (',' :: (before ++ '"' :: (tail ++ rest))) = _
    rw [nextKey, skipSpace_cons (by decide)]
    dsimp only
    rw [if_neg (by decide), if_neg (by decide), if_pos rfl, skipSpace_blank hbefore,
      skipSpace_cons (by decide)]
    dsimp only
    rw [if_neg (by decide), hread]

theorem readMembers_closing (value : Read α) (bound : Nat) (first : Bool) (rest : List Char) :
    readMembers value (bound + 1) first ('}' :: rest) = .ok ([], rest) := by
  have hkey : nextKey first ('}' :: rest) = .ok (none, rest) := rfl
  rw [readMembers, hkey]

theorem readMembers_blank (value : Read α) (bound : Nat) (first : Bool) {blank : List Char}
    (hblank : Blank blank) (cs : List Char) :
    readMembers value bound first (blank ++ cs) = readMembers value bound first cs := by
  cases bound with
  | zero => rfl
  | succ bound => rw [readMembers, readMembers, nextKey_blank first hblank]

theorem readMembers_member {value : Read α} {m : String × List Char} {text : List Char} {x : α}
    (htext : NamedText m text) (hvalue : ReadsAs value m.2 x) (bound : Nat) (first : Bool)
    {rest : List Char} (hrest : EndsPart rest) :
    readMembers value (bound + 1) first (lead first (text ++ rest)) =
      (readMembers value bound false rest).map fun r => ((m.1, x) :: r.1, r.2) := by
  obtain ⟨key, hkey, _, _, ⟨before, after, hbefore, hafter, rfl⟩,
    ⟨front, back, hfront, hback, rfl⟩, rfl⟩ := htext
  simp only [List.append_assoc, List.cons_append]
  rw [readMembers, nextKey_lead first hbefore hkey]
  dsimp only
  rw [readColon_blank hafter]
  dsimp only
  rw [hvalue.reads hfront (hrest.blank hback)]
  dsimp only
  rw [readMembers_blank value bound false hback]

/-- Members with commas between them are read up to the closing brace. -/
theorem readMembers_separated {value : Read α} {ms : List (String × List Char × α)}
    {inner : List Char} (hinner : Separated (fun m => NamedText (m.1, m.2.1)) ms inner)
    (hms : ∀ m ∈ ms, ReadsAs value m.2.1 m.2.2) {bound : Nat} (hbound : ms.length < bound)
    (first : Bool) (rest : List Char) :
    readMembers value bound first (lead first (inner ++ '}' :: rest)) =
      .ok (ms.map fun m => (m.1, m.2.2), rest) := by
  induction hinner generalizing bound first with
  | @single m text htext =>
    obtain ⟨bound, rfl⟩ : ∃ n, bound = n + 2 := Nat.exists_eq_add_of_le' hbound
    have hclosing : EndsPart ('}' :: rest) := endsPart_closing .object rest
    rw [readMembers_member htext (hms m List.mem_cons_self) (bound + 1) first hclosing,
      readMembers_closing]
    rfl
  | @cons m ms text texts htext _ ih =>
    obtain ⟨bound, rfl⟩ := Nat.exists_eq_succ_of_ne_zero (Nat.ne_zero_of_lt hbound)
    have htail : readMembers value bound false (',' :: (texts ++ '}' :: rest)) =
        .ok (ms.map fun m => (m.1, m.2.2), rest) :=
      ih (fun q hq => hms q (List.mem_cons_of_mem _ hq)) (Nat.lt_of_succ_lt_succ hbound) false
    rw [List.append_assoc, List.cons_append,
      readMembers_member htext (hms m List.mem_cons_self) bound first (endsPart_comma _), htail]
    rfl

/-- An object is read back as the list of its members in the order in which they
are written, however they are spaced and their keys are spelled. -/
theorem readMap_text {value : DeepRead α} {depth : Nat} {ms : List (String × List Char × α)}
    {text : List Char} (htext : RecordText (ms.map fun m => (m.1, m.2.1)) text)
    (hms : ∀ m ∈ ms, ReadsAs (value depth) m.2.1 m.2.2) (rest : List Char) :
    readMap value (depth + 1) (text ++ rest) = .ok (ms.map fun m => (m.1, m.2.2), rest) := by
  obtain ⟨inner, hinner, rfl⟩ := htext
  rw [List.cons_append, List.append_assoc, List.singleton_append, readMap,
    skipSpace_cons (by decide)]
  change readMembers (value depth) _ true (inner ++ '}' :: rest) = _
  cases hinner.of_map with
  | empty hblank =>
    rw [readMembers_blank _ _ _ hblank, List.length_append, List.length_cons, ← Nat.add_assoc]
    exact readMembers_closing (value depth) _ true rest
  | parts hparts =>
    have hlength := hparts.length_le fun _ _ _ htext => htext.ne_nil
    refine readMembers_separated hparts hms ?_ true rest
    rw [List.length_append, List.length_cons]
    omega

end JobConfig.Json
