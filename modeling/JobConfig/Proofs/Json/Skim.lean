import JobConfig.Proofs.Json.Skim.Token

/-!
Skimming takes every value: whatever the grammar calls a value is passed over,
and nothing of what follows it.

Skimming keeps a stack of open brackets in place of nested calls, so a value in
the middle of a text has no call of its own that could be said to succeed. What
is said of it instead is how the whole skimming ends: if it goes on well behind
the value (`Resumes`), then it goes well from the front of the value on
(`Skims`). The value alone is the case of no open brackets.
-/

namespace JobConfig.Json

/-! ### Going on within brackets -/

/-- Skimming a value within the open brackets and all that must follow it ends
well and leaves `out`. -/
def Skims (opened : List Bracket) (cs out : List Char) : Prop :=
  ∀ bound, cs.length < bound → skimFrom bound opened cs = .ok out

/-- Skimming ends well from here on and leaves `out`, with at most `length`
characters to go. -/
def Skimmed.Ends (length : Nat) (out : List Char) : Skimmed → Prop
  | .finished rest => rest = out
  | .value opened rest => rest.length ≤ length ∧ Skims opened rest out

/-- Skimming ends well from the end of a value on, or, where `comma` is not
allowed, from the opening of the innermost bracket on. -/
def Resumes (comma : Bool) (opened : List Bracket) (cs out : List Char) : Prop :=
  ∀ bound, cs.length < bound →
    ∃ s, skimClose bound comma opened cs = .ok s ∧ s.Ends cs.length out

theorem Skimmed.Ends.mono {s : Skimmed} {length longer : Nat} {out : List Char}
    (h : s.Ends length out) (hle : length ≤ longer) : s.Ends longer out := by
  cases s with
  | finished rest => exact h
  | value opened rest => exact ⟨Nat.le_trans h.1 hle, h.2⟩

theorem resumes_nil (comma : Bool) (cs : List Char) : Resumes comma [] cs cs :=
  fun _ _ => ⟨.finished cs, by rw [skimClose], rfl⟩

section Brackets

variable {bracket : Bracket} {outer : List Bracket} {cs out : List Char} {comma : Bool}

theorem Resumes.blank {blank : List Char} (hblank : Blank blank)
    (h : Resumes comma (bracket :: outer) cs out) :
    Resumes comma (bracket :: outer) (blank ++ cs) out := by
  intro bound hbound
  rw [List.length_append] at hbound
  obtain ⟨bound, rfl⟩ := Nat.exists_eq_succ_of_ne_zero (Nat.ne_zero_of_lt hbound)
  obtain ⟨s, hs, hends⟩ := h (bound + 1) (by omega)
  refine ⟨s, ?_, hends.mono (by simp)⟩
  rw [skimClose] at hs ⊢
  rw [skipSpace_blank hblank]
  exact hs

theorem Resumes.closing (h : Resumes true outer cs out) :
    Resumes comma (bracket :: outer) (bracket.closing :: cs) out := by
  intro bound hbound
  rw [List.length_cons] at hbound
  obtain ⟨bound, rfl⟩ := Nat.exists_eq_succ_of_ne_zero (Nat.ne_zero_of_lt hbound)
  obtain ⟨s, hs, hends⟩ := h bound (by omega)
  refine ⟨s, ?_, hends.mono (by simp)⟩
  have hspace : isSpace bracket.closing = false := by cases bracket <;> decide
  rw [skimClose, skipSpace_cons hspace]
  dsimp only
  rw [if_pos rfl]
  exact hs

/-- Another part stands in front of `cs`: behind its label, if it has one, there
is a value from which skimming ends well. -/
def Due (bracket : Bracket) (outer : List Bracket) (cs out : List Char) : Prop :=
  ∃ value, bracket.skimLabel cs = .ok value ∧ value.length ≤ cs.length ∧
    Skims (bracket :: outer) value out

theorem Due.resumes_comma (h : Due bracket outer cs out) :
    Resumes true (bracket :: outer) (',' :: cs) out := by
  obtain ⟨value, hlabel, hlength, hskims⟩ := h
  intro bound hbound
  obtain ⟨bound, rfl⟩ := Nat.exists_eq_succ_of_ne_zero (Nat.ne_zero_of_lt hbound)
  refine ⟨.value (bracket :: outer) value, ?_, Nat.le_succ_of_le hlength, hskims⟩
  have hclosing : ',' ≠ bracket.closing := by cases bracket <;> decide
  rw [skimClose, skipSpace_cons (by decide)]
  dsimp only
  rw [if_neg hclosing, if_neg (by decide), if_pos rfl, hlabel]
  rfl

theorem skimLabel_skipSpace (bracket : Bracket) (cs : List Char) :
    bracket.skimLabel (skipSpace cs) = bracket.skimLabel cs := by
  unfold Bracket.skimLabel
  rw [skipSpace_skipSpace]

theorem Due.resumes_first {c : Char} {rest : List Char} (hstart : skipSpace cs = c :: rest)
    (hclosing : c ≠ bracket.closing) (h : Due bracket outer cs out) :
    Resumes false (bracket :: outer) cs out := by
  obtain ⟨value, hlabel, hlength, hskims⟩ := h
  intro bound hbound
  obtain ⟨bound, rfl⟩ := Nat.exists_eq_succ_of_ne_zero (Nat.ne_zero_of_lt hbound)
  refine ⟨.value (bracket :: outer) value, ?_, hlength, hskims⟩
  rw [← skimLabel_skipSpace, hstart] at hlabel
  rw [skimClose, hstart]
  dsimp only
  rw [if_neg hclosing, if_neg (by simp), if_neg (by decide), hlabel]
  rfl

end Brackets

/-! ### The front of a value -/

/-- One step of skimming, from the front of a value up to where the next one is
due. -/
def skimHead (opened : List Bracket) (cs : List Char) : Except Fault Skimmed :=
  let scalar := fun (rest : Except Fault (List Char)) =>
    rest.bind fun rest => skimClose (rest.length + 1) true opened rest
  match cs with
  | [] => .error .endOfValue
  | c :: rest =>
    if c = 'n' then scalar (readWord ['u', 'l', 'l'] rest)
    else if c = 't' then scalar (readWord ['r', 'u', 'e'] rest)
    else if c = 'f' then scalar (readWord ['a', 'l', 's', 'e'] rest)
    else if c = '"' then scalar (skimString rest.length rest)
    else if c = '[' then skimClose (rest.length + 1) false (.list :: opened) rest
    else if c = '{' then skimClose (rest.length + 1) false (.object :: opened) rest
    else if c = '-' then scalar (skimUnsigned rest)
    else if c.isDigit then scalar (skimUnsigned (c :: rest))
    else .error .expectedValue

theorem skimFrom_succ (bound : Nat) (opened : List Bracket) (cs : List Char) :
    skimFrom (bound + 1) opened cs =
      match skimHead opened (skipSpace cs) with
      | .error e => .error e
      | .ok (.finished rest) => .ok rest
      | .ok (.value opened rest) => skimFrom bound opened rest := by
  rfl

theorem Skims.blank {opened : List Bracket} {blank cs out : List Char} (hblank : Blank blank)
    (h : Skims opened cs out) : Skims opened (blank ++ cs) out := by
  intro bound hbound
  rw [List.length_append] at hbound
  obtain ⟨bound, rfl⟩ := Nat.exists_eq_succ_of_ne_zero (Nat.ne_zero_of_lt hbound)
  have hcs := h (bound + 1) (by omega)
  rw [skimFrom_succ] at hcs ⊢
  rw [skipSpace_blank hblank]
  exact hcs

theorem skims_of_head {opened : List Bracket} {c : Char} {cs out : List Char} {s : Skimmed}
    (hspace : isSpace c = false) (hstep : skimHead opened (c :: cs) = .ok s)
    (hends : s.Ends cs.length out) : Skims opened (c :: cs) out := by
  intro bound hbound
  rw [List.length_cons] at hbound
  obtain ⟨bound, rfl⟩ := Nat.exists_eq_succ_of_ne_zero (Nat.ne_zero_of_lt hbound)
  rw [skimFrom_succ, skipSpace_cons hspace, hstep]
  cases s with
  | finished rest => exact congrArg Except.ok hends
  | value opened rest => exact hends.2 bound (by have := hends.1; omega)

/-- A value that is skimmed wherever it may stand. -/
def SkimsValue (text : List Char) : Prop :=
  ∀ opened rest out, EndsPart rest → Resumes true opened rest out →
    Skims opened (text ++ rest) out

/-- A value without brackets is skimmed in one step. -/
theorem skimsValue_scalar {c : Char} {text : List Char}
    (skim : List Char → Except Fault (List Char)) (hspace : isSpace c = false)
    (hhead : ∀ opened cs, skimHead opened (c :: cs) =
      (skim cs).bind fun rest => skimClose (rest.length + 1) true opened rest)
    (hskim : ∀ rest, EndsPart rest → skim (text ++ rest) = .ok rest) : SkimsValue (c :: text) := by
  intro opened rest out hrest hresumes
  obtain ⟨s, hs, hends⟩ := hresumes (rest.length + 1) (Nat.lt_succ_self _)
  have hstep : skimHead opened (c :: (text ++ rest)) = .ok s := by
    rw [hhead, hskim rest hrest]
    exact hs
  exact skims_of_head hspace hstep (hends.mono (by simp))

theorem readWord_append (word rest : List Char) : readWord word (word ++ rest) = .ok rest := by
  induction word with
  | nil => cases rest <;> rfl
  | cons w word ih => simpa [readWord] using ih

theorem skimsValue_word {c : Char} {word : List Char} (hspace : isSpace c = false)
    (hhead : ∀ opened cs, skimHead opened (c :: cs) =
      (readWord word cs).bind fun rest => skimClose (rest.length + 1) true opened rest) :
    SkimsValue (c :: word) :=
  skimsValue_scalar (readWord word) hspace hhead fun rest _ => readWord_append word rest

theorem skimsValue_string {tail : List Char} (h : IsStringTail tail) : SkimsValue ('"' :: tail) :=
  skimsValue_scalar (fun cs => skimString cs.length cs) (by decide) (fun _ _ => rfl)
    fun rest _ => skimString_append h rest (by simp)

theorem skimsValue_negative {text : List Char} (h : IsUnsigned text) : SkimsValue ('-' :: text) :=
  skimsValue_scalar skimUnsigned (by decide) (fun _ _ => rfl)
    fun _ hrest => skimUnsigned_append h hrest

theorem IsUnsigned.exists_cons {text : List Char} (h : IsUnsigned text) :
    ∃ c tail, text = c :: tail ∧ c.isDigit = true := by
  obtain ⟨hwhole, -, -⟩ := h
  cases hwhole with
  | zero => exact ⟨'0', _, rfl, by decide⟩
  | positive hdigits _ =>
    obtain ⟨c, tail, rfl⟩ := List.exists_cons_of_ne_nil hdigits.1
    exact ⟨c, _, rfl, hdigits.2 c List.mem_cons_self⟩

theorem skimHead_digit {c : Char} (h : c.isDigit = true) (opened : List Bracket)
    (cs : List Char) : skimHead opened (c :: cs) =
      (skimUnsigned (c :: cs)).bind fun rest => skimClose (rest.length + 1) true opened rest := by
  have hne : ∀ d ∈ ['n', 't', 'f', '"', '[', '{', '-'], c ≠ d :=
    forall_ne_of_isDigit h (by decide)
  simp only [List.forall_mem_cons] at hne
  simp only [skimHead, hne, h, if_false, if_true]

theorem skimsValue_unsigned {text : List Char} (h : IsUnsigned text) : SkimsValue text := by
  obtain ⟨c, tail, rfl, hc⟩ := h.exists_cons
  exact skimsValue_scalar (fun cs => skimUnsigned (c :: cs)) (isSpace_of_isDigit hc)
    (skimHead_digit hc) fun _ hrest => skimUnsigned_append h hrest

theorem SkimsValue.blank {blank text : List Char} (hblank : Blank blank) (h : SkimsValue text) :
    SkimsValue (blank ++ text) := by
  intro opened rest out hrest hresumes
  rw [List.append_assoc]
  exact (h opened rest out hrest hresumes).blank hblank

theorem IsValue.starts {text : List Char} (h : IsValue text) : StartsPart text := by
  cases h with
  | null => exact ⟨'n', _, rfl, by decide, by decide⟩
  | true => exact ⟨'t', _, rfl, by decide, by decide⟩
  | false => exact ⟨'f', _, rfl, by decide, by decide⟩
  | unsigned hnumber =>
    obtain ⟨c, tail, rfl, hc⟩ := hnumber.exists_cons
    have hclose : ∀ d ∈ [']'], c ≠ d := forall_ne_of_isDigit hc (by decide)
    exact ⟨c, tail, rfl, isSpace_of_isDigit hc, hclose ']' List.mem_cons_self⟩
  | negative hnumber => exact ⟨'-', _, rfl, by decide, by decide⟩
  | string hstring =>
    obtain ⟨tail, rfl, -⟩ := hstring
    exact ⟨'"', tail, rfl, by decide, by decide⟩
  | array htext hitems => exact startsPart_encloses htext
  | object htext hkeys hvalues => exact startsPart_encloses htext

/-! ### Parts of arrays and objects -/

/-- A part within brackets whose value is skimmed. -/
structure SkimsPart (bracket : Bracket) (text : List Char) : Prop where
  starts : ∃ c tail, c ≠ bracket.closing ∧ ∀ rest, skipSpace (text ++ rest) = c :: (tail ++ rest)
  label : ∃ value after, Blank after ∧ value.length + after.length ≤ text.length ∧
    SkimsValue value ∧ ∀ rest, bracket.skimLabel (text ++ rest) = .ok (value ++ (after ++ rest))

theorem SkimsPart.due {bracket : Bracket} {outer : List Bracket} {text rest out : List Char}
    (h : SkimsPart bracket text) (hrest : EndsPart rest)
    (hresumes : Resumes true (bracket :: outer) rest out) :
    Due bracket outer (text ++ rest) out := by
  obtain ⟨value, after, hafter, hlength, hvalue, hlabel⟩ := h.label
  refine ⟨value ++ (after ++ rest), hlabel rest, ?_, ?_⟩
  · simp only [List.length_append]
    omega
  · exact hvalue _ _ _ (hrest.blank hafter) (hresumes.blank hafter)

/-- From the front of parts with commas between them skimming ends well if it
does so from behind their closing bracket. -/
theorem due_separated {α : Type} {part : α → List Char → Prop} {bracket : Bracket}
    {outer : List Bracket} {xs : List α} {inner rest out : List Char}
    (hinner : Separated part xs inner)
    (hparts : ∀ x ∈ xs, ∀ text, part x text → SkimsPart bracket text)
    (hresumes : Resumes true outer rest out) :
    Due bracket outer (inner ++ bracket.closing :: rest) out := by
  induction hinner with
  | single hpart =>
    have hskims := hparts _ List.mem_cons_self _ hpart
    exact hskims.due (endsPart_closing bracket rest) hresumes.closing
  | cons hpart _ ih =>
    have hskims := hparts _ List.mem_cons_self _ hpart
    have htail := ih fun x hx => hparts x (List.mem_cons_of_mem _ hx)
    rw [List.append_assoc, List.cons_append]
    exact hskims.due (endsPart_comma _) htail.resumes_comma

theorem starts_separated {α : Type} {part : α → List Char → Prop} {bracket : Bracket}
    {xs : List α} {inner : List Char} (hinner : Separated part xs inner)
    (hparts : ∀ x ∈ xs, ∀ text, part x text → SkimsPart bracket text) (rest : List Char) :
    ∃ c tail, c ≠ bracket.closing ∧ skipSpace (inner ++ rest) = c :: tail := by
  cases hinner with
  | single hpart =>
    obtain ⟨c, tail, hclosing, hstart⟩ := (hparts _ List.mem_cons_self _ hpart).starts
    exact ⟨c, _, hclosing, hstart rest⟩
  | cons hpart _ =>
    obtain ⟨c, tail, hclosing, hstart⟩ := (hparts _ List.mem_cons_self _ hpart).starts
    exact ⟨c, _, hclosing, by rw [List.append_assoc, hstart]⟩

theorem resumes_inner {α : Type} {part : α → List Char → Prop} {bracket : Bracket}
    {outer : List Bracket} {xs : List α} {inner rest out : List Char}
    (hinner : Inner part xs inner)
    (hparts : ∀ x ∈ xs, ∀ text, part x text → SkimsPart bracket text)
    (hresumes : Resumes true outer rest out) :
    Resumes false (bracket :: outer) (inner ++ bracket.closing :: rest) out := by
  cases hinner with
  | empty hblank => exact hresumes.closing.blank hblank
  | parts hinner =>
    obtain ⟨c, tail, hclosing, hstart⟩ :=
      starts_separated hinner hparts (bracket.closing :: rest)
    exact (due_separated hinner hparts hresumes).resumes_first hstart hclosing

theorem skimHead_opening (bracket : Bracket) (opened : List Bracket) (cs : List Char) :
    skimHead opened (bracket.opening :: cs) =
      skimClose (cs.length + 1) false (bracket :: opened) cs := by
  cases bracket <;> rfl

/-- Brackets around parts that can be skimmed are a value that is skimmed. -/
theorem skimsValue_encloses {α : Type} {part : α → List Char → Prop} {bracket : Bracket}
    {xs : List α} {text : List Char} (htext : bracket.Encloses part xs text)
    (hparts : ∀ x ∈ xs, ∀ text, part x text → SkimsPart bracket text) : SkimsValue text := by
  obtain ⟨inner, hinner, rfl⟩ := htext
  intro opened rest out _ hresumes
  have hspace : isSpace bracket.opening = false := by cases bracket <;> decide
  have hopened := resumes_inner hinner hparts hresumes
  obtain ⟨s, hs, hends⟩ := hopened _ (Nat.lt_succ_self _)
  rw [List.cons_append, List.append_assoc, List.singleton_append]
  refine skims_of_head hspace ?_ hends
  rw [skimHead_opening]
  exact hs

theorem skimLabel_list (cs : List Char) : Bracket.list.skimLabel cs = .ok (skipSpace cs) := by
  simp only [Bracket.skimLabel]

theorem skimLabel_object {cs rest : List Char} (h : skipSpace cs = '"' :: rest) :
    Bracket.object.skimLabel cs = (skimString rest.length rest).bind readColon := by
  simp only [Bracket.skimLabel, h]

theorem skimsPart_item {item text : List Char} (htext : Spaced item text)
    (hstarts : StartsPart item) (hitem : SkimsValue item) : SkimsPart .list text := by
  obtain ⟨before, after, hbefore, hafter, rfl⟩ := htext
  obtain ⟨c, tail, rfl, hspace, hclose⟩ := hstarts
  refine ⟨⟨c, tail ++ after, hclose, fun rest => ?_⟩,
    ⟨c :: tail, after, hafter, by simp only [List.length_append]; omega, hitem, fun rest => ?_⟩⟩
  · rw [List.append_assoc, skipSpace_blank hbefore, List.cons_append, List.cons_append,
      skipSpace_cons hspace]
  · rw [skimLabel_list, List.append_assoc, skipSpace_blank hbefore, List.append_assoc,
      List.cons_append, skipSpace_cons hspace]

theorem skimsPart_member {m : List Char × List Char} {text : List Char}
    (htext : MemberText m text) (hkey : IsString m.1) (hvalue : SkimsValue m.2) :
    SkimsPart .object text := by
  obtain ⟨k, v⟩ := m
  obtain ⟨_, _, ⟨before, after, hbefore, hafter, rfl⟩, ⟨front, back, hfront, hback, rfl⟩, rfl⟩ :=
    htext
  obtain ⟨key, rfl, hkey⟩ := hkey
  refine ⟨⟨'"', key ++ after ++ ':' :: (front ++ (v ++ back)), by decide, fun rest => ?_⟩,
    ⟨front ++ v, back, hback, by simp; omega, hvalue.blank hfront, fun rest => ?_⟩⟩
  · simp only [List.append_assoc, List.cons_append]
    rw [skipSpace_blank hbefore, skipSpace_cons (by decide)]
  · simp only [List.append_assoc, List.cons_append]
    rw [skimLabel_object (by rw [skipSpace_blank hbefore, skipSpace_cons (by decide)]),
      skimString_append hkey _ (by simp)]
    exact readColon_blank hafter _

theorem skimsValue {text : List Char} (h : IsValue text) : SkimsValue text := by
  induction h with
  | null => exact skimsValue_word (by decide) fun _ _ => rfl
  | true => exact skimsValue_word (by decide) fun _ _ => rfl
  | false => exact skimsValue_word (by decide) fun _ _ => rfl
  | unsigned hnumber => exact skimsValue_unsigned hnumber
  | negative hnumber => exact skimsValue_negative hnumber
  | string hstring =>
    obtain ⟨tail, rfl, htail⟩ := hstring
    exact skimsValue_string htail
  | array htext hitems ih =>
    exact skimsValue_encloses htext fun item hitem _ hpart =>
      skimsPart_item hpart (hitems item hitem).starts (ih item hitem)
  | object htext hkeys _ ih =>
    exact skimsValue_encloses htext fun m hm _ hpart =>
      skimsPart_member hpart (hkeys m hm) (ih m hm)

/-- Skimming passes over a value and over the space in front of it, and over
nothing else. -/
theorem skim_value {blank text rest : List Char} (hblank : Blank blank) (htext : IsValue text)
    (hrest : EndsPart rest) : skim (blank ++ (text ++ rest)) = .ok rest := by
  have hskims := (skimsValue htext [] rest rest hrest (resumes_nil true rest)).blank hblank
  exact hskims _ (Nat.lt_succ_self _)

end JobConfig.Json
