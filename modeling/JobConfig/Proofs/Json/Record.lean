import JobConfig.Proofs.Json.Shape
import JobConfig.Proofs.Json.Skim

/-!
Records are read from objects and from arrays of some of their fields: the
members of an object may stand in any order and among others of any name, the
items of an array are the fields from the first one on.

What a record holds while it is read depends on nothing but which fields have
been read. So a record is followed through a text by a function from names to
records, `state`: it starts as `state []`, and a field turns what is held after
`seen` into what is held after its own name and `seen` (`Field.Takes`).
-/

namespace JobConfig.Json

variable {σ : Type}

/-! ### Texts of records -/

namespace Record

def names (r : Record σ) : List String :=
  r.fields.map (·.name)

/-- The fields among some members, in the order of the members. -/
def named (r : Record σ) (members : List (String × List Char)) : List String :=
  (members.map Prod.fst).filter fun name => decide (name ∈ r.names)

/-- Members that may stand in an object for a record: each field at most once,
with a text that is its own, and any values under other names. -/
structure IsMembers (r : Record σ) (fieldText : String → List Char → Prop)
    (members : List (String × List Char)) : Prop where
  distinct : (r.named members).Nodup
  field : ∀ m ∈ members, m.1 ∈ r.names → fieldText m.1 m.2
  other : ∀ m ∈ members, m.1 ∉ r.names → IsValue m.2

/-- Items that may stand in an array for a record: the first of its fields. -/
structure IsItems (r : Record σ) (fieldText : String → List Char → Prop)
    (items : List (List Char)) : Prop where
  length_le : items.length ≤ r.names.length
  field : ∀ p ∈ r.names.zip items, fieldText p.1 p.2

end Record

/-! ### Fields -/

/-- The field takes `text` for what is its own in the records that `state`
gives. -/
def Field.Takes (field : Field σ) (depth : Nat) (state : List String → σ)
    (text : List Char) : Prop :=
  ∃ update, ReadsAs (field.read depth) text update ∧
    ∀ seen, update (state seen) = state (field.name :: seen)

/-- Each field of the record takes what `fieldText` says of its name, and what
is held does not depend on the order of reading. -/
structure Record.Follows (r : Record σ) (depth : Nat) (state : List String → σ)
    (fieldText : String → List Char → Prop) : Prop where
  distinct : r.names.Nodup
  takes : ∀ field ∈ r.fields, ∀ text, fieldText field.name text → field.Takes depth state text
  unordered : ∀ {a b : List String}, (∀ name ∈ r.names, name ∈ a ↔ name ∈ b) → state a = state b

theorem Field.takes_of {α : Type} {name : String} {read : DeepRead α} {set : α → σ → σ}
    {depth : Nat} {state : List String → σ} {text : List Char} {x : α}
    (hreads : ReadsAs (read depth) text x)
    (hset : ∀ seen, set x (state seen) = state (name :: seen)) :
    (Field.of name read set).Takes depth state text :=
  ⟨set x, hreads.map set, hset⟩

theorem Field.Takes.required {field : Field σ} {depth : Nat} {state : List String → σ}
    {text : List Char} (h : field.Takes depth state text) :
    { field with required := true }.Takes depth state text :=
  h

/-! ### Objects -/

namespace Record

variable (r : Record σ) (depth : Nat)

theorem readFields_blank (bound : Nat) (first : Bool) (seen : List String) (state : σ)
    {blank : List Char} (hblank : Blank blank) (cs : List Char) :
    r.readFields depth bound first seen state (blank ++ cs) =
      r.readFields depth bound first seen state cs := by
  cases bound with
  | zero => rfl
  | succ bound => rw [readFields, readFields, nextKey_blank first hblank]

theorem readFields_closing {seen : List String} (hmissing : r.missing? seen = none) (bound : Nat)
    (first : Bool) (state : σ) (rest : List Char) :
    r.readFields depth (bound + 1) first seen state ('}' :: rest) = .ok (state, rest) := by
  have hkey : nextKey first ('}' :: rest) = .ok (none, rest) := rfl
  rw [readFields, hkey]
  dsimp only
  rw [hmissing]

/-- The fields that have been read behind some members. -/
def reached (seen : List String) (members : List (String × List Char)) : List String :=
  (r.named members).reverse ++ seen

theorem reached_cons (seen : List String) (m : String × List Char)
    (members : List (String × List Char)) :
    r.reached seen (m :: members) = r.reached (r.reached seen [m]) members := by
  have hnamed : r.named (m :: members) = r.named [m] ++ r.named members := by
    simp only [named, List.map_cons, List.map_nil, List.filter_cons, List.filter_nil]
    split <;> rfl
  rw [reached, reached, reached, hnamed, List.reverse_append, List.append_assoc]

variable {r depth}

/-- A member under a name that is no field leaves the record as it is. -/
theorem readFields_other {m : String × List Char} {text : List Char} (htext : NamedText m text)
    (hname : m.1 ∉ r.names) (hvalue : IsValue m.2) (bound : Nat) (first : Bool)
    (seen : List String) (state : σ) {rest : List Char} (hrest : EndsPart rest) :
    r.readFields depth (bound + 1) first seen state (lead first (text ++ rest)) =
      r.readFields depth bound false seen state rest := by
  obtain ⟨key, hkey, _, _, ⟨before, after, hbefore, hafter, rfl⟩,
    ⟨front, back, hfront, hback, rfl⟩, rfl⟩ := htext
  have hfield : r.fields.find? (fun f => f.name = m.1) = none := by
    rw [List.find?_eq_none]
    intro field hmem heq
    exact hname (List.mem_map.2 ⟨field, hmem, by simpa using heq⟩)
  simp only [List.append_assoc, List.cons_append]
  rw [readFields, nextKey_lead first hbefore hkey]
  dsimp only
  rw [hfield]
  dsimp only
  rw [readColon_blank hafter, Except.bind, skim_value hfront hvalue (hrest.blank hback)]
  exact r.readFields_blank depth _ _ _ _ hback rest

/-- A member under the name of a field that has not been read before. -/
theorem readFields_field {m : String × List Char} {text : List Char} (htext : NamedText m text)
    {field : Field σ} {state : List String → σ} {seen : List String}
    (hfield : r.fields.find? (fun f => f.name = m.1) = some field)
    (htakes : field.Takes depth state m.2) (hfresh : m.1 ∉ seen) (bound : Nat) (first : Bool)
    {rest : List Char} (hrest : EndsPart rest) :
    r.readFields depth (bound + 1) first seen (state seen) (lead first (text ++ rest)) =
      r.readFields depth bound false (m.1 :: seen) (state (m.1 :: seen)) rest := by
  obtain ⟨key, hkey, _, _, ⟨before, after, hbefore, hafter, rfl⟩,
    ⟨front, back, hfront, hback, rfl⟩, rfl⟩ := htext
  obtain ⟨update, hreads, hupdate⟩ := htakes
  have hname : field.name = m.1 := by simpa using List.find?_some hfield
  have hunseen : seen.contains m.1 = false := by simpa using hfresh
  simp only [List.append_assoc, List.cons_append]
  rw [readFields, nextKey_lead first hbefore hkey]
  dsimp only
  rw [hfield]
  dsimp only
  rw [hunseen, readColon_blank hafter, Except.bind, hreads.reads hfront (hrest.blank hback),
    if_neg (by decide)]
  dsimp only
  rw [hupdate, hname]
  exact r.readFields_blank depth _ _ _ _ hback rest

theorem find?_of_mem {fields : List (Field σ)} (hdistinct : (fields.map (·.name)).Nodup)
    {field : Field σ} (hmem : field ∈ fields) :
    fields.find? (fun f => f.name = field.name) = some field := by
  induction fields with
  | nil => cases hmem
  | cons f fields ih =>
    obtain ⟨hhead, htail⟩ := List.nodup_cons.1 hdistinct
    rcases List.mem_cons.1 hmem with rfl | hmem
    · simp
    · have hne : f.name ≠ field.name := by
        intro heq
        exact hhead (List.mem_map.2 ⟨field, hmem, heq.symm⟩)
      rw [List.find?_cons_of_neg (by simpa using hne), ih htail hmem]

theorem eq_of_name_eq {r : Record σ} (hdistinct : r.names.Nodup) {a b : Field σ}
    (ha : a ∈ r.fields) (hb : b ∈ r.fields) (h : a.name = b.name) : a = b := by
  have hfind := find?_of_mem hdistinct ha
  rw [h, find?_of_mem hdistinct hb] at hfind
  exact (Option.some.inj hfind).symm

variable {state : List String → σ} {fieldText : String → List Char → Prop}

/-- One member, whichever it is. -/
theorem readFields_member (hfollows : r.Follows depth state fieldText)
    {m : String × List Char} {text : List Char} (htext : NamedText m text)
    (hfield : m.1 ∈ r.names → fieldText m.1 m.2) (hother : m.1 ∉ r.names → IsValue m.2)
    {seen : List String} (hdistinct : (r.reached seen [m]).Nodup) (bound : Nat) (first : Bool)
    {rest : List Char} (hrest : EndsPart rest) :
    r.readFields depth (bound + 1) first seen (state seen) (lead first (text ++ rest)) =
      r.readFields depth bound false (r.reached seen [m]) (state (r.reached seen [m])) rest := by
  by_cases hname : m.1 ∈ r.names
  · have hreached : r.reached seen [m] = m.1 :: seen := by simp [reached, named, hname]
    rw [hreached] at hdistinct ⊢
    obtain ⟨field, hmem, heq⟩ := List.mem_map.1 hname
    have htakes := hfollows.takes field hmem m.2 (heq ▸ hfield hname)
    have hfind := find?_of_mem hfollows.distinct hmem
    rw [heq] at hfind
    exact readFields_field htext hfind htakes (List.nodup_cons.1 hdistinct).1 bound first hrest
  · have hreached : r.reached seen [m] = seen := by simp [reached, named, hname]
    rw [hreached]
    exact readFields_other htext hname (hother hname) bound first seen (state seen) hrest

/-- The members of an object are read one after the other. -/
theorem readFields_members (hfollows : r.Follows depth state fieldText)
    {members : List (String × List Char)} {inner : List Char}
    (hinner : Separated NamedText members inner)
    (hfield : ∀ m ∈ members, m.1 ∈ r.names → fieldText m.1 m.2)
    (hother : ∀ m ∈ members, m.1 ∉ r.names → IsValue m.2) {seen : List String}
    (hdistinct : (r.reached seen members).Nodup)
    (hmissing : r.missing? (r.reached seen members) = none) {bound : Nat}
    (hbound : members.length < bound) (first : Bool) (rest : List Char) :
    r.readFields depth bound first seen (state seen) (lead first (inner ++ '}' :: rest)) =
      .ok (state (r.reached seen members), rest) := by
  induction hinner generalizing seen bound first with
  | @single m text htext =>
    obtain ⟨bound, rfl⟩ : ∃ n, bound = n + 2 := Nat.exists_eq_add_of_le' hbound
    have hm : m ∈ [m] := List.mem_cons_self
    have hmember := readFields_member hfollows htext (hfield m hm) (hother m hm) hdistinct
      (bound + 1) first (endsPart_closing .object rest)
    exact hmember.trans (r.readFields_closing depth hmissing bound false _ rest)
  | @cons m members _ _ htext _ ih =>
    obtain ⟨bound, rfl⟩ := Nat.exists_eq_succ_of_ne_zero (Nat.ne_zero_of_lt hbound)
    rw [reached_cons] at hdistinct hmissing ⊢
    have hm : m ∈ m :: members := List.mem_cons_self
    have hseen := (List.nodup_append.1 hdistinct).2.1
    have htail := ih (fun m hm => hfield m (List.mem_cons_of_mem _ hm))
      (fun m hm => hother m (List.mem_cons_of_mem _ hm)) hdistinct hmissing
      (Nat.lt_of_succ_lt_succ hbound) false
    rw [List.append_assoc, List.cons_append, readFields_member hfollows htext (hfield m hm)
      (hother m hm) hseen bound first (endsPart_comma _)]
    exact htail

theorem mem_reached_nil (members : List (String × List Char)) {name : String}
    (hname : name ∈ r.names) : name ∈ r.reached [] members ↔ name ∈ members.map Prod.fst := by
  simp [reached, named, hname]

theorem missing?_eq_none {seen : List String}
    (h : ∀ field ∈ r.fields, field.required = true → field.name ∈ seen) :
    r.missing? seen = none := by
  rw [missing?, Option.map_eq_none_iff, List.find?_eq_none]
  intro field hmem
  by_cases hrequired : field.required = true
  · simp [h field hmem hrequired]
  · simp [hrequired]

theorem skipsSpace_read (initial : σ) : SkipsSpace (r.read initial depth) := fun cs => by
  simp only [read, skipSpace_skipSpace]

/-- A record is read from the object of some of its fields, in any order and
among any other members. -/
theorem readsAs_object (hfollows : r.Follows depth state fieldText)
    {members : List (String × List Char)} {text : List Char}
    (hmembers : r.IsMembers fieldText members) (htext : RecordText members text)
    (hrequired : ∀ field ∈ r.fields, field.required = true → field.name ∈ members.map Prod.fst) :
    ReadsAs (r.read (state []) (depth + 1)) text (state (members.map Prod.fst)) := by
  obtain ⟨inner, hinner, rfl⟩ := htext
  refine .of_skipsSpace (skipsSpace_read _) ⟨'{', _, rfl, by decide, by decide⟩ fun rest _ => ?_
  have hmissing : r.missing? (r.reached [] members) = none := missing?_eq_none fun field hmem h =>
    (mem_reached_nil members (List.mem_map_of_mem hmem)).2 (hrequired field hmem h)
  have hstate : state (members.map Prod.fst) = state (r.reached [] members) :=
    hfollows.unordered fun name hname => (mem_reached_nil members hname).symm
  have hdistinct : (r.reached [] members).Nodup := by
    rw [reached, List.append_nil]
    exact (List.reverse_perm _).nodup_iff.2 hmembers.distinct
  rw [hstate, List.cons_append, List.append_assoc, List.singleton_append, read,
    skipSpace_cons (by decide)]
  change r.readFields depth _ true [] (state []) _ = _
  cases hinner with
  | empty hblank =>
    rw [r.readFields_blank depth _ _ _ _ hblank, List.length_append, List.length_cons,
      ← Nat.add_assoc]
    exact r.readFields_closing depth hmissing _ true _ rest
  | parts hparts =>
    have hlength := hparts.length_le fun _ _ _ htext => htext.ne_nil
    refine readFields_members hfollows hparts hmembers.field hmembers.other hdistinct hmissing ?_
      true rest
    rw [List.length_append, List.length_cons]
    omega

end Record

/-! ### Arrays -/

namespace Record

variable {r : Record σ} {depth : Nat}

theorem readPositions_closing {fields : List (Field σ)}
    (hoptional : ∀ field ∈ fields, field.required = false) (count : Nat) (first : Bool) (state : σ)
    (rest : List Char) :
    r.readPositions depth count first state fields (']' :: rest) = .ok (state, rest) := by
  cases fields with
  | nil => rfl
  | cons field fields =>
    have hitem : nextItem first (']' :: rest) = .ok (false, rest) := rfl
    have hany : (field :: fields).any (·.required) = false := by
      simpa using hoptional
    rw [readPositions, hitem]
    dsimp only
    rw [hany]
    rfl

theorem readPositions_blank (count : Nat) (first : Bool) (state : σ) (fields : List (Field σ))
    {blank : List Char} (hblank : Blank blank) (cs : List Char) :
    r.readPositions depth count first state fields (blank ++ cs) =
      r.readPositions depth count first state fields cs := by
  cases fields with
  | nil => rw [readPositions, readPositions, readEnd, readEnd, skipSpace_blank hblank]
  | cons field fields =>
    rw [readPositions, readPositions, nextItem, nextItem, skipSpace_blank hblank]

/-- One item is the value of the next field. -/
theorem readPositions_item {state : List String → σ} {field : Field σ} {item text : List Char}
    (htext : Spaced item text) (htakes : field.Takes depth state item) (count : Nat) (first : Bool)
    (seen : List String) (fields : List (Field σ)) {rest : List Char} (hrest : EndsPart rest) :
    r.readPositions depth count first (state seen) (field :: fields) (lead first (text ++ rest)) =
      r.readPositions depth (count + 1) false (state (field.name :: seen)) fields rest := by
  obtain ⟨before, after, hbefore, hafter, rfl⟩ := htext
  obtain ⟨update, hreads, hupdate⟩ := htakes
  rw [List.append_assoc, List.append_assoc, readPositions,
    nextItem_lead first hbefore hreads.starts]
  dsimp only
  rw [hreads.reads_front (hrest.blank hafter)]
  dsimp only
  rw [hupdate]
  exact readPositions_blank _ _ _ _ hafter rest

theorem readPositions_items {state : List String → σ} {items : List (List Char)}
    {inner : List Char} (hinner : Separated Spaced items inner) {fields : List (Field σ)}
    (hlength : items.length ≤ fields.length)
    (htakes : ∀ p ∈ fields.zip items, p.1.Takes depth state p.2)
    (hoptional : ∀ field ∈ fields, field.required = false) (count : Nat) (first : Bool)
    (seen : List String) (rest : List Char) :
    r.readPositions depth count first (state seen) fields (lead first (inner ++ ']' :: rest)) =
      .ok (state (((fields.take items.length).map (·.name)).reverse ++ seen), rest) := by
  induction hinner generalizing fields count first seen with
  | @single item text htext =>
    obtain ⟨field, fields, rfl⟩ := List.exists_cons_of_length_pos hlength
    have hfield : field.Takes depth state item := htakes (field, item) (by simp)
    have hlast : r.readPositions depth (count + 1) false (state (field.name :: seen)) fields
        (']' :: rest) = .ok (state (field.name :: seen), rest) :=
      readPositions_closing (fun f hf => hoptional f (List.mem_cons_of_mem _ hf)) _ _ _ rest
    have hitem := readPositions_item (r := r) htext hfield count first seen fields
      (endsPart_closing .list rest)
    exact hitem.trans hlast
  | @cons item items text texts htext _ ih =>
    obtain ⟨field, fields, rfl⟩ := List.exists_cons_of_length_pos (Nat.zero_lt_of_lt hlength)
    have hfield : field.Takes depth state item := htakes (field, item) (by simp)
    have htail := ih (Nat.le_of_succ_le_succ hlength)
      (fun p hp => htakes p (List.mem_cons_of_mem _ hp))
      (fun f hf => hoptional f (List.mem_cons_of_mem _ hf)) (count + 1) false (field.name :: seen)
    rw [List.append_assoc, List.cons_append,
      readPositions_item htext hfield count first seen fields (endsPart_comma _)]
    refine htail.trans ?_
    simp

/-- A record is read from the array of the first of its fields. -/
theorem readsAs_array {state : List String → σ} {fieldText : String → List Char → Prop}
    (hfollows : r.Follows depth state fieldText) {items : List (List Char)} {text : List Char}
    (hitems : r.IsItems fieldText items) (htext : ArrayText items text)
    (hoptional : ∀ field ∈ r.fields, field.required = false) :
    ReadsAs (r.read (state []) (depth + 1)) text (state (r.names.take items.length)) := by
  obtain ⟨inner, hinner, rfl⟩ := htext
  refine .of_skipsSpace (skipsSpace_read _) ⟨'[', _, rfl, by decide, by decide⟩ fun rest _ => ?_
  have htakes : ∀ p ∈ r.fields.zip items, p.1.Takes depth state p.2 := by
    intro p hp
    have hname : (p.1.name, p.2) ∈ r.names.zip items := by
      rw [names, List.zip_map_left]
      exact List.mem_map.2 ⟨p, hp, rfl⟩
    exact hfollows.takes p.1 (List.of_mem_zip hp).1 p.2 (hitems.field _ hname)
  have hstate : state (r.names.take items.length) =
      state (((r.fields.take items.length).map (·.name)).reverse ++ []) :=
    hfollows.unordered fun name _ => by simp [names]
  have hlength : items.length ≤ r.fields.length := by
    simpa [names] using hitems.length_le
  rw [hstate, List.cons_append, List.append_assoc, List.singleton_append, read,
    skipSpace_cons (by decide)]
  change r.readPositions depth 0 true (state []) r.fields _ = _
  cases hinner with
  | empty hblank =>
    rw [readPositions_blank _ _ _ _ hblank]
    exact readPositions_closing hoptional 0 true (state []) rest
  | parts hparts => exact readPositions_items hparts hlength htakes hoptional 0 true [] rest

/-- The forms that a record without required fields may be read from. `state`
gives what they are read as, by the fields that they hold. -/
inductive Form (r : Record σ) (fieldText : String → List Char → Prop)
    (state : List String → σ) : σ → List Char → Prop
  | object {members : List (String × List Char)} {text : List Char}
      (hmembers : r.IsMembers fieldText members) (htext : RecordText members text) :
      Form r fieldText state (state (members.map Prod.fst)) text
  | array {items : List (List Char)} {text : List Char} (hitems : r.IsItems fieldText items)
      (htext : ArrayText items text) :
      Form r fieldText state (state (r.names.take items.length)) text

theorem readsAs_form {state : List String → σ} {fieldText : String → List Char → Prop}
    (hfollows : r.Follows depth state fieldText)
    (hoptional : ∀ field ∈ r.fields, field.required = false) {x : σ} {text : List Char}
    (hform : r.Form fieldText state x text) :
    ReadsAs (r.read (state []) (depth + 1)) text x := by
  cases hform with
  | object hmembers htext =>
    refine readsAs_object hfollows hmembers htext fun field hmem hrequired => ?_
    rw [hoptional field hmem] at hrequired
    cases hrequired
  | array hitems htext => exact readsAs_array hfollows hitems htext hoptional

end Record

/-! ### Texts of all fields -/

def members : Json → List (String × Json)
  | object members => members
  | _ => []

def ValueText (v : Json) (name : String) (text : List Char) : Prop :=
  ∃ w, (name, w) ∈ v.members ∧ TextOf w text

/-- A field and its value have one place in the order of declaration. -/
theorem mem_zip_of_name {fields : List (Field σ)} {members : List (String × Json)}
    (hnames : members.map Prod.fst = fields.map (·.name))
    (hdistinct : (fields.map (·.name)).Nodup) {field : Field σ} (hfield : field ∈ fields)
    {v : Json} (hv : (field.name, v) ∈ members) :
    (field, (field.name, v)) ∈ fields.zip members := by
  induction fields generalizing members with
  | nil => cases hfield
  | cons f fields ih =>
    obtain ⟨m, members, rfl⟩ : ∃ m ms, members = m :: ms := by
      cases members with
      | nil => cases hv
      | cons m members => exact ⟨m, members, rfl⟩
    obtain ⟨hname, hrest⟩ := List.cons.inj hnames
    obtain ⟨hhead, htail⟩ := List.nodup_cons.1 hdistinct
    rw [List.zip_cons_cons, List.mem_cons]
    rcases List.mem_cons.1 hfield with rfl | hfield
    · rcases List.mem_cons.1 hv with rfl | hv
      · exact .inl rfl
      · have hmem : field.name ∈ members.map Prod.fst := List.mem_map_of_mem hv
        exact absurd (hrest ▸ hmem) hhead
    · rcases List.mem_cons.1 hv with rfl | hv
      · exact absurd (List.mem_map.2 ⟨field, hfield, hname⟩) hhead
      · exact .inr (ih hrest htail hfield hv)

namespace Record

variable {r : Record σ} {depth : Nat} {state : List String → σ} {v : Json}

theorem takes_valueText (hnames : v.members.map Prod.fst = r.names) (hdistinct : r.names.Nodup)
    (htakes : ∀ p ∈ r.fields.zip v.members, ∀ text, TextOf p.2.2 text →
      p.1.Takes depth state text) :
    ∀ field ∈ r.fields, ∀ text, v.ValueText field.name text → field.Takes depth state text := by
  rintro field hfield text ⟨w, hw, htext⟩
  exact htakes _ (mem_zip_of_name hnames hdistinct hfield hw) text htext

/-- The members that write all fields. -/
theorem isMembers_of_texts {fieldText : String → List Char → Prop}
    {parts : List (String × Json × List Char)} (hnames : parts.map Prod.fst = r.names)
    (hdistinct : r.names.Nodup) (htexts : ∀ p ∈ parts, fieldText p.1 p.2.2) :
    r.IsMembers fieldText (parts.map fun p => (p.1, p.2.2)) := by
  refine ⟨?_, ?_, ?_⟩
  · have hfst : (parts.map fun p => (p.1, p.2.2)).map Prod.fst = r.names := by
      rw [List.map_map]
      exact hnames
    rw [named, hfst]
    exact hdistinct.filter _
  · intro m hm _
    obtain ⟨p, hp, rfl⟩ := List.mem_map.1 hm
    exact htexts p hp
  · intro m hm hother
    obtain ⟨p, hp, rfl⟩ := List.mem_map.1 hm
    exact absurd (hnames ▸ List.mem_map_of_mem hp) hother

/-- The texts of a value with all fields are objects of all fields. -/
theorem exists_members_of_textOf {fieldText : String → List Char → Prop} {text : List Char}
    {values : List (String × Json)} (h : TextOf (object values) text)
    (hnames : values.map Prod.fst = r.names) (hdistinct : r.names.Nodup)
    (htexts : ∀ name text, (object values).ValueText name text → fieldText name text) :
    ∃ members, r.IsMembers fieldText members ∧ RecordText members text ∧
      members.map Prod.fst = r.names := by
  obtain ⟨parts, rfl, htext, hparts⟩ := h.exists_members
  rw [List.map_map] at hnames
  refine ⟨_, isMembers_of_texts hnames hdistinct fun p hp => ?_, htext, ?_⟩
  · exact htexts _ _ ⟨p.2.1, List.mem_map_of_mem hp, hparts p hp⟩
  · rw [List.map_map]
    exact hnames

end Record

end JobConfig.Json
