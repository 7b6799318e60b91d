import JobConfig.Json.Reader

/-!
Quoted texts: what is spelled between quotes is read, whatever characters it
holds and whatever follows the closing quote.

A character may stand for itself or be written as an escape, by a letter or by
its code units. The form in which strings are written is one of the spellings.
-/

namespace JobConfig.Json

def letterEscapes : List (Char × Char) :=
  [('"', '"'), ('\\', '\\'), ('/', '/'), ('b', '\x08'), ('f', '\x0c'), ('n', '\n'), ('r', '\r'),
    ('t', '\t')]

inductive SpellsChar : List Char → Char → Prop
  | plain {c : Char} (hquote : c ≠ '"') (hbackslash : c ≠ '\\') (hcontrol : 0x20 ≤ c.toNat) :
      SpellsChar [c] c
  | letter {l c : Char} (hletter : (l, c) ∈ letterEscapes) : SpellsChar ['\\', l] c
  | codeUnit {h i j k : Char} {n : Nat} (hvalue : hexValue? [h, i, j, k] = some n)
      (hscalar : n < 0xD800 ∨ 0xDFFF < n) : SpellsChar ['\\', 'u', h, i, j, k] (Char.ofNat n)
  | surrogates {h i j k h' i' j' k' : Char} {n m : Nat} (hvalue : hexValue? [h, i, j, k] = some n)
      (hhigh : 0xD800 ≤ n ∧ n ≤ 0xDBFF) (hvalue' : hexValue? [h', i', j', k'] = some m)
      (hlow : 0xDC00 ≤ m ∧ m ≤ 0xDFFF) :
      SpellsChar ['\\', 'u', h, i, j, k, '\\', 'u', h', i', j', k']
        (Char.ofNat (0x10000 + (n - 0xD800) * 0x400 + (m - 0xDC00)))

inductive SpellsChars : List Char → List Char → Prop
  | nil : SpellsChars [] []
  | cons {text texts : List Char} {c : Char} {cs : List Char} (hchar : SpellsChar text c)
      (hchars : SpellsChars texts cs) : SpellsChars (text ++ texts) (c :: cs)

/-- The text is a spelling of the string in quotes. -/
def Spells (text : List Char) (s : String) : Prop :=
  ∃ body, SpellsChars body s.toList ∧ text = '"' :: (body ++ ['"'])

/-! ### Reading -/

theorem readHex_of_hexValue? {h i j k : Char} {n : Nat} (hvalue : hexValue? [h, i, j, k] = some n)
    (rest : List Char) : readHex (h :: i :: j :: k :: rest) = .ok (n, rest) := by
  simp [readHex, hvalue]

theorem readUnit_escape {text rest : List Char} {c : Char}
    (h : readEscape text = .ok (c, rest)) : readUnit ('\\' :: text) = .ok (some c, rest) := by
  rw [readUnit, if_neg (by decide), if_pos rfl, h, Except.map]

theorem readEscape_unicode {text rest : List Char} {c : Char}
    (h : readUnicode text = .ok (c, rest)) : readEscape ('u' :: text) = .ok (c, rest) := by
  rw [readEscape, if_pos rfl, h]

theorem readEscape_letter {l c : Char} (hletter : (l, c) ∈ letterEscapes) (rest : List Char) :
    readEscape (l :: rest) = .ok (c, rest) := by
  simp only [letterEscapes, List.mem_cons, List.not_mem_nil, or_false, Prod.mk.injEq] at hletter
  rcases hletter with ⟨rfl, rfl⟩ | ⟨rfl, rfl⟩ | ⟨rfl, rfl⟩ | ⟨rfl, rfl⟩ | ⟨rfl, rfl⟩ | ⟨rfl, rfl⟩ |
    ⟨rfl, rfl⟩ | ⟨rfl, rfl⟩ <;> rfl

theorem readUnit_spells {text : List Char} {c : Char} (h : SpellsChar text c) (rest : List Char) :
    readUnit (text ++ rest) = .ok (some c, rest) := by
  cases h with
  | plain hquote hbackslash hcontrol =>
    rw [List.singleton_append, readUnit, if_neg hquote, if_neg hbackslash,
      if_neg (Nat.not_lt.2 hcontrol)]
  | letter hletter => exact readUnit_escape (readEscape_letter hletter rest)
  | @codeUnit h i j k n hvalue hscalar =>
    have hread : readUnicode (h :: i :: j :: k :: rest) = .ok (Char.ofNat n, rest) := by
      rw [readUnicode, readHex_of_hexValue? hvalue]
      dsimp only
      rw [if_neg (by omega), if_neg (by omega)]
    exact readUnit_escape (readEscape_unicode hread)
  | @surrogates h i j k h' i' j' k' n m hvalue hhigh hvalue' hlow =>
    have hread : readUnicode (h :: i :: j :: k :: '\\' :: 'u' :: h' :: i' :: j' :: k' :: rest) =
        .ok (Char.ofNat (0x10000 + (n - 0xD800) * 0x400 + (m - 0xDC00)), rest) := by
      rw [readUnicode, readHex_of_hexValue? hvalue]
      dsimp only
      rw [if_neg (by omega), if_pos hhigh]
      simp only [readHex_of_hexValue? hvalue']
      rw [if_neg (by omega)]
    exact readUnit_escape (readEscape_unicode hread)

theorem readUnits_spells {text cs : List Char} (h : SpellsChars text cs) (acc rest : List Char)
    {bound : Nat} (hbound : cs.length < bound) :
    readUnits acc bound (text ++ '"' :: rest) = .ok (String.ofList (acc.reverse ++ cs), rest) := by
  induction h generalizing acc bound with
  | nil =>
    obtain ⟨bound, rfl⟩ := Nat.exists_eq_succ_of_ne_zero (Nat.ne_zero_of_lt hbound)
    rw [readUnits]
    simp [readUnit]
  | cons hchar _ ih =>
    obtain ⟨bound, rfl⟩ := Nat.exists_eq_succ_of_ne_zero (Nat.ne_zero_of_lt hbound)
    rw [readUnits, List.append_assoc, readUnit_spells hchar]
    dsimp only
    rw [ih _ (Nat.lt_of_succ_lt_succ hbound)]
    simp

theorem length_le_of_spells {text cs : List Char} (h : SpellsChars text cs) :
    cs.length ≤ text.length := by
  induction h with
  | nil => simp
  | cons hchar _ ih =>
    simp only [List.length_cons, List.length_append]
    cases hchar <;> simp only [List.length_cons, List.length_nil] <;> omega

/-- A string is read behind its opening quote, however it is spelled. -/
theorem readString_spells {text : List Char} {s : String} (h : SpellsChars text s.toList)
    (rest : List Char) : readString (text ++ '"' :: rest) = .ok (s, rest) := by
  have hlength := length_le_of_spells h
  have hbound : s.toList.length < (text ++ '"' :: rest).length := by
    rw [List.length_append, List.length_cons]
    omega
  rw [readString, readUnits_spells h [] rest hbound]
  simp

theorem Spells.exists_tail {text : List Char} {s : String} (h : Spells text s) :
    ∃ tail, text = '"' :: tail ∧ ∀ rest, readString (tail ++ rest) = .ok (s, rest) := by
  obtain ⟨body, hbody, rfl⟩ := h
  refine ⟨_, rfl, fun rest => ?_⟩
  rw [List.append_assoc, List.singleton_append, readString_spells hbody]

/-! ### Writing -/

theorem hexValue?_control {n : Nat} (h : n < 0x20) :
    hexValue? ['0', '0', Nat.digitChar (n / 16), Nat.digitChar (n % 16)] = some n := by
  have hall : ∀ m : Fin 0x20,
      hexValue? ['0', '0', Nat.digitChar (m / 16), Nat.digitChar (m % 16)] = some m.val := by decide
  exact hall ⟨n, h⟩

/-- Every character is spelled by the form it takes within quotes. -/
theorem spellsChar_escapeChar (c : Char) : SpellsChar (escapeChar c) c := by
  unfold escapeChar
  -- First the characters that have a letter.
  split
  · subst c; exact .letter (by decide)
  split
  · subst c; exact .letter (by decide)
  split
  · subst c; exact .letter (by decide)
  split
  · subst c; exact .letter (by decide)
  split
  · subst c; exact .letter (by decide)
  split
  · subst c; exact .letter (by decide)
  split
  · subst c; exact .letter (by decide)
  -- Then the other control characters, and last those that stand for themselves.
  split
  · rename_i hcontrol
    have hunit := SpellsChar.codeUnit (hexValue?_control hcontrol) (by omega)
    rwa [Char.ofNat_toNat] at hunit
  · rename_i hquote hbackslash _ _ _ _ _ hcontrol
    exact .plain hquote hbackslash (Nat.not_lt.1 hcontrol)

theorem spellsChars_escaped (cs : List Char) : SpellsChars (cs.flatMap escapeChar) cs := by
  induction cs with
  | nil => exact .nil
  | cons c cs ih => exact .cons (spellsChar_escapeChar c) ih

theorem spells_quotedChars (s : String) : Spells (quotedChars s.toList) s :=
  ⟨_, spellsChars_escaped s.toList, rfl⟩

end JobConfig.Json
