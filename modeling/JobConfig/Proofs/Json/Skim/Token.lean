import JobConfig.Proofs.Json.Collection

/-!
Skimming of single tokens: numbers and strings are passed over as the grammar
gives them, up to what may follow a value.
-/

namespace JobConfig.Json

/-! ### What follows a value -/

theorem EndsPart.mem {c : Char} {rest : List Char} (h : EndsPart (c :: rest)) :
    c ∈ [' ', '\n', '\t', '\r', ',', ']', '}'] := by
  have hc := h c rfl
  simpa [isSpace, or_assoc] using hc

theorem EndsPart.startsWithDigit {rest : List Char} (h : EndsPart rest) :
    startsWithDigit rest = false := by
  cases rest with
  | nil => rfl
  | cons c rest =>
    have hc := h.mem
    simp only [List.mem_cons, List.not_mem_nil, or_false] at hc
    rcases hc with rfl | rfl | rfl | rfl | rfl | rfl | rfl <;> rfl

/-! ### Numbers -/

theorem forall_ne_of_isDigit {c : Char} (h : c.isDigit = true) {others : List Char}
    (hothers : others.any Char.isDigit = false) : ∀ d ∈ others, c ≠ d := by
  rintro d hd rfl
  exact absurd h (List.any_eq_false.1 hothers c hd)

theorem isSpace_of_isDigit {c : Char} (h : c.isDigit = true) : isSpace c = false := by
  have hne : ∀ d ∈ [' ', '\n', '\t', '\r'], c ≠ d := forall_ne_of_isDigit h (by decide)
  simp only [List.forall_mem_cons] at hne
  simp [isSpace, hne]

theorem skimDigits_append {digits rest : List Char} (hdigits : IsDigits digits)
    (hrest : startsWithDigit rest = false) : skimDigits (digits ++ rest) = .ok rest := by
  obtain ⟨hne, hall⟩ := hdigits
  obtain ⟨d, digits, rfl⟩ := List.exists_cons_of_ne_nil hne
  have hd := hall d List.mem_cons_self
  have hdrop : rest.dropWhile Char.isDigit = rest := by
    cases rest with
    | nil => rfl
    | cons c rest => exact List.dropWhile_cons_of_neg (by simpa [startsWithDigit] using hrest)
  rw [skimDigits, List.dropWhile_append_of_pos hall, hdrop, List.cons_append]
  exact if_pos hd

theorem skimSigned_append {sign digits rest : List Char}
    (hsign : sign = [] ∨ sign = ['+'] ∨ sign = ['-']) (hdigits : IsDigits digits)
    (hrest : startsWithDigit rest = false) :
    skimSigned (sign ++ (digits ++ rest)) = .ok rest := by
  have hskim := skimDigits_append hdigits hrest
  rcases hsign with rfl | rfl | rfl
  · obtain ⟨hne, hall⟩ := hdigits
    obtain ⟨d, digits, rfl⟩ := List.exists_cons_of_ne_nil hne
    have hd := hall d List.mem_cons_self
    unfold skimSigned
    split
    · rename_i heq
      cases heq
      exact absurd hd (by decide)
    · rename_i heq
      cases heq
      exact absurd hd (by decide)
    · exact hskim
  · exact hskim
  · exact hskim

theorem skimExponent_append {exponent rest : List Char} (hexponent : IsExponent exponent)
    (hrest : EndsPart rest) : skimExponent (exponent ++ rest) = .ok rest := by
  cases hexponent with
  | none =>
    cases rest with
    | nil => rfl
    | cons c rest =>
      have hc := hrest.mem
      unfold skimExponent
      split
      · rename_i heq
        cases heq
        exact absurd hc (by decide)
      · rename_i heq
        cases heq
        exact absurd hc (by decide)
      · rfl
  | digits hletter hsign hdigits =>
    have hskim := skimSigned_append hsign hdigits hrest.startsWithDigit
    rw [List.cons_append, List.append_assoc]
    rcases hletter with rfl | rfl <;> exact hskim

/-- What stands behind the digits of a number goes on with no digit. -/
theorem startsWithDigit_exponent {exponent rest : List Char} (hexponent : IsExponent exponent)
    (hrest : EndsPart rest) : startsWithDigit (exponent ++ rest) = false := by
  cases hexponent with
  | none => exact hrest.startsWithDigit
  | digits hletter hsign hdigits => rcases hletter with rfl | rfl <;> rfl

theorem startsWithDigit_fraction {fraction exponent rest : List Char}
    (hfraction : IsFraction fraction) (hexponent : IsExponent exponent) (hrest : EndsPart rest) :
    startsWithDigit (fraction ++ (exponent ++ rest)) = false := by
  cases hfraction with
  | none => simpa using startsWithDigit_exponent hexponent hrest
  | digits hdigits => rfl

def skimWhole : List Char → Except Fault (List Char)
  | '0' :: rest => if startsWithDigit rest then .error .invalidNumber else .ok rest
  | rest => skimDigits rest

theorem skimUnsigned_eq (cs : List Char) :
    skimUnsigned cs =
      match skimWhole cs with
      | .error e => .error e
      | .ok ('.' :: rest) =>
        match skimDigits rest with
        | .error e => .error e
        | .ok rest => skimExponent rest
      | .ok rest => skimExponent rest := by
  rfl

theorem skimWhole_append {whole rest : List Char} (hwhole : IsWhole whole)
    (hrest : startsWithDigit rest = false) : skimWhole (whole ++ rest) = .ok rest := by
  cases hwhole with
  | zero =>
    rw [List.cons_append, List.nil_append, skimWhole, hrest]
    rfl
  | positive hdigits hhead =>
    have hskim := skimDigits_append hdigits hrest
    unfold skimWhole
    split
    · rename_i heq
      obtain ⟨d, digits, rfl⟩ := List.exists_cons_of_ne_nil hdigits.1
      cases heq
      exact absurd rfl hhead
    · exact hskim

theorem head?_exponent_ne {exponent rest : List Char} (hexponent : IsExponent exponent)
    (hrest : EndsPart rest) : (exponent ++ rest).head? ≠ some '.' := by
  cases hexponent with
  | none =>
    intro h
    have hmem := hrest '.' h
    revert hmem
    decide
  | digits hletter hsign hdigits => rcases hletter with rfl | rfl <;> simp

theorem skimUnsigned_append {text rest : List Char} (htext : IsUnsigned text)
    (hrest : EndsPart rest) : skimUnsigned (text ++ rest) = .ok rest := by
  obtain ⟨hwhole, hfraction, hexponent⟩ := htext
  rename_i whole fraction exponent
  have hskim := skimWhole_append hwhole (startsWithDigit_fraction hfraction hexponent hrest)
  have htail := skimExponent_append hexponent hrest
  rw [List.append_assoc, List.append_assoc, skimUnsigned_eq, hskim]
  cases hfraction with
  | none =>
    have hpoint := head?_exponent_ne hexponent hrest
    rw [List.nil_append]
    split
    · rename_i heq
      cases heq
    · rename_i heq
      rw [Except.ok.inj heq] at hpoint
      exact absurd rfl hpoint
    · rename_i heq
      rw [← Except.ok.inj heq]
      exact htail
  | digits hdigits =>
    have hfirst := skimDigits_append hdigits (startsWithDigit_exponent hexponent hrest)
    rw [List.cons_append]
    simp only [hfirst]
    exact htail

/-! ### Strings -/

theorem isSome_digit?_of_mem_hexDigits {c : Char} (h : c ∈ hexDigits) :
    (Integer.digit? 16 c).isSome = true := by
  have hall : hexDigits.all (fun c => (Integer.digit? 16 c).isSome) = true := by decide
  exact List.all_eq_true.1 hall c h

theorem exists_readHex {a b c d : Char} (h : ∀ x ∈ [a, b, c, d], x ∈ hexDigits)
    (rest : List Char) : ∃ n, readHex (a :: b :: c :: d :: rest) = .ok (n, rest) := by
  have hdigit : ∀ x ∈ [a, b, c, d], ∃ n, Integer.digit? 16 x = some n := fun x hx =>
    Option.isSome_iff_exists.1 (isSome_digit?_of_mem_hexDigits (h x hx))
  obtain ⟨i, hi⟩ := hdigit a (by simp)
  obtain ⟨j, hj⟩ := hdigit b (by simp)
  obtain ⟨k, hk⟩ := hdigit c (by simp)
  obtain ⟨l, hl⟩ := hdigit d (by simp)
  refine ⟨((i * 16 + j) * 16 + k) * 16 + l, ?_⟩
  simp [readHex, hexValue?, hi, hj, hk, hl]

theorem isSome_simpleEscape? {c : Char} (h : c ∈ ['"', '\\', '/', 'b', 'f', 'n', 'r', 't']) :
    (simpleEscape? c).isSome = true := by
  simp only [List.mem_cons, List.not_mem_nil, or_false] at h
  rcases h with rfl | rfl | rfl | rfl | rfl | rfl | rfl | rfl <;> rfl

theorem skimString_plain {c : Char} (hquote : c ≠ '"') (hbackslash : c ≠ '\\')
    (hcontrol : 0x20 ≤ c.toNat) (bound : Nat) (rest : List Char) :
    skimString (bound + 1) (c :: rest) = skimString bound rest := by
  have hprintable : ¬ c.toNat < 0x20 := Nat.not_lt.2 hcontrol
  cases rest <;>
    conv =>
      lhs
      rw [skimString, if_neg hquote, if_neg hbackslash, if_neg hprintable]

theorem skimString_append {tail : List Char} (htail : IsStringTail tail) (rest : List Char)
    {bound : Nat} (hbound : tail.length ≤ bound) :
    skimString bound (tail ++ rest) = .ok rest := by
  induction htail generalizing bound with
  | close =>
    obtain ⟨bound, rfl⟩ := Nat.exists_eq_add_of_le' hbound
    cases rest <;> rfl
  | plain hquote hbackslash hcontrol _ ih =>
    obtain ⟨bound, rfl⟩ := Nat.exists_eq_add_of_le' hbound
    rw [List.cons_append, List.length_cons, ← Nat.add_assoc,
      skimString_plain hquote hbackslash hcontrol]
    exact ih (Nat.le_add_left _ _)
  | @escape c tail hc _ ih =>
    have hu : c ≠ 'u' := by
      rintro rfl
      exact absurd hc (by decide)
    have hsome := isSome_simpleEscape? hc
    obtain ⟨bound, rfl⟩ := Nat.exists_eq_add_of_le' hbound
    rw [List.cons_append, List.cons_append, List.length_cons, List.length_cons, ← Nat.add_assoc,
      skimString, if_neg (by decide), if_pos rfl, if_neg hu, if_pos hsome]
    exact ih (by omega)
  | @codeUnit a b c d tail hdigits _ ih =>
    obtain ⟨n, hn⟩ := exists_readHex hdigits (tail ++ rest)
    obtain ⟨bound, rfl⟩ := Nat.exists_eq_add_of_le' hbound
    simp only [List.cons_append, List.length_cons, ← Nat.add_assoc]
    rw [skimString, if_neg (by decide), if_pos rfl, if_pos rfl, hn]
    exact ih (by omega)

end JobConfig.Json
