import JobConfig.Proofs.Decimal
import JobConfig.Proofs.Json.Skim.Token

/-!
Integers within JSON texts: a decimal text is read back as the integer it was
written from, up to the full range of 64-bit words.
-/

namespace JobConfig.Json

/-! ### Digits -/

theorem exists_cons_toDigits (n : Nat) :
    ∃ c tail, Nat.toDigits 10 n = c :: tail ∧ c.isDigit = true := by
  have hne : Nat.toDigits 10 n ≠ [] := Nat.toDigits_ne_nil
  obtain ⟨c, tail, htext⟩ := List.exists_cons_of_ne_nil hne
  have hc : c ∈ Nat.toDigits 10 n := by simp [htext]
  exact ⟨c, tail, htext, Integer.isDigit_of_mem_toDigits hc⟩

/-- The digits of a positive number are not led by a zero. -/
theorem head?_toDigits_ne {n : Nat} (h : 0 < n) : (Nat.toDigits 10 n).head? ≠ some '0' := by
  induction n using Nat.strongRecOn with
  | ind n ih =>
    by_cases hlt : n < 10
    · have hdigit : ∀ m : Fin 10, 0 < m.val → Nat.digitChar m.val ≠ '0' := by decide
      rw [Nat.toDigits_of_lt_base hlt]
      simpa using hdigit ⟨n, hlt⟩ h
    · have htenth := ih (n / 10) (by omega) (by omega)
      obtain ⟨c, tail, htail, -⟩ := exists_cons_toDigits (n / 10)
      rw [Nat.toDigits_of_base_le (by decide) (by omega)]
      rw [htail] at htenth ⊢
      exact htenth

/-- Digits within the largest significand are all taken. -/
theorem takeDigits_append {digits rest : List Char} {significand : Nat} (count : Nat)
    (hdigits : ∀ c ∈ digits, c.isDigit = true) (hrest : startsWithDigit rest = false)
    (h : Nat.ofDigitChars 10 digits significand ≤ maxSignificand) :
    takeDigits significand count (digits ++ rest) =
      (Nat.ofDigitChars 10 digits significand, count + digits.length, rest) := by
  induction digits generalizing significand count with
  | nil =>
    cases rest with
    | nil => simp [takeDigits]
    | cons c rest =>
      have hc : c.isDigit = false := hrest
      simp [takeDigits, hc]
  | cons c digits ih =>
    have hc := hdigits c List.mem_cons_self
    rw [Nat.ofDigitChars_cons] at h ⊢
    have hvalue : significand * 10 + (c.toNat - '0'.toNat) =
        10 * significand + (c.toNat - '0'.toNat) := by
      omega
    have hle := Integer.le_ofDigitChars digits (10 * significand + (c.toNat - '0'.toNat))
    have htail := ih (count + 1) (fun d hd => hdigits d (List.mem_cons_of_mem _ hd)) h
    rw [List.cons_append, takeDigits, hvalue, if_pos ⟨hc, by omega⟩, htail, List.length_cons]
    congr 2
    omega

/-! ### Numbers -/

theorem ofInt?_val (n : WideInt) : WideInt.ofInt? n.val = some n :=
  dif_pos ⟨n.lower, n.upper⟩

section Unsigned

variable {negative : Bool} {m : Nat} {n : WideInt} {rest : List Char}

/-- Digits are an integer if neither a fraction nor an exponent follows. -/
theorem endInteger_of_endsPart (hn : n.val = if negative then -(m : Int) else m)
    (hzero : ¬ (negative = true ∧ m = 0)) (hrest : EndsPart rest) :
    endInteger negative m rest = .ok (.integer n, rest) := by
  unfold endInteger
  split
  · exact absurd hrest.mem (by decide)
  · exact absurd hrest.mem (by decide)
  · exact absurd hrest.mem (by decide)
  · dsimp only
    rw [if_neg hzero, ← hn, ofInt?_val]

theorem readUnsigned_toDigits (hn : n.val = if negative then -(m : Int) else m)
    (hzero : ¬ (negative = true ∧ m = 0)) (hrest : EndsPart rest) :
    readUnsigned negative (Nat.toDigits 10 m ++ rest) = .ok (.integer n, rest) := by
  have hend := endInteger_of_endsPart hn hzero hrest
  by_cases hm : m = 0
  · subst hm
    rw [Nat.toDigits_zero, List.singleton_append, readUnsigned, if_neg (by decide), if_pos rfl,
      hrest.startsWithDigit]
    exact hend
  · have hle : m ≤ maxSignificand := by
      have hlower := n.lower
      have hupper := n.upper
      unfold maxSignificand
      split at hn <;> omega
    have hvalue : Nat.ofDigitChars 10 (Nat.toDigits 10 m) 0 = m := Nat.ofDigitChars_ten_toDigits
    have htake := takeDigits_append 0 (fun c hc => Integer.isDigit_of_mem_toDigits hc)
      hrest.startsWithDigit (by rwa [hvalue])
    rw [hvalue] at htake
    obtain ⟨c, tail, htext, hc⟩ := exists_cons_toDigits m
    have hne : c ≠ '0' := by
      have hhead := head?_toDigits_ne (Nat.pos_of_ne_zero hm)
      rw [htext] at hhead
      simpa using hhead
    rw [htext, List.cons_append] at htake ⊢
    rw [readUnsigned, if_neg (by simp [hc]), if_neg hne, htake]
    dsimp only
    rw [hrest.startsWithDigit]
    exact hend

end Unsigned

/-- An integer is read back from its decimal text. -/
theorem readNumber_chars (n : WideInt) {rest : List Char} (hrest : EndsPart rest) :
    readNumber (Integer.chars n.val ++ rest) = .ok (.integer n, rest) := by
  cases hval : n.val with
  | ofNat m =>
    have hread : readUnsigned false (Nat.toDigits 10 m ++ rest) = .ok (.integer n, rest) :=
      readUnsigned_toDigits hval (by simp) hrest
    obtain ⟨c, tail, htext, hc⟩ := exists_cons_toDigits m
    have hdash : ∀ d ∈ ['-'], c ≠ d := forall_ne_of_isDigit hc (by decide)
    rw [Integer.chars]
    rw [htext] at hread ⊢
    unfold readNumber
    split
    · rename_i heq
      exact absurd (List.head_eq_of_cons_eq heq) (hdash '-' List.mem_cons_self)
    · exact hread
  | negSucc m =>
    rw [Integer.chars, List.cons_append, readNumber]
    exact readUnsigned_toDigits hval (by simp) hrest

end JobConfig.Json
