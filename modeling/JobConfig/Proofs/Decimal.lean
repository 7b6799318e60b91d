import JobConfig.Number.Integer

/-!
Decimal texts of integers: reading within a range gives back every integer of
the range, the two ends included. The texts that are read at all are those that
write an integer of the range (`Integer.Writes`).
-/

namespace JobConfig

namespace Integer

/-! ### Digits -/

theorem digit?_ten {c : Char} (h : c.isDigit = true) :
    digit? 10 c = some (c.toNat - '0'.toNat) := by
  have hval : 48 ≤ c.val ∧ c.val ≤ 57 := by simpa [Char.isDigit] using h
  have hrange : '0' ≤ c ∧ c ≤ '9' := hval
  have hlt : c.toNat - '0'.toNat < 10 := by
    have hle : c.toNat ≤ 57 := hval.2
    have hzero : '0'.toNat = 48 := rfl
    omega
  rw [digit?, if_pos hrange]
  simp only [Option.filter_some, hlt, decide_true, if_true]

theorem le_ofDigitChars (cs : List Char) (acc : Nat) : acc ≤ Nat.ofDigitChars 10 cs acc := by
  induction cs generalizing acc with
  | nil => simp
  | cons c cs ih =>
    have hnext := ih (10 * acc + (c.toNat - '0'.toNat))
    rw [Nat.ofDigitChars_cons]
    omega

/-- Digits whose value is within the limit are read as that value. The value
only grows from digit to digit, so no part of it is beyond the limit either. -/
theorem readDigits_eq_ok {limit : Nat} (beyond : IntegerFault) {cs : List Char} {acc : Nat}
    (hcs : ∀ c ∈ cs, c.isDigit = true) (h : Nat.ofDigitChars 10 cs acc ≤ limit) :
    readDigits 10 limit beyond acc cs = .ok (Nat.ofDigitChars 10 cs acc) := by
  induction cs generalizing acc with
  | nil => simp [readDigits]
  | cons c cs ih =>
    have hc := digit?_ten (hcs c List.mem_cons_self)
    rw [Nat.ofDigitChars_cons] at h ⊢
    have hvalue : acc * 10 + (c.toNat - '0'.toNat) = 10 * acc + (c.toNat - '0'.toNat) := by
      omega
    have hle := le_ofDigitChars cs (10 * acc + (c.toNat - '0'.toNat))
    rw [readDigits, hc]
    dsimp only
    rw [hvalue, if_neg (by omega), ih (fun d hd => hcs d (List.mem_cons_of_mem _ hd)) h]

theorem isDigit_of_mem_toDigits {n : Nat} {c : Char} (h : c ∈ Nat.toDigits 10 n) :
    c.isDigit = true :=
  Nat.isDigit_of_mem_toDigits (by decide) (by decide) h

theorem readDigits_toDigits {limit n : Nat} (beyond : IntegerFault) (h : n ≤ limit) :
    readDigits 10 limit beyond 0 (Nat.toDigits 10 n) = .ok n := by
  have hvalue : Nat.ofDigitChars 10 (Nat.toDigits 10 n) 0 = n := Nat.ofDigitChars_ten_toDigits
  rw [readDigits_eq_ok beyond (fun c hc => isDigit_of_mem_toDigits hc) (by omega), hvalue]

/-! ### Integers -/

/-- A text that begins with a digit is read without a sign. -/
theorem read_of_isDigit {low high : Int} {cs : List Char} (hne : cs ≠ [])
    (hcs : ∀ c ∈ cs, c.isDigit = true) :
    read low high cs = (readDigits 10 high.toNat .tooLarge 0 cs).map fun n => (n : Int) := by
  unfold read
  split
  · exact absurd rfl hne
  · exact absurd (hcs '-' List.mem_cons_self) (by decide)
  · exact absurd (hcs '+' List.mem_cons_self) (by decide)
  · rfl

/-- An integer in range is read back from its decimal text. -/
theorem read_chars {low high n : Int} (hlow : low ≤ n) (hhigh : n ≤ high) :
    read low high (chars n) = .ok n := by
  cases n with
  | ofNat n =>
    have hlimit : n ≤ high.toNat := by
      have hle : (n : Int) ≤ high := hhigh
      omega
    have hread := readDigits_toDigits .tooLarge hlimit
    rw [chars, read_of_isDigit Nat.toDigits_ne_nil fun c hc => isDigit_of_mem_toDigits hc, hread]
    rfl
  | negSucc n =>
    have hlimit : n + 1 ≤ (-low).toNat := by omega
    have hread := readDigits_toDigits .tooSmall hlimit
    have hne : (Nat.toDigits 10 (n + 1)).isEmpty = false := by
      simp [Nat.toDigits_ne_nil]
    rw [chars, read, hne, hread]
    rfl

/-- A decimal text is made of digits and a sign. -/
theorem eq_dash_or_isDigit_of_mem_chars {n : Int} {c : Char} (h : c ∈ chars n) :
    c = '-' ∨ c.isDigit = true := by
  cases n with
  | ofNat n => exact .inr (isDigit_of_mem_toDigits h)
  | negSucc n =>
    rcases List.mem_cons.1 h with h | h
    · exact .inl h
    · exact .inr (isDigit_of_mem_toDigits h)

/-! ### Which texts are integers -/

/-- The characters write the integer: digits, behind at most one sign. -/
inductive Writes : List Char → Int → Prop
  | unsigned {digits : List Char} (hne : digits ≠ []) (hdigits : ∀ c ∈ digits, c.isDigit = true) :
      Writes digits (Nat.ofDigitChars 10 digits 0)
  | plus {digits : List Char} (hne : digits ≠ []) (hdigits : ∀ c ∈ digits, c.isDigit = true) :
      Writes ('+' :: digits) (Nat.ofDigitChars 10 digits 0)
  | minus {digits : List Char} (hne : digits ≠ []) (hdigits : ∀ c ∈ digits, c.isDigit = true) :
      Writes ('-' :: digits) (-(Nat.ofDigitChars 10 digits 0 : Int))

theorem digit?_ten_eq_some_iff {c : Char} {d : Nat} :
    digit? 10 c = some d ↔ c.isDigit = true ∧ c.toNat - '0'.toNat = d := by
  constructor
  · intro h
    by_cases hrange : '0' ≤ c ∧ c ≤ '9'
    · have hval : 48 ≤ c.val ∧ c.val ≤ 57 := hrange
      have hdigit : c.isDigit = true := by simpa [Char.isDigit] using hval
      rw [digit?_ten hdigit] at h
      exact ⟨hdigit, Option.some.inj h⟩
    -- A letter stands for ten or more.
    · rw [digit?, if_neg hrange, Option.filter_eq_some_iff] at h
      obtain ⟨hvalue, hlt⟩ := h
      have hlt : d < 10 := by simpa using hlt
      split at hvalue
      · have hd := Option.some.inj hvalue
        omega
      split at hvalue
      · have hd := Option.some.inj hvalue
        omega
      · cases hvalue
  · rintro ⟨hdigit, rfl⟩
    exact digit?_ten hdigit

/-- Reading digits gives their value, and fails if one of them is no digit or the
value is beyond the limit. -/
theorem readDigits_eq_ok_iff {limit n : Nat} {beyond : IntegerFault} {cs : List Char} {acc : Nat}
    (hacc : acc ≤ limit) :
    readDigits 10 limit beyond acc cs = .ok n ↔
      (∀ c ∈ cs, c.isDigit = true) ∧ Nat.ofDigitChars 10 cs acc = n ∧ n ≤ limit := by
  constructor
  · intro h
    induction cs generalizing acc with
    | nil =>
      rw [readDigits] at h
      obtain rfl := Except.ok.inj h
      exact ⟨by simp, by simp, hacc⟩
    | cons c cs ih =>
      rw [readDigits] at h
      split at h
      · cases h
      rename_i d hd
      obtain ⟨hc, rfl⟩ := digit?_ten_eq_some_iff.1 hd
      split at h
      · cases h
      rename_i hle
      obtain ⟨hcs, hvalue, hlimit⟩ := ih (Nat.not_lt.1 hle) h
      refine ⟨List.forall_mem_cons.2 ⟨hc, hcs⟩, ?_, hlimit⟩
      rw [Nat.ofDigitChars_cons, Nat.mul_comm 10 acc, hvalue]
  · rintro ⟨hcs, rfl, hlimit⟩
    exact readDigits_eq_ok beyond hcs hlimit

/-- The same of digits whose value is taken further. -/
theorem map_readDigits_eq_ok_iff {limit : Nat} {beyond : IntegerFault} {cs : List Char}
    {f : Int → Int} {n : Int} :
    (do let m ← readDigits 10 limit beyond 0 cs; pure (m : Int)).map f = .ok n ↔
      (∀ c ∈ cs, c.isDigit = true) ∧ Nat.ofDigitChars 10 cs 0 ≤ limit ∧
        f (Nat.ofDigitChars 10 cs 0) = n := by
  cases h : readDigits 10 limit beyond 0 cs with
  | ok m =>
    obtain ⟨hcs, rfl, hlimit⟩ := (readDigits_eq_ok_iff (Nat.zero_le _)).1 h
    have hvalue : (Except.ok (f (Nat.ofDigitChars 10 cs 0)) : Except IntegerFault Int) = .ok n ↔
        f (Nat.ofDigitChars 10 cs 0) = n := by
      rw [Except.ok.injEq]
    exact hvalue.trans ⟨fun hn => ⟨hcs, hlimit, hn⟩, fun hall => hall.2.2⟩
  | error fault =>
    refine iff_of_false (fun hok => nomatch hok) ?_
    rintro ⟨hcs, hlimit, -⟩
    rw [readDigits_eq_ok beyond hcs hlimit] at h
    cases h

/-- The texts that are read as integers of a range around zero are those that
write one, and no other integer is read than the one that is written. -/
theorem read_eq_ok_iff {low high n : Int} (hlow : low ≤ 0) (hhigh : 0 ≤ high) {cs : List Char} :
    read low high cs = .ok n ↔ Writes cs n ∧ low ≤ n ∧ n ≤ high := by
  constructor
  · intro h
    unfold read at h
    split at h
    · cases h
    · rename_i digits
      split at h
      · cases h
      rename_i hne
      obtain ⟨hdigits, hlimit, rfl⟩ := map_readDigits_eq_ok_iff.1 h
      exact ⟨.minus (by simpa using hne) hdigits, by omega, by omega⟩
    · rename_i digits
      split at h
      · cases h
      rename_i hne
      obtain ⟨hdigits, hlimit, rfl⟩ := map_readDigits_eq_ok_iff.1 h
      exact ⟨.plus (by simpa using hne) hdigits, by omega, by omega⟩
    · rename_i hne _ _
      obtain ⟨hdigits, hlimit, rfl⟩ := map_readDigits_eq_ok_iff.1 h
      exact ⟨.unsigned hne hdigits, by omega, by omega⟩
  · rintro ⟨hwrites, hle, hge⟩
    cases hwrites with
    | unsigned hne hdigits =>
      rw [read_of_isDigit hne hdigits]
      exact map_readDigits_eq_ok_iff.2 ⟨hdigits, by omega, rfl⟩
    | plus hne hdigits =>
      rw [read, if_neg (by simpa using hne)]
      exact map_readDigits_eq_ok_iff.2 ⟨hdigits, by omega, rfl⟩
    | minus hne hdigits =>
      rw [read, if_neg (by simpa using hne)]
      exact map_readDigits_eq_ok_iff.2 ⟨hdigits, by omega, rfl⟩

end Integer

end JobConfig
