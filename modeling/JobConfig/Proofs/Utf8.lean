import JobConfig.Text.Utf8

/-!
Bytes of texts: the bytes of every character are read back as that character,
so every text is read back from its bytes.
-/

namespace JobConfig.Utf8

theorem toNat_toUInt8 {n : Nat} (h : n < 256) : n.toUInt8.toNat = n := by
  simp [Nat.toUInt8, Nat.mod_eq_of_lt h]

/-! ### First bytes

The range of the second byte depends on the first one where the second could
make the form overlong, a surrogate, or too large. -/

theorem lead?_two {n : Nat} (hlow : 0x80 ≤ n) (hhigh : n < 0x800) :
    lead? (0xC0 + n / 64) = some ⟨2, 0x80, 0xBF⟩ := by
  rw [lead?, if_pos (by omega)]

theorem lead?_three {n : Nat} (hlow : 0x800 ≤ n) (hhigh : n < 0x10000)
    (hscalar : n < 0xD800 ∨ 0xDFFF < n) :
    ∃ lead, lead? (0xE0 + n / 4096) = some lead ∧ lead.width = 3 ∧
      lead.low ≤ 0x80 + n / 64 % 64 ∧ 0x80 + n / 64 % 64 ≤ lead.high := by
  rw [lead?, if_neg (by omega)]
  split
  · exact ⟨_, rfl, rfl, by dsimp only; omega, by dsimp only; omega⟩
  split
  · exact ⟨_, rfl, rfl, by dsimp only; omega, by dsimp only; omega⟩
  rw [if_pos (by omega)]
  exact ⟨_, rfl, rfl, by dsimp only; omega, by dsimp only; omega⟩

theorem lead?_four {n : Nat} (hlow : 0x10000 ≤ n) (hhigh : n < 0x110000) :
    ∃ lead, lead? (0xF0 + n / 262144) = some lead ∧ lead.width = 4 ∧
      lead.low ≤ 0x80 + n / 4096 % 64 ∧ 0x80 + n / 4096 % 64 ≤ lead.high := by
  rw [lead?, if_neg (by omega), if_neg (by omega), if_neg (by omega), if_neg (by omega)]
  split
  · exact ⟨_, rfl, rfl, by dsimp only; omega, by dsimp only; omega⟩
  split
  · exact ⟨_, rfl, rfl, by dsimp only; omega, by dsimp only; omega⟩
  rw [if_pos (by omega)]
  exact ⟨_, rfl, rfl, by dsimp only; omega, by dsimp only; omega⟩

theorem isTrail_iff {b : Nat} : isTrail b = true ↔ 0x80 ≤ b ∧ b ≤ 0xBF := by
  simp [isTrail]

/-! ### Characters -/

/-- The code point of a character is none of the surrogates and not beyond the
last one. -/
theorem scalar_toNat (c : Char) :
    c.toNat < 0xD800 ∨ (0xDFFF < c.toNat ∧ c.toNat < 0x110000) :=
  c.valid

theorem decodeFrom_one {n : Nat} (h : n < 0x80) (index : Nat) (rest : List UInt8) :
    decodeFrom index (n.toUInt8 :: rest) =
      (decodeFrom (index + 1) rest).map (Char.ofNat n :: ·) := by
  rw [decodeFrom, toNat_toUInt8 (by omega)]
  dsimp only
  rw [if_pos h]

theorem decodeFrom_two {n : Nat} (hlow : 0x80 ≤ n) (hhigh : n < 0x800) (index : Nat)
    (rest : List UInt8) :
    decodeFrom index ((0xC0 + n / 64).toUInt8 :: (0x80 + n % 64).toUInt8 :: rest) =
      (decodeFrom (index + 2) rest).map (Char.ofNat n :: ·) := by
  -- The payload bits of the two bytes, put together again.
  have hvalue : (0xC0 + n / 64) % 32 * 64 + (0x80 + n % 64) % 64 = n := by omega
  rw [decodeFrom, toNat_toUInt8 (by omega)]
  dsimp only
  rw [if_neg (by omega), lead?_two hlow hhigh]
  dsimp only
  rw [toNat_toUInt8 (by omega), if_neg (by omega), if_pos rfl, hvalue]

theorem decodeFrom_three {n : Nat} (hlow : 0x800 ≤ n) (hhigh : n < 0x10000)
    (hscalar : n < 0xD800 ∨ 0xDFFF < n) (index : Nat) (rest : List UInt8) :
    decodeFrom index ((0xE0 + n / 4096).toUInt8 :: (0x80 + n / 64 % 64).toUInt8 ::
        (0x80 + n % 64).toUInt8 :: rest) =
      (decodeFrom (index + 3) rest).map (Char.ofNat n :: ·) := by
  obtain ⟨lead, hlead, hwidth, hleast, hmost⟩ := lead?_three hlow hhigh hscalar
  have hvalue : (0xE0 + n / 4096) % 16 * 4096 + (0x80 + n / 64 % 64) % 64 * 64 +
      (0x80 + n % 64) % 64 = n := by omega
  rw [decodeFrom, toNat_toUInt8 (by omega)]
  dsimp only
  rw [if_neg (by omega), hlead]
  dsimp only
  rw [toNat_toUInt8 (by omega), if_neg (by omega), if_neg (by omega),
    toNat_toUInt8 (by omega), isTrail_iff.2 (by omega)]
  simp only [Bool.not_true, Bool.false_eq_true, if_false, hwidth, if_true]
  rw [hvalue]

theorem decodeFrom_four {n : Nat} (hlow : 0x10000 ≤ n) (hhigh : n < 0x110000) (index : Nat)
    (rest : List UInt8) :
    decodeFrom index ((0xF0 + n / 262144).toUInt8 :: (0x80 + n / 4096 % 64).toUInt8 ::
        (0x80 + n / 64 % 64).toUInt8 :: (0x80 + n % 64).toUInt8 :: rest) =
      (decodeFrom (index + 4) rest).map (Char.ofNat n :: ·) := by
  obtain ⟨lead, hlead, hwidth, hleast, hmost⟩ := lead?_four hlow hhigh
  have hvalue : (0xF0 + n / 262144) % 8 * 262144 + (0x80 + n / 4096 % 64) % 64 * 4096 +
      (0x80 + n / 64 % 64) % 64 * 64 + (0x80 + n % 64) % 64 = n := by omega
  rw [decodeFrom, toNat_toUInt8 (by omega)]
  dsimp only
  rw [if_neg (by omega), hlead]
  dsimp only
  rw [toNat_toUInt8 (by omega), if_neg (by omega), if_neg (by omega),
    toNat_toUInt8 (by omega), isTrail_iff.2 (by omega)]
  simp only [Bool.not_true, Bool.false_eq_true, if_false, hwidth]
  rw [if_neg (by omega), toNat_toUInt8 (by omega), isTrail_iff.2 (by omega)]
  simp only [Bool.not_true, Bool.false_eq_true, if_false]
  rw [hvalue]

/-- The bytes of a character are read as that character, and reading goes on
behind them. -/
theorem decodeFrom_encodeChar (index : Nat) (c : Char) (rest : List UInt8) :
    decodeFrom index (encodeChar c ++ rest) =
      (decodeFrom (index + (encodeChar c).length) rest).map (c :: ·) := by
  have hscalar := scalar_toNat c
  have hc : Char.ofNat c.toNat = c := Char.ofNat_toNat c
  unfold encodeChar
  generalize c.toNat = n at hscalar hc
  subst hc
  dsimp only
  split
  · rename_i hone
    exact decodeFrom_one hone index rest
  split
  · rename_i hone htwo
    exact decodeFrom_two (by omega) htwo index rest
  split
  · rename_i hone htwo hthree
    exact decodeFrom_three (by omega) hthree (by omega) index rest
  · rename_i hone htwo hthree
    exact decodeFrom_four (by omega) (by omega) index rest

/-! ### Texts -/

theorem decodeFrom_encodeChars (index : Nat) (cs : List Char) :
    decodeFrom index (encodeChars cs) = .ok cs := by
  induction cs generalizing index with
  | nil => rfl
  | cons c cs ih =>
    rw [encodeChars, List.flatMap_cons, decodeFrom_encodeChar, ← encodeChars, ih]
    rfl

/-- Every text is read back from its bytes. -/
@[simp] theorem decode_encode (s : String) : decode (encode s) = .ok s := by
  rw [decode, decodeChars, encode, decodeFrom_encodeChars]
  simp [Except.map]

end JobConfig.Utf8
