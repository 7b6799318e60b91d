import JobConfig.Proofs.Utf8

/-!
The other direction: bytes that are read as characters are the bytes of those
characters. So no text has a second form. Where the lengths of sequences would
leave one, in overlong sequences, surrogates and code points beyond the last
one, the first byte narrows the range of the second.
-/

namespace JobConfig.Utf8

/-! ### Bytes of sequences -/

/-- What a first byte beyond ASCII says about the bytes behind it. -/
theorem lead?_cases {b : Nat} {lead : Lead} (h : lead? b = some lead) :
    0x80 ≤ lead.low ∧ lead.high ≤ 0xBF ∧
      (lead.width = 2 ∧ 0xC2 ≤ b ∧ b ≤ 0xDF ∨
        lead.width = 3 ∧ 0xE0 ≤ b ∧ b ≤ 0xEF ∧
          (b = 0xE0 → 0xA0 ≤ lead.low) ∧ (b = 0xED → lead.high ≤ 0x9F) ∨
        lead.width = 4 ∧ 0xF0 ≤ b ∧ b ≤ 0xF4 ∧
          (b = 0xF0 → 0x90 ≤ lead.low) ∧ (b = 0xF4 → lead.high ≤ 0x8F)) := by
  rw [lead?] at h
  repeat' split at h
  all_goals cases h
  all_goals
    dsimp only
    omega

theorem toUInt8_eq {n : Nat} {b : UInt8} (h : n = b.toNat) : n.toUInt8 = b := by
  rw [h]
  exact UInt8.ofNat_toNat

theorem toNat_ofNat {n : Nat} (h : n < 0xD800 ∨ 0xDFFF < n ∧ n < 0x110000) :
    (Char.ofNat n).toNat = n := by
  rw [Char.ofNat, dif_pos h]
  rfl

variable {b₀ b₁ b₂ b₃ : UInt8}

theorem encodeChar_one (h₀ : b₀.toNat < 0x80) : encodeChar (Char.ofNat b₀.toNat) = [b₀] := by
  rw [encodeChar, toNat_ofNat (by omega), if_pos h₀, toUInt8_eq rfl]

theorem encodeChar_two (h₀ : 0xC2 ≤ b₀.toNat ∧ b₀.toNat ≤ 0xDF)
    (h₁ : 0x80 ≤ b₁.toNat ∧ b₁.toNat ≤ 0xBF) :
    encodeChar (Char.ofNat (b₀.toNat % 32 * 64 + b₁.toNat % 64)) = [b₀, b₁] := by
  generalize hn : b₀.toNat % 32 * 64 + b₁.toNat % 64 = n
  have hrange : 0x80 ≤ n ∧ n < 0x800 := by omega
  have hb₀ : (0xC0 + n / 64).toUInt8 = b₀ := toUInt8_eq (by omega)
  have hb₁ : (0x80 + n % 64).toUInt8 = b₁ := toUInt8_eq (by omega)
  rw [encodeChar, toNat_ofNat (by omega), if_neg (by omega), if_pos (by omega), hb₀, hb₁]

theorem encodeChar_three (h₀ : 0xE0 ≤ b₀.toNat ∧ b₀.toNat ≤ 0xEF)
    (h₁ : 0x80 ≤ b₁.toNat ∧ b₁.toNat ≤ 0xBF) (h₂ : 0x80 ≤ b₂.toNat ∧ b₂.toNat ≤ 0xBF)
    (hlong : b₀.toNat = 0xE0 → 0xA0 ≤ b₁.toNat) (hscalar : b₀.toNat = 0xED → b₁.toNat ≤ 0x9F) :
    encodeChar (Char.ofNat (b₀.toNat % 16 * 4096 + b₁.toNat % 64 * 64 + b₂.toNat % 64)) =
      [b₀, b₁, b₂] := by
  generalize hn : b₀.toNat % 16 * 4096 + b₁.toNat % 64 * 64 + b₂.toNat % 64 = n
  have hrange : 0x800 ≤ n ∧ n < 0x10000 ∧ (n < 0xD800 ∨ 0xDFFF < n) := by omega
  have hb₀ : (0xE0 + n / 4096).toUInt8 = b₀ := toUInt8_eq (by omega)
  have hb₁ : (0x80 + n / 64 % 64).toUInt8 = b₁ := toUInt8_eq (by omega)
  have hb₂ : (0x80 + n % 64).toUInt8 = b₂ := toUInt8_eq (by omega)
  rw [encodeChar, toNat_ofNat (by omega), if_neg (by omega), if_neg (by omega), if_pos (by omega),
    hb₀, hb₁, hb₂]

theorem encodeChar_four (h₀ : 0xF0 ≤ b₀.toNat ∧ b₀.toNat ≤ 0xF4)
    (h₁ : 0x80 ≤ b₁.toNat ∧ b₁.toNat ≤ 0xBF) (h₂ : 0x80 ≤ b₂.toNat ∧ b₂.toNat ≤ 0xBF)
    (h₃ : 0x80 ≤ b₃.toNat ∧ b₃.toNat ≤ 0xBF)
    (hlong : b₀.toNat = 0xF0 → 0x90 ≤ b₁.toNat) (hlast : b₀.toNat = 0xF4 → b₁.toNat ≤ 0x8F) :
    encodeChar (Char.ofNat (b₀.toNat % 8 * 262144 + b₁.toNat % 64 * 4096 + b₂.toNat % 64 * 64 +
        b₃.toNat % 64)) = [b₀, b₁, b₂, b₃] := by
  generalize hn : b₀.toNat % 8 * 262144 + b₁.toNat % 64 * 4096 + b₂.toNat % 64 * 64 +
    b₃.toNat % 64 = n
  have hrange : 0x10000 ≤ n ∧ n < 0x110000 := by omega
  have hb₀ : (0xF0 + n / 262144).toUInt8 = b₀ := toUInt8_eq (by omega)
  have hb₁ : (0x80 + n / 4096 % 64).toUInt8 = b₁ := toUInt8_eq (by omega)
  have hb₂ : (0x80 + n / 64 % 64).toUInt8 = b₂ := toUInt8_eq (by omega)
  have hb₃ : (0x80 + n % 64).toUInt8 = b₃ := toUInt8_eq (by omega)
  rw [encodeChar, toNat_ofNat (by omega), if_neg (by omega), if_neg (by omega), if_neg (by omega),
    hb₀, hb₁, hb₂, hb₃]

/-! ### Texts -/

/-- One step of reading: the bytes of the character in front of those read after it. -/
theorem encodeChars_of_map_cons {c : Char} {sequence rest : List UInt8}
    {result : Except Fault (List Char)} {cs : List Char} (hc : encodeChar c = sequence)
    (hrest : ∀ {cs}, result = .ok cs → encodeChars cs = rest)
    (h : result.map (c :: ·) = .ok cs) : encodeChars cs = sequence ++ rest := by
  cases result with
  | error fault => cases h
  | ok tail =>
    obtain rfl := Except.ok.inj h
    rw [encodeChars, List.flatMap_cons, ← encodeChars, hc, hrest rfl]

theorem encodeChars_of_decodeFrom {index : Nat} {bytes : List UInt8} {cs : List Char}
    (h : decodeFrom index bytes = .ok cs) : encodeChars cs = bytes := by
  -- The induction follows the reader; of its twelve branches five do not fail.
  fun_induction decodeFrom index bytes generalizing cs with
  | case1 =>
    obtain rfl := Except.ok.inj h
    rfl
  | case2 _ _ _ _ hone =>
    rename_i ih
    exact encodeChars_of_map_cons (encodeChar_one hone) ih h
  | case6 _ _ _ _ lead hlead _ _ _ hrange hwidth =>
    rename_i ih
    obtain ⟨hleast, hmost, hlead⟩ := lead?_cases hlead
    exact encodeChars_of_map_cons (encodeChar_two (by omega) (by omega)) ih h
  | case9 _ _ _ _ lead hlead _ _ hrange hwide _ _ _ htrail hwidth =>
    rename_i ih
    obtain ⟨hleast, hmost, hlead⟩ := lead?_cases hlead
    rw [Bool.not_eq_true', Bool.not_eq_false, isTrail_iff] at htrail
    exact encodeChars_of_map_cons
      (encodeChar_three (by omega) (by omega) htrail (by omega) (by omega)) ih h
  | case12 _ _ _ _ lead hlead _ _ hrange hwide _ _ htrail hwider _ _ _ htrail' =>
    rename_i ih
    obtain ⟨hleast, hmost, hlead⟩ := lead?_cases hlead
    rw [Bool.not_eq_true', Bool.not_eq_false, isTrail_iff] at htrail htrail'
    exact encodeChars_of_map_cons
      (encodeChar_four (by omega) (by omega) htrail htrail' (by omega) (by omega)) ih h
  | _ => cases h

/-- Bytes that are read as a text are the bytes of that text. -/
theorem encode_of_decode {bytes : List UInt8} {s : String} (h : decode bytes = .ok s) :
    encode s = bytes := by
  rw [decode, decodeChars] at h
  cases hcs : decodeFrom 0 bytes with
  | error fault =>
    rw [hcs] at h
    cases h
  | ok cs =>
    rw [hcs] at h
    obtain rfl := Except.ok.inj h
    rw [encode, String.toList_ofList, encodeChars_of_decodeFrom hcs]

end JobConfig.Utf8
