import JobConfig.Proofs.Utf8

/-!
The order of texts is the order of their bytes. The first byte of a character
grows with the length of its sequence, and within one length the bytes are its
digits to the base 64 with the highest in front; so of two characters the lesser
has the lesser bytes, and no byte behind them can change that.
-/

namespace JobConfig.Utf8

theorem toUInt8_cons_lt_iff {m n : Nat} (hm : m < 256) (hn : n < 256) (x y : List UInt8) :
    m.toUInt8 :: x < n.toUInt8 :: y ↔ m < n ∨ m = n ∧ x < y := by
  rw [List.cons_lt_cons_iff, UInt8.lt_iff_toNat_lt, ← UInt8.toNat_inj, toNat_toUInt8 hm,
    toNat_toUInt8 hn]

theorem encodeChar_append_lt {c d : Char} (h : c < d) (x y : List UInt8) :
    encodeChar c ++ x < encodeChar d ++ y := by
  have hlt : c.toNat < d.toNat := h
  have hc := scalar_toNat c
  have hd := scalar_toNat d
  unfold encodeChar
  generalize c.toNat = m at hlt hc
  generalize d.toNat = n at hlt hd
  dsimp only
  -- One case for every pair of lengths; a longer sequence is never the lesser one.
  repeat' split
  all_goals
    simp (disch := omega) only [List.cons_append, List.nil_append, toUInt8_cons_lt_iff]
    omega

theorem encodeChars_lt {cs ds : List Char} (h : cs < ds) : encodeChars cs < encodeChars ds := by
  induction cs generalizing ds with
  | nil =>
    cases ds with
    | nil => exact absurd h (List.lt_irrefl _)
    | cons d ds =>
      obtain ⟨b, bytes, hb⟩ : ∃ b bytes, encodeChar d = b :: bytes := by
        unfold encodeChar
        dsimp only
        repeat' split
        all_goals exact ⟨_, _, rfl⟩
      simp [encodeChars, hb]
  | cons c cs ih =>
    cases ds with
    | nil => exact absurd h (List.not_lt_nil _)
    | cons d ds =>
      simp only [encodeChars, List.flatMap_cons]
      rcases List.cons_lt_cons_iff.1 h with hlt | ⟨rfl, hlt⟩
      · exact encodeChar_append_lt hlt _ _
      · exact List.append_left_lt (ih hlt)

/-- Texts are ordered as their bytes are. -/
theorem encode_lt_iff {s t : String} : encode s < encode t ↔ s < t := by
  have hmono : ∀ {s t : String}, s < t → encode s < encode t :=
    fun h => encodeChars_lt (String.lt_iff.1 h)
  constructor
  · intro hlt
    refine Decidable.byContradiction fun hnot => ?_
    by_cases hgt : t < s
    · exact List.lt_asymm hlt (hmono hgt)
    · obtain rfl := String.le_antisymm (String.not_lt.1 hgt) (String.not_lt.1 hnot)
      exact List.lt_irrefl _ hlt
  · exact hmono

end JobConfig.Utf8
