import JobConfig.Text.Blank
import Mathlib.Data.List.Forall2
import Mathlib.Data.List.TakeWhile

/-!
Trimmed texts, and texts that agree but for the case of ASCII letters, said
without the functions that trim texts and change their case.
-/

namespace JobConfig.Text

/-! ### Trimming -/

/-- The text is the body with nothing but blanks around it, and none at either end
of the body. -/
structure TrimsTo (text body : List Char) : Prop where
  around : ∃ before after, text = before ++ (body ++ after) ∧
    (∀ c ∈ before, isBlank c = true) ∧ ∀ c ∈ after, isBlank c = true
  front : ∀ c ∈ body.head?, isBlank c = false
  back : ∀ c ∈ body.getLast?, isBlank c = false

theorem isBlank_head?_dropWhile (cs : List Char) :
    ∀ c ∈ (cs.dropWhile isBlank).head?, isBlank c = false := by
  intro c hc
  have hnot := List.head?_dropWhile_not isBlank cs
  rw [Option.mem_def.1 hc] at hnot
  exact hnot

theorem dropWhile_eq_self {cs : List Char} (h : ∀ c ∈ cs.head?, isBlank c = false) :
    cs.dropWhile isBlank = cs := by
  cases cs with
  | nil => rfl
  | cons c cs => simp [h c rfl]

theorem trimsTo_trimChars (cs : List Char) : TrimsTo cs (trimChars cs) := by
  let front := cs.dropWhile isBlank
  have hfront : cs.takeWhile isBlank ++ front = cs := List.takeWhile_append_dropWhile
  have hback : trimChars cs ++ (front.reverse.takeWhile isBlank).reverse = front := by
    rw [trimChars, ← List.reverse_append, List.takeWhile_append_dropWhile, List.reverse_reverse]
  constructor
  · refine ⟨cs.takeWhile isBlank, (front.reverse.takeWhile isBlank).reverse, ?_, ?_, ?_⟩
    · rw [hback, hfront]
    · exact fun c hc => List.mem_takeWhile_imp hc
    · exact fun c hc => List.mem_takeWhile_imp (List.mem_reverse.1 hc)
  · -- What is left in the end begins where the text without its first blanks does.
    intro c hc
    refine isBlank_head?_dropWhile cs c ?_
    change c ∈ front.head?
    rw [← hback, List.head?_append]
    exact Option.mem_def.2 (by rw [Option.mem_def.1 hc, Option.some_or])
  · intro c hc
    refine isBlank_head?_dropWhile front.reverse c ?_
    rwa [trimChars, List.getLast?_reverse] at hc

theorem TrimsTo.trimChars_eq {text body : List Char} (h : TrimsTo text body) :
    trimChars text = body := by
  obtain ⟨before, after, rfl, hbefore, hafter⟩ := h.around
  rw [trimChars, List.dropWhile_append_of_pos hbefore]
  cases hbody : body with
  | nil =>
    have hall : (after.dropWhile isBlank) = [] := List.dropWhile_eq_nil_iff.2 (fun c hc => hafter c hc)
    rw [List.nil_append, hall]
    rfl
  | cons c cs =>
    rw [← hbody]
    have hhead : ∀ d ∈ (body ++ after).head?, isBlank d = false := by
      have hc := h.front c (by rw [hbody]; rfl)
      rw [hbody]
      intro d hd
      obtain rfl : c = d := by simpa using hd
      exact hc
    have hlast : ∀ d ∈ body.reverse.head?, isBlank d = false := by
      rw [List.head?_reverse]
      exact h.back
    have hrev : ∀ d ∈ after.reverse, isBlank d = true := fun d hd =>
      hafter d (List.mem_reverse.1 hd)
    rw [dropWhile_eq_self hhead, List.reverse_append, List.dropWhile_append_of_pos hrev,
      dropWhile_eq_self hlast, List.reverse_reverse]

theorem trimsTo_iff {text body : List Char} : TrimsTo text body ↔ trimChars text = body := by
  constructor
  · exact TrimsTo.trimChars_eq
  · rintro rfl
    exact trimsTo_trimChars text

/-! ### Case -/

/-- The character is the other one, or its upper case as an ASCII letter. -/
def SameLetter (c w : Char) : Prop :=
  c = w ∨ ('A' ≤ c ∧ c ≤ 'Z' ∧ w.toNat = c.toNat + 32)

def UpToCase (cs word : List Char) : Prop :=
  List.Forall₂ SameLetter cs word

theorem toNat_toLower {c : Char} (h : 'A' ≤ c ∧ c ≤ 'Z') : c.toLower.toNat = c.toNat + 32 := by
  have hval : 'A'.val ≤ c.val ∧ c.val ≤ 'Z'.val := h
  have hhigh : c.val.toNat ≤ 90 := h.2
  have hshift : ('a'.val - 'A'.val).toNat = 32 := rfl
  delta Char.toLower
  rw [dif_pos hval]
  change (c.val + ('a'.val - 'A'.val)).toNat = c.val.toNat + 32
  rw [UInt32.toNat_add, hshift]
  omega

theorem toLower_eq_self {c : Char} (h : ¬ ('A' ≤ c ∧ c ≤ 'Z')) : c.toLower = c := by
  have hval : ¬ ('A'.val ≤ c.val ∧ c.val ≤ 'Z'.val) := h
  delta Char.toLower
  rw [dif_neg hval]

theorem toLower_eq_iff {c w : Char} (hw : ¬ ('A' ≤ w ∧ w ≤ 'Z')) :
    c.toLower = w ↔ SameLetter c w := by
  by_cases hc : 'A' ≤ c ∧ c ≤ 'Z'
  · have hne : c ≠ w := fun heq => hw (heq ▸ hc)
    have hlower := toNat_toLower hc
    rw [SameLetter, ← Char.toNat_inj, hlower]
    refine ⟨fun heq => .inr ⟨hc.1, hc.2, heq.symm⟩, ?_⟩
    rintro (heq | ⟨-, -, heq⟩)
    · exact absurd heq hne
    · exact heq.symm
  · rw [toLower_eq_self hc]
    refine ⟨.inl, ?_⟩
    rintro (heq | ⟨hlow, hhigh, -⟩)
    · exact heq
    · exact absurd ⟨hlow, hhigh⟩ hc

/-- Lower case makes exactly the spellings of a word in either case into the word. -/
theorem map_toLower_eq_iff {cs word : List Char} (hword : ∀ w ∈ word, ¬ ('A' ≤ w ∧ w ≤ 'Z')) :
    cs.map Char.toLower = word ↔ UpToCase cs word := by
  induction word generalizing cs with
  | nil => simp [UpToCase]
  | cons w word ih =>
    obtain ⟨hw, hrest⟩ := List.forall_mem_cons.1 hword
    cases cs with
    | nil => simp [UpToCase]
    | cons c cs =>
      rw [List.map_cons, List.cons_eq_cons, toLower_eq_iff hw, ih hrest, UpToCase, UpToCase,
        List.forall₂_cons]

end JobConfig.Text
