import JobConfig.Dynamic.Object
import JobConfig.Proofs.Overlay

/-!
The line that shows a config. It puts the texts of the settings one after the
other and escapes none of its own separators; still it can be taken apart again
from the left. The keys and their order are the same for all configs, the texts of
plain values hold no separator, and a JSON text ends where its reader stops.
-/

namespace JobConfig

/-! ### Where a text ends -/

/-- The characters that may come behind a text on the line. -/
def isSeparator (c : Char) : Bool :=
  c = ',' || c = ')'

def Follows (rest : List Char) : Prop :=
  ∃ c tail, rest = c :: tail ∧ isSeparator c = true

/-- Texts without separators end at the first one. -/
theorem append_inj_of_plain {t u x y : List Char} (ht : ∀ c ∈ t, isSeparator c = false)
    (hu : ∀ c ∈ u, isSeparator c = false) (hx : Follows x) (hy : Follows y)
    (h : t ++ x = u ++ y) : t = u ∧ x = y := by
  have hplain : ∀ {l rest : List Char}, (∀ c ∈ l, isSeparator c = false) → Follows rest →
      (l ++ rest).takeWhile (fun c => !isSeparator c) = l := by
    intro l rest hl hrest
    obtain ⟨c, tail, rfl, hc⟩ := hrest
    rw [List.takeWhile_append_of_pos fun d hd => by simp [hl d hd]]
    simp [hc]
  have htu : t = u := by
    rw [← hplain ht hx, h, hplain hu hy]
  subst htu
  exact ⟨rfl, List.append_cancel_left h⟩

theorem isSeparator_eq_false_of_mem {t : List Char} (h : t.any isSeparator = false) :
    ∀ c ∈ t, isSeparator c = false := by
  simpa using h

theorem isSeparator_eq_false_of_isDigit {c : Char} (h : c.isDigit = true) :
    isSeparator c = false := by
  have hcomma : c ≠ ',' := by
    rintro rfl
    exact absurd h (by decide)
  have hparen : c ≠ ')' := by
    rintro rfl
    exact absurd h (by decide)
  simp [isSeparator, hcomma, hparen]

theorem isSeparator_eq_false_of_mem_text {n : Int} {c : Char} (h : c ∈ (Integer.text n).toList) :
    isSeparator c = false := by
  rw [Integer.text, String.toList_ofList] at h
  rcases Integer.eq_dash_or_isDigit_of_mem_chars h with rfl | hdigit
  · decide
  · exact isSeparator_eq_false_of_isDigit hdigit

namespace Json

/-- A JSON object of strings ends where its reader stops. -/
theorem ofStringMap_append_inj {m n : StringMap String} {x y : List Char}
    (h : (ofStringMap m).chars ++ x = (ofStringMap n).chars ++ y) : m = n ∧ x = y := by
  have hread := readMap_ofStringMap m x
  rw [h, readMap_ofStringMap n y] at hread
  obtain ⟨hmembers, hrest⟩ := Prod.mk.inj (Except.ok.inj hread)
  refine ⟨?_, hrest.symm⟩
  rw [← ofList_parameterTexts m, ← hmembers, ofList_parameterTexts n]

theorem ofStringSet_append_inj {s t : StringSet} {x y : List Char}
    (h : (ofStringSet s).chars ++ x = (ofStringSet t).chars ++ y) : s = t ∧ x = y := by
  have hread := readSequence_ofStringSet s x
  rw [h, readSequence_ofStringSet t y] at hread
  obtain ⟨hitems, hrest⟩ := Prod.mk.inj (Except.ok.inj hread)
  refine ⟨?_, hrest.symm⟩
  rw [← ofList_itemTexts s, ← hitems, ofList_itemTexts t]

theorem toList_text (v : Json) : v.text.toList = v.chars := by
  rw [text, String.toList_ofList]

end Json

/-- The text of a value tells the value, and where on the line it ends. -/
theorem Kind.render_append_inj {k : Kind} {v w : k.Value} {x y : List Char} (hx : Follows x)
    (hy : Follows y) (h : (k.render v).toList ++ x = (k.render w).toList ++ y) :
    v = w ∧ x = y := by
  have hplain : (∀ u : k.Value, ∀ c ∈ (k.render u).toList, isSeparator c = false) →
      v = w ∧ x = y := by
    intro hvalues
    obtain ⟨htext, hrest⟩ := append_inj_of_plain (hvalues v) (hvalues w) hx hy h
    exact ⟨k.render_injective (String.toList_inj.1 htext), hrest⟩
  -- Separators stand in the collections only, whose JSON texts end by themselves.
  cases k with
  | level => exact hplain fun u => isSeparator_eq_false_of_mem (by cases u <;> rfl)
  | interval => exact hplain fun u c hc => isSeparator_eq_false_of_mem_text hc
  | parallelism => exact hplain fun u c hc => isSeparator_eq_false_of_mem_text hc
  | flag => exact hplain fun u => isSeparator_eq_false_of_mem (by cases u <;> rfl)
  | table =>
    simp only [Kind.render, Json.toList_text] at h
    exact Json.ofStringMap_append_inj h
  | names =>
    simp only [Kind.render, Json.toList_text] at h
    exact Json.ofStringSet_append_inj h

/-! ### The line -/

namespace Setting

def byKey : StringMap Setting :=
  StringMap.ofList (all.map fun s => (s.key, s))

theorem mem_byKey_iff (k : String) (s : Setting) : (k, s) ∈ byKey.entries ↔ s.key = k := by
  have hdistinct : (all.map fun s => (s.key, s)).Pairwise (fun a b => a.1 ≠ b.1) :=
    List.pairwise_map.2 keys_ne
  rw [StringMap.mem_entries_iff, byKey, StringMap.get?_ofList_eq_some_iff hdistinct]
  simp [mem_all]

end Setting

namespace Config

def entryText (c : Config) (e : String × Setting) : String :=
  e.1 ++ "=" ++ c.settingText e.2

/-- All configs have their texts under the same keys, in the same order. -/
theorem toSettings_eq_mapValues (c : Config) :
    c.toSettings = Setting.byKey.mapValues c.settingText := by
  refine StringMap.ext_get? fun k => Option.ext fun v => ?_
  rw [get?_toSettings_eq_some_iff, ← StringMap.mem_entries_iff, StringMap.mapValues]
  simp only [List.mem_map, Prod.exists, Setting.mem_byKey_iff, Prod.mk.injEq]
  constructor
  · rintro ⟨s, rfl, rfl⟩
    exact ⟨s.key, s, rfl, rfl, rfl⟩
  · rintro ⟨_, s, rfl, rfl, rfl⟩
    exact ⟨s, rfl, rfl⟩

theorem display_eq (c : Config) : c.display =
    "ExecutionConfig(" ++ (", ".intercalate (Setting.byKey.entries.map c.entryText) ++ ")") := by
  delta display
  rw [toSettings_eq_mapValues, StringMap.mapValues, List.map_map, String.append_assoc]
  rfl

variable {a b : Config}

theorem entryText_append_inj {e : String × Setting} {x y : String} (hx : Follows x.toList)
    (hy : Follows y.toList) (h : a.entryText e ++ x = b.entryText e ++ y) :
    a.settingText e.2 = b.settingText e.2 ∧ x = y := by
  have htexts : a.settingText e.2 ++ x = b.settingText e.2 ++ y := by
    simpa only [entryText, String.append_assoc, String.append_right_inj] using h
  have hchars := congrArg String.toList htexts
  rw [String.toList_append, String.toList_append] at hchars
  obtain ⟨hvalue, hrest⟩ := Kind.render_append_inj hx hy hchars
  exact ⟨settingText_inj.2 hvalue, String.toList_inj.1 hrest⟩

/-- Lines that are equal say the same of each setting. -/
theorem settingText_eq_of_line_eq {l : List (String × Setting)}
    (h : ", ".intercalate (l.map a.entryText) ++ ")" =
      ", ".intercalate (l.map b.entryText) ++ ")") :
    ∀ e ∈ l, a.settingText e.2 = b.settingText e.2 := by
  induction l with
  | nil => simp
  | cons e l ih =>
    cases l with
    | nil =>
      have hend : Follows ")".toList := ⟨_, _, rfl, rfl⟩
      simp only [List.map_cons, List.map_nil, String.intercalate_singleton] at h
      simpa using (entryText_append_inj hend hend h).1
    | cons f l =>
      have hcomma : ∀ rest : String, Follows (", " ++ rest).toList := fun rest =>
        ⟨',', ' ' :: rest.toList, by simp, rfl⟩
      simp only [List.map_cons, String.intercalate_cons_cons, String.append_assoc] at h ih
      obtain ⟨hfirst, hrest⟩ := entryText_append_inj (hcomma _) (hcomma _) h
      exact List.forall_mem_cons.2 ⟨hfirst, ih ((String.append_right_inj _).1 hrest)⟩

/-- The line that shows a config tells it apart from any other one, whatever
separators, quotes and keys stand in its names and parameters; so does the text
that an object shows. -/
theorem display_inj (a b : Config) : (a.display = b.display ↔ a = b) ∧
    (Dynamic.represent a = Dynamic.represent b ↔ a = b) := by
  have hiff : a.display = b.display ↔ a = b := by
    constructor
    · intro h
      rw [display_eq, display_eq, String.append_right_inj] at h
      have htexts := settingText_eq_of_line_eq h
      refine ext_settingText fun s => ?_
      exact htexts (s.key, s) ((Setting.mem_byKey_iff _ _).2 rfl)
    · rintro rfl
      rfl
  exact ⟨hiff, hiff⟩

end Config

end JobConfig
