import JobConfig.Proofs.Except
import JobConfig.Proofs.Overlay.Outcome
import JobConfig.Proofs.Text

/-!
Settings with a value of one word: the grammar of the texts that are accepted,
said without the readers, and the value that each of them denotes.

The grammar is about the text without the blanks around it. An integer is written
with digits behind at most one sign and must be one of its type, so nothing is
ever wrapped; truth values and levels are words, in either case of ASCII letters.
-/

namespace JobConfig

def CleanerLevel.words : List (String × CleanerLevel) :=
  [("none", .disabled), ("recursive", .recursive), ("top_level", .topLevel),
    ("top-level", .topLevel)]

namespace Kind

/-- Whether the values of a kind are single words. -/
def isScalar : Kind → Bool
  | level | interval | parallelism | flag => true
  | table | names => false

/-- The characters denote the value of a kind; for collections no grammar is
given. -/
def Denotes : (k : Kind) → List Char → k.Value → Prop
  | level, cs, l => ∃ word, (word, l) ∈ CleanerLevel.words ∧ Text.UpToCase cs word.toList
  | interval, cs, n => Integer.Writes cs n.toInt
  | parallelism, cs, n => Integer.Writes cs n.toInt
  | flag, cs, b => Text.UpToCase cs (if b then "true" else "false").toList
  | table, _, _ => False
  | names, _, _ => False

end Kind

/-! ### The readers one by one -/

theorem Text.toList_toAsciiLower_trim (text : String) :
    (toAsciiLower (trim text)).toList = (trimChars text.toList).map Char.toLower := by
  rw [toAsciiLower, trim, String.toList_ofList, String.toList_ofList]

theorem readFlag_eq_ok_iff (text : String) (b : Bool) :
    readFlag text = .ok b ↔ Kind.flag.Denotes (Text.trimChars text.toList) b := by
  have hword : ∀ word : String, (∀ w ∈ word.toList, ¬ ('A' ≤ w ∧ w ≤ 'Z')) →
      (Text.toAsciiLower (Text.trim text) = word ↔
        Text.UpToCase (Text.trimChars text.toList) word.toList) := fun word hlower => by
    rw [← String.toList_inj, Text.toList_toAsciiLower_trim, Text.map_toLower_eq_iff hlower]
  have htrue := hword "true" (by simp)
  have hfalse := hword "false" (by simp)
  rw [readFlag]
  cases b with
  | true =>
    refine Iff.trans ?_ htrue
    split
    · rename_i h
      exact iff_of_true rfl h
    · rename_i h
      refine iff_of_false (fun hok => ?_) h
      split at hok <;> cases hok
  | false =>
    refine Iff.trans ?_ hfalse
    split
    · rename_i h
      rw [h]
      exact iff_of_false (by simp) (by decide)
    · split
      · rename_i h
        exact iff_of_true rfl h
      · rename_i h
        exact iff_of_false (by simp) h

theorem readNumeral_eq_ok_iff {low high n : Int} (hlow : low ≤ 0) (hhigh : 0 ≤ high)
    {text : String} :
    readNumeral low high text = .ok n ↔
      Integer.Writes (Text.trimChars text.toList) n ∧ low ≤ n ∧ n ≤ high := by
  rw [readNumeral, Text.trim, String.toList_ofList, ← Integer.read_eq_ok_iff hlow hhigh]
  split
  · rename_i m hm
    rw [hm, Except.ok.injEq, Except.ok.injEq]
  · rename_i fault hfault
    rw [hfault]
    exact iff_of_false (by simp) (by simp)

/-- The same of integers that are kept in a word, whose range they fill. -/
theorem map_readNumeral_eq_ok_iff {α : Type} {ofInt : Int → α} {toInt : α → Int} {low high : Int}
    (hlow : low ≤ 0) (hhigh : 0 ≤ high)
    (hof : ∀ m, low ≤ m → m ≤ high → toInt (ofInt m) = m)
    (hto : ∀ n, low ≤ toInt n ∧ toInt n ≤ high ∧ ofInt (toInt n) = n) {text : String} {n : α} :
    (readNumeral low high text).map ofInt = .ok n ↔
      Integer.Writes (Text.trimChars text.toList) (toInt n) := by
  simp only [map_eq_ok_iff, readNumeral_eq_ok_iff hlow hhigh]
  constructor
  · rintro ⟨m, ⟨hwrites, hle, hge⟩, rfl⟩
    rwa [hof m hle hge]
  · intro hwrites
    obtain ⟨hle, hge, hn⟩ := hto n
    exact ⟨toInt n, ⟨hwrites, hle, hge⟩, hn⟩

theorem undash_eq_iff {c w : Char} (hunder : w ≠ '_') (hdash : w ≠ '-') :
    (if c = '-' then '_' else c) = w ↔ c = w := by
  split
  · rename_i hc
    subst hc
    exact ⟨fun h => absurd h.symm hunder, fun h => absurd h.symm hdash⟩
  · rfl

/-- With its dashes made underscores a word is the name of a level just if it is
one of the words for the level. -/
theorem map_undash_eq_name_iff (cs : List Char) (level : CleanerLevel) :
    cs.map (fun c => if c = '-' then '_' else c) = level.name.toList ↔
      ∃ word, (word, level) ∈ CleanerLevel.words ∧ cs = word.toList := by
  cases level with
  | disabled =>
    simp [CleanerLevel.words, CleanerLevel.name, List.map_eq_cons_iff, undash_eq_iff]
  | recursive =>
    simp [CleanerLevel.words, CleanerLevel.name, List.map_eq_cons_iff, undash_eq_iff]
  | topLevel =>
    have hwords : (∃ word, (word, CleanerLevel.topLevel) ∈ CleanerLevel.words ∧
        cs = word.toList) ↔ cs = "top_level".toList ∨ cs = "top-level".toList := by
      simp [CleanerLevel.words]
    have hmap : cs.map (fun c => if c = '-' then '_' else c) = "top_level".toList ↔
        ∃ c, cs = ['t', 'o', 'p', c, 'l', 'e', 'v', 'e', 'l'] ∧ (¬ c = '-' → c = '_') := by
      simp [List.map_eq_cons_iff, undash_eq_iff]
    rw [hwords, CleanerLevel.name, hmap]
    constructor
    · rintro ⟨c, rfl, hc⟩
      by_cases hdash : c = '-'
      · exact .inr (by rw [hdash]; rfl)
      · exact .inl (by rw [hc hdash]; rfl)
    · rintro (rfl | rfl)
      · exact ⟨'_', rfl, fun _ => rfl⟩
      · exact ⟨'-', rfl, fun hne => absurd rfl hne⟩

theorem CleanerLevel.ofName?_eq_some_iff {name : String} {level : CleanerLevel} :
    ofName? name = some level ↔ level.name = name := by
  constructor
  · intro h
    simpa using List.find?_some h
  · rintro rfl
    exact ofName?_name level

theorem CleanerLevel.parse_eq_ok_iff_name (text : String) (level : CleanerLevel) :
    parse text = .ok level ↔
      level.name = String.ofList ((Text.toAsciiLower (Text.trim text)).toList.map
        fun c => if c = '-' then '_' else c) := by
  rw [← ofName?_eq_some_iff]
  delta parse
  extract_lets dashed word
  change _ ↔ ofName? word = some level
  split
  · rename_i found hfound
    rw [hfound, Except.ok.injEq, Option.some.injEq]
  · rename_i hnone
    rw [hnone]
    exact iff_of_false (by simp) (by simp)

theorem CleanerLevel.parse_eq_ok_iff (text : String) (level : CleanerLevel) :
    parse text = .ok level ↔ Kind.level.Denotes (Text.trimChars text.toList) level := by
  have hlower : ∀ e ∈ words, ∀ w ∈ e.1.toList, ¬ ('A' ≤ w ∧ w ≤ 'Z') := by
    simp [words]
  generalize hword : Text.toAsciiLower (Text.trim text) = lowered
  have hchars := congrArg String.toList hword
  rw [Text.toList_toAsciiLower_trim] at hchars
  calc parse text = .ok level
      ↔ level.name = String.ofList (lowered.toList.map fun c => if c = '-' then '_' else c) := by
        rw [parse_eq_ok_iff_name, hword]
    _ ↔ lowered.toList.map (fun c => if c = '-' then '_' else c) = level.name.toList := by
        rw [← String.toList_inj, String.toList_ofList, eq_comm]
    _ ↔ ∃ word, (word, level) ∈ words ∧ lowered.toList = word.toList :=
        map_undash_eq_name_iff lowered.toList level
    _ ↔ Kind.level.Denotes (Text.trimChars text.toList) level := by
        refine exists_congr fun word => and_congr_right fun hmem => ?_
        rw [← hchars, Text.map_toLower_eq_iff (hlower _ hmem)]

theorem parse_interval_eq_ok_iff (text : String) (n : Int64) :
    Kind.interval.parse text = .ok n ↔ Kind.interval.Denotes (Text.trimChars text.toList) n := by
  have hof : ∀ m : Int, -0x8000000000000000 ≤ m → m ≤ 0x7fffffffffffffff →
      (Int64.ofInt m).toInt = m := fun m hle hge =>
    Int64.toInt_ofInt_of_le hle (Int.lt_of_le_sub_one hge)
  rw [Kind.parse, Kind.Denotes]
  exact map_readNumeral_eq_ok_iff (by decide) (by decide) hof
    fun n => ⟨n.le_toInt, n.toInt_le, n.ofInt_toInt⟩

theorem parse_parallelism_eq_ok_iff (text : String) (n : Int32) :
    Kind.parallelism.parse text = .ok n ↔
      Kind.parallelism.Denotes (Text.trimChars text.toList) n := by
  have hof : ∀ m : Int, -0x80000000 ≤ m → m ≤ 0x7fffffff → (Int32.ofInt m).toInt = m :=
    fun m hle hge => Int32.toInt_ofInt_of_le hle (Int.lt_of_le_sub_one hge)
  rw [Kind.parse, Kind.Denotes]
  exact map_readNumeral_eq_ok_iff (by decide) (by decide) hof
    fun n => ⟨n.le_toInt, n.toInt_le, n.ofInt_toInt⟩

/-! ### All kinds -/

theorem Kind.parse_eq_ok_iff {k : Kind} (hk : k.isScalar = true) {text : String} {v : k.Value} :
    k.parse text = .ok v ↔ ∃ body, Text.TrimsTo text.toList body ∧ k.Denotes body v := by
  have hbody : (∃ body, Text.TrimsTo text.toList body ∧ k.Denotes body v) ↔
      k.Denotes (Text.trimChars text.toList) v := by
    simp only [Text.trimsTo_iff, exists_eq_left']
  rw [hbody]
  cases k with
  | level => exact CleanerLevel.parse_eq_ok_iff text v
  | interval => exact parse_interval_eq_ok_iff text v
  | parallelism => exact parse_parallelism_eq_ok_iff text v
  | flag => exact readFlag_eq_ok_iff text v
  | table => cases hk
  | names => cases hk

namespace Config

theorem configure_singleton_eq_ok_iff (c : Config) (s : Setting) (text : String) (next : Config) :
    (c.configure (StringMap.ofList [(s.key, text)])).value = .ok next ↔
      ∃ v, s.parse text = .ok v ∧ next.get s = v ∧ ∀ t, t ≠ s → next.get t = c.get t := by
  simp only [← eq_set_iff]
  cases hparse : s.parse text with
  | ok v =>
    rw [configure_singleton hparse, Except.ok.injEq, eq_comm]
    simp
  | error reason =>
    rw [configure_singleton_of_error hparse]
    simp

/-- A text for a setting of one word is accepted just if it denotes a value of the
setting once the blanks around it are gone, and then the setting has that value and
every other setting the one it had. Generic types are stored as what is disabled. -/
theorem configure_scalar (c : Config) {s : Setting} (hs : s.kind.isScalar = true)
    (text : String) :
    ((∃ next, (c.configure (StringMap.ofList [(s.key, text)])).value = .ok next) ↔
        ∃ body v, Text.TrimsTo text.toList body ∧ s.kind.Denotes body v) ∧
      (∀ next, (c.configure (StringMap.ofList [(s.key, text)])).value = .ok next ↔
        ∃ body v, Text.TrimsTo text.toList body ∧ s.kind.Denotes body v ∧
          next.get s = v ∧ ∀ t, t ≠ s → next.get t = c.get t) ∧
      ∀ body b, Text.TrimsTo text.toList body → Kind.flag.Denotes body b →
        ∃ next,
          (c.configure (StringMap.ofList [(Setting.genericTypes.key, text)])).value = .ok next ∧
            next.serializers.genericTypesDisabled = !b := by
  have hparse : ∀ v, s.parse text = .ok v ↔
      ∃ body, Text.TrimsTo text.toList body ∧ s.kind.Denotes body v := fun v =>
    Kind.parse_eq_ok_iff hs
  have hnext : ∀ next, (c.configure (StringMap.ofList [(s.key, text)])).value = .ok next ↔
      ∃ body v, Text.TrimsTo text.toList body ∧ s.kind.Denotes body v ∧
        next.get s = v ∧ ∀ t, t ≠ s → next.get t = c.get t := by
    intro next
    rw [configure_singleton_eq_ok_iff]
    constructor
    · rintro ⟨v, hv, hstored⟩
      obtain ⟨body, htrims, hdenotes⟩ := (hparse v).1 hv
      exact ⟨body, v, htrims, hdenotes, hstored⟩
    · rintro ⟨body, v, htrims, hdenotes, hstored⟩
      exact ⟨v, (hparse v).2 ⟨body, htrims, hdenotes⟩, hstored⟩
  refine ⟨?_, hnext, fun body b htrims hdenotes => ?_⟩
  · constructor
    · rintro ⟨next, hok⟩
      obtain ⟨body, v, htrims, hdenotes, -⟩ := (hnext next).1 hok
      exact ⟨body, v, htrims, hdenotes⟩
    · rintro ⟨body, v, htrims, hdenotes⟩
      exact ⟨c.set s v, (hnext _).2 ⟨body, v, htrims, hdenotes, eq_set_iff.1 rfl⟩⟩
  · have hflag : Setting.genericTypes.parse text = .ok b :=
      (Kind.parse_eq_ok_iff rfl).2 ⟨body, htrims, hdenotes⟩
    exact ⟨_, configure_singleton hflag c, rfl⟩

theorem trimsTo_leastParallelism :
    Text.TrimsTo "\u3000-0002147483648\n".toList "-0002147483648".toList where
  around := ⟨['\u3000'], ['\n'], rfl, List.forall_mem_singleton.2 rfl,
    List.forall_mem_singleton.2 rfl⟩
  front := by
    rintro c ⟨⟩
    rfl
  back := by
    rintro c ⟨⟩
    rfl

theorem configure_scalar_leastParallelism :
    Setting.parallelism.kind.isScalar = true ∧
      (Config.default.configure (StringMap.ofList
          [(Setting.parallelism.key, "\u3000-0002147483648\n")])).value =
        .ok { Config.default with parallelism := -2147483648 } := by
  let least : Int32 := -2147483648
  have hwrites : Kind.parallelism.Denotes "-0002147483648".toList least :=
    .minus (by decide) (List.all_eq_true.1 (by decide))
  have hscalar : Setting.parallelism.kind.isScalar = true := rfl
  exact ⟨hscalar, ((configure_scalar Config.default hscalar _).2.1 _).2
    ⟨_, least, trimsTo_leastParallelism, hwrites, rfl,
      fun _ ht => Config.default.get_set_of_ne (s := .parallelism) least ht⟩⟩

end Config

end JobConfig
