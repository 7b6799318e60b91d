import JobConfig.Config.Validation
import JobConfig.Proofs.Submission.Payload

/-!
What a config must satisfy to be submitted, rule by rule in plain numbers and
texts, and that the gate decides exactly this: it opens when every rule is met,
and otherwise names the first one that is not.
-/

namespace JobConfig

/-- Whether a text has a character that is not blank. -/
def Text.HasInk (s : String) : Prop :=
  ∃ ch ∈ s.toList, isBlank ch = false

theorem Text.isBlankText_eq_false_iff (s : String) : isBlankText s = false ↔ HasInk s := by
  simp [isBlankText, HasInk]

namespace Config

/-- What the gate asks of a setting. -/
def Meets (c : Config) : Setting → Prop
  | .parallelism =>
    1 ≤ c.parallelism.toInt ∨ c.parallelism.toInt = -1 ∨ c.parallelism.toInt = -2
  | .maxParallelism =>
    c.maxParallelism.toInt = -1 ∨
      (1 ≤ c.maxParallelism.toInt ∧ c.maxParallelism.toInt ≤ 32768 ∧
        (1 ≤ c.parallelism.toInt → c.parallelism.toInt ≤ c.maxParallelism.toInt))
  | .watermarkInterval => 0 ≤ c.watermarkInterval.toInt
  | .cancellationInterval => 0 ≤ c.cancellationInterval.toInt
  | .cancellationTimeout => 0 ≤ c.cancellationTimeout.toInt
  | .kryoTypes => ∀ name ∈ c.serializers.kryoTypes.toList, Text.HasInk name
  | .pojoTypes => ∀ name ∈ c.serializers.pojoTypes.toList, Text.HasInk name
  | .defaultSerializers =>
    ∀ e ∈ c.serializers.defaults.entries, Text.HasInk e.1 ∧ Text.HasInk e.2
  | _ => True

def complaint (c : Config) : Setting → Reason
  | .parallelism => .parallelismOutOfRange c.parallelism.toInt
  | .maxParallelism =>
    if 1 ≤ c.maxParallelism.toInt ∧ c.maxParallelism.toInt ≤ 32768 then
      .maxBelowParallelism c.maxParallelism.toInt c.parallelism.toInt
    else .maxParallelismOutOfRange c.maxParallelism.toInt 32768
  | .watermarkInterval => .negative c.watermarkInterval.toInt
  | .cancellationInterval => .negative c.cancellationInterval.toInt
  | .cancellationTimeout => .negative c.cancellationTimeout.toInt
  | _ => .emptyTypeName

def checkOrder : List Setting :=
  [.parallelism, .maxParallelism, .watermarkInterval, .cancellationInterval, .cancellationTimeout,
    .kryoTypes, .pojoTypes, .defaultSerializers]

/-- A check finds fault with a setting exactly when its rule is not met. -/
def Judges (check : Config → Option Reason) (s : Setting) : Prop :=
  ∀ c : Config, (c.Meets s ∧ check c = none) ∨ (¬ c.Meets s ∧ check c = some (c.complaint s))

/-! ### The rules one by one -/

theorem isConcrete_iff (n : Int32) : isConcrete n = true ↔ 1 ≤ n.toInt := by
  have hone : (1 : Int32).toInt = 1 := rfl
  rw [isConcrete, decide_eq_true_eq, Int32.le_iff_toInt_le, hone]

theorem judges_parallelism : Judges checkParallelism .parallelism := by
  intro c
  have hdefault : c.parallelism = defaultParallelism ↔ c.parallelism.toInt = -1 :=
    Int32.toInt_inj.symm
  have hunknown : c.parallelism = unknownParallelism ↔ c.parallelism.toInt = -2 :=
    Int32.toInt_inj.symm
  have hiff : (isConcrete c.parallelism || c.parallelism = defaultParallelism
      || c.parallelism = unknownParallelism) = true ↔ c.Meets .parallelism := by
    simp only [Bool.or_eq_true, decide_eq_true_eq, isConcrete_iff, hdefault, hunknown, Meets,
      or_assoc]
  rw [checkParallelism]
  split
  · rename_i hcond
    exact .inl ⟨hiff.1 hcond, rfl⟩
  · rename_i hcond
    exact .inr ⟨mt hiff.2 hcond, rfl⟩

theorem judges_maxParallelism : Judges checkMaxParallelism .maxParallelism := by
  intro c
  have hunset : c.maxParallelism = unsetMaxParallelism ↔ c.maxParallelism.toInt = -1 :=
    Int32.toInt_inj.symm
  have hlow : c.maxParallelism < 1 ↔ c.maxParallelism.toInt < 1 := Int32.lt_iff_toInt_lt
  have hhigh : parallelismBound < c.maxParallelism ↔ 32768 < c.maxParallelism.toInt :=
    Int32.lt_iff_toInt_lt
  have hbelow : c.maxParallelism < c.parallelism ↔
      c.maxParallelism.toInt < c.parallelism.toInt := Int32.lt_iff_toInt_lt
  rw [checkMaxParallelism]
  split
  · rename_i hset
    exact .inl ⟨.inl (hunset.1 hset), rfl⟩
  rename_i hset
  rw [hunset] at hset
  split
  · rename_i hrange
    rw [hlow, hhigh] at hrange
    refine .inr ⟨?_, ?_⟩
    · simp only [Meets]
      omega
    · rw [complaint, if_neg (by omega)]
      rfl
  rename_i hrange
  rw [hlow, hhigh] at hrange
  split
  · rename_i hless
    rw [isConcrete_iff, hbelow] at hless
    refine .inr ⟨?_, ?_⟩
    · simp only [Meets]
      omega
    · rw [complaint, if_pos (by omega)]
  · rename_i hless
    rw [isConcrete_iff, hbelow] at hless
    refine .inl ⟨?_, rfl⟩
    simp only [Meets]
    omega

theorem checkSpan_cases (n : Int64) :
    (0 ≤ n.toInt ∧ checkSpan n = none) ∨
      (¬ 0 ≤ n.toInt ∧ checkSpan n = some (.negative n.toInt)) := by
  have hnegative : n < 0 ↔ n.toInt < 0 := Int64.lt_iff_toInt_lt
  rw [checkSpan]
  split
  · rename_i hlt
    rw [hnegative] at hlt
    exact .inr ⟨by omega, rfl⟩
  · rename_i hlt
    rw [hnegative] at hlt
    exact .inl ⟨by omega, rfl⟩

theorem checkNames_cases (names : List String) :
    ((∀ name ∈ names, Text.HasInk name) ∧ checkNames names = none) ∨
      (¬ (∀ name ∈ names, Text.HasInk name) ∧ checkNames names = some .emptyTypeName) := by
  have hiff : names.any Text.isBlankText = false ↔ ∀ name ∈ names, Text.HasInk name := by
    simp [← Text.isBlankText_eq_false_iff]
  rw [checkNames]
  split
  · rename_i hany
    refine .inr ⟨?_, rfl⟩
    rw [← hiff, hany]
    decide
  · rename_i hany
    exact .inl ⟨hiff.1 (Bool.eq_false_iff.2 hany), rfl⟩

theorem judges_defaultSerializers :
    Judges (fun c => checkNames (c.serializers.defaults.entries.flatMap fun e => [e.1, e.2]))
      .defaultSerializers := by
  intro c
  have hnames : (∀ name ∈ c.serializers.defaults.entries.flatMap (fun e => [e.1, e.2]),
      Text.HasInk name) ↔ c.Meets .defaultSerializers := by
    constructor
    · intro hall e he
      have hboth : ∀ name ∈ [e.1, e.2], Text.HasInk name := fun name hname =>
        hall name (List.mem_flatMap.2 ⟨e, he, hname⟩)
      exact ⟨hboth e.1 (by simp), hboth e.2 (by simp)⟩
    · intro hall name hname
      obtain ⟨e, he, hmem⟩ := List.mem_flatMap.1 hname
      simp only [List.mem_cons, List.not_mem_nil, or_false] at hmem
      rcases hmem with rfl | rfl
      · exact (hall e he).1
      · exact (hall e he).2
  rw [← hnames]
  exact checkNames_cases _

theorem judges_of_mem_rules : ∀ rule ∈ rules, Judges rule.2 rule.1 := by
  have hspans : Judges (fun c => checkSpan c.watermarkInterval) .watermarkInterval ∧
      Judges (fun c => checkSpan c.cancellationInterval) .cancellationInterval ∧
      Judges (fun c => checkSpan c.cancellationTimeout) .cancellationTimeout :=
    ⟨fun c => checkSpan_cases _, fun c => checkSpan_cases _, fun c => checkSpan_cases _⟩
  have hnames : Judges (fun c => checkNames c.serializers.kryoTypes.toList) .kryoTypes ∧
      Judges (fun c => checkNames c.serializers.pojoTypes.toList) .pojoTypes :=
    ⟨fun c => checkNames_cases _, fun c => checkNames_cases _⟩
  simp only [rules, List.forall_mem_cons]
  exact ⟨judges_parallelism, judges_maxParallelism, hspans.1, hspans.2.1, hspans.2.2, hnames.1,
    hnames.2, judges_defaultSerializers, List.forall_mem_nil _⟩

/-! ### The gate -/

/-- `s` is the first setting in the order that does not meet its rule. -/
def FirstUnmet (c : Config) (order : List Setting) (s : Setting) : Prop :=
  ∃ before after, order = before ++ s :: after ∧ (∀ t ∈ before, c.Meets t) ∧ ¬ c.Meets s

theorem findSome?_cases (c : Config) {checks : List (Setting × (Config → Option Reason))}
    (h : ∀ rule ∈ checks, Judges rule.2 rule.1) :
    let found := checks.findSome? fun rule => (rule.2 c).map fun reason => (rule.1, reason)
    ((∀ s ∈ checks.map Prod.fst, c.Meets s) ∧ found = none) ∨
      ∃ s, FirstUnmet c (checks.map Prod.fst) s ∧ found = some (s, c.complaint s) := by
  induction checks with
  | nil => exact .inl ⟨by simp, rfl⟩
  | cons rule checks ih =>
    obtain ⟨hrule, hchecks⟩ := List.forall_mem_cons.1 h
    rw [List.map_cons, List.findSome?_cons]
    rcases hrule c with ⟨hmeets, hnone⟩ | ⟨hunmet, hsome⟩
    · rw [hnone]
      rcases ih hchecks with ⟨hall, hfound⟩ | ⟨s, ⟨before, after, horder, hbefore, hs⟩, hfound⟩
      · exact .inl ⟨List.forall_mem_cons.2 ⟨hmeets, hall⟩, hfound⟩
      · refine .inr ⟨s, ⟨rule.1 :: before, after, ?_, ?_, hs⟩, hfound⟩
        · rw [horder, List.cons_append]
        · exact List.forall_mem_cons.2 ⟨hmeets, hbefore⟩
    · rw [hsome]
      exact .inr ⟨rule.1, ⟨[], checks.map Prod.fst, rfl, by simp, hunmet⟩, rfl⟩

/-- The gate opens when every rule is met, and otherwise names the first setting
that does not meet its rule. -/
theorem validate_cases (c : Config) :
    ((∀ s ∈ checkOrder, c.Meets s) ∧ c.validate.value = .ok ()) ∨
      ∃ s, FirstUnmet c checkOrder s ∧
        c.validate.value = .error (.invalid s.key (c.complaint s)) := by
  have horder : rules.map Prod.fst = checkOrder := rfl
  have hcases := findSome?_cases c judges_of_mem_rules
  rw [horder] at hcases
  rcases hcases with ⟨hall, hfound⟩ | ⟨s, hfirst, hfound⟩
  · have hcheck : c.check = .ok () := by rw [check, violation?, hfound]
    refine .inl ⟨hall, ?_⟩
    rw [validate, hcheck]
    rfl
  · have hcheck : c.check = .error (.invalid s.key (c.complaint s)) := by
      rw [check, violation?, hfound]
    refine .inr ⟨s, hfirst, ?_⟩
    rw [validate, hcheck]

theorem FirstUnmet.not_forall {c : Config} {order : List Setting} {s : Setting}
    (h : FirstUnmet c order s) : ¬ ∀ t ∈ order, c.Meets t := by
  obtain ⟨before, after, rfl, -, hs⟩ := h
  exact fun hall => hs (hall s (by simp))

end Config

namespace Submission

theorem value_encode_of_error {c : Config} {e : ConfigError} (h : c.validate.value = .error e)
    (jobName : String) : (encode jobName c).value = .error e := by
  simp only [encode, Traced.andThenOk, Traced.value_andThen, h, Traced.value_quiet]

/-- A job is encoded for submission exactly when its config is valid, and a config
is valid exactly when it meets every rule. A config that is not is refused under
the key of the first setting, in the order of the rules, that does not meet its
own. -/
theorem submission_gate (jobName : String) (c : Config) :
    ((∃ bytes, (encode jobName c).value = .ok bytes) ↔ c.validate.value = .ok ()) ∧
      (c.validate.value = .ok () ↔ ∀ s ∈ Config.checkOrder, c.Meets s) ∧
      (∀ e, (encode jobName c).value = .error e ↔ c.validate.value = .error e) ∧
      ∀ e, c.validate.value = .error e →
        ∃ s, c.FirstUnmet Config.checkOrder s ∧ e = .invalid s.key (c.complaint s) := by
  rcases c.validate_cases with ⟨hall, hok⟩ | ⟨s, hfirst, herror⟩
  · have hencode := value_encode hok jobName
    refine ⟨by simp [hok, hencode], iff_of_true hok hall, by simp [hok, hencode], ?_⟩
    intro e he
    rw [hok] at he
    cases he
  · have hencode := value_encode_of_error herror jobName
    have hsome := hfirst.not_forall
    refine ⟨by simp [herror, hencode], by simpa [herror] using hsome, by simp [herror, hencode], ?_⟩
    intro e he
    rw [herror] at he
    exact ⟨s, hfirst, (Except.error.inj he).symm⟩

end Submission

end JobConfig
