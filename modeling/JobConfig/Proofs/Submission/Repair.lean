import JobConfig.Proofs.Submission.Gate

/-!
Repairing a config that the gate refuses: the setting that is named is put back to
its default, and the gate is asked again.

Resetting a setting meets its own rule and breaks no other one (`Meets.reset`).
The one rule that looks at two settings is no exception, since the default
parallelism is no actual one and asks nothing of max parallelism. So what is named
next comes later in the order of the rules, and every setting is reset at most
once.
-/

namespace JobConfig.Config

def reset (c : Config) (s : Setting) : Config :=
  c.set s (default.get s)

/-- The gate refuses the config under the key of the setting. -/
def Reported (c : Config) (s : Setting) : Prop :=
  ∃ reason, c.validate.value = .error (.invalid s.key reason)

def CheckedAfter (s t : Setting) : Prop :=
  ∃ before after, checkOrder = before ++ s :: after ∧ t ∈ after

/-- The settings that are reset one after the other until the gate opens, and the
config that it opens for. -/
inductive Repairs : Config → List Setting → Config → Prop
  | done {c : Config} (hvalid : c.validate.value = .ok ()) : Repairs c [] c
  | reset {c final : Config} {s : Setting} {resets : List Setting} (hreported : c.Reported s)
      (hrest : Repairs (c.reset s) resets final) : Repairs c (s :: resets) final

/-! ### Rules under a reset -/

theorem get_reset_of_ne (c : Config) {s t : Setting} (h : t ≠ s) :
    (c.reset s).get t = c.get t :=
  get_set_of_ne c _ h

theorem meets_reset_self (c : Config) (s : Setting) : (c.reset s).Meets s := by
  cases s with
  | parallelism => exact .inr (.inl rfl)
  | maxParallelism => exact .inl rfl
  | watermarkInterval => exact (by decide : 0 ≤ default.watermarkInterval.toInt)
  | cancellationInterval => exact (by decide : 0 ≤ default.cancellationInterval.toInt)
  | cancellationTimeout => exact (by decide : 0 ≤ default.cancellationTimeout.toInt)
  | kryoTypes => exact List.forall_mem_nil _
  | pojoTypes => exact List.forall_mem_nil _
  | defaultSerializers => exact List.forall_mem_nil _
  | _ => trivial

/-- A rule looks at its own setting; only that of max parallelism looks at
parallelism too. -/
theorem Meets.congr {b c : Config} {s : Setting} (h : c.Meets s) (hself : b.get s = c.get s)
    (hparallelism : s = .maxParallelism → b.parallelism = c.parallelism) : b.Meets s := by
  cases s with
  | maxParallelism =>
    have hmax : b.maxParallelism = c.maxParallelism := hself
    simp only [Meets] at h ⊢
    rwa [hmax, hparallelism rfl]
  | _ =>
    simp only [get] at hself
    simp only [Meets] at h ⊢ <;> rwa [hself]

/-- A reset breaks no rule that is met. -/
theorem Meets.reset {c : Config} {t : Setting} (h : c.Meets t) (s : Setting) :
    (c.reset s).Meets t := by
  by_cases hts : t = s
  · subst hts
    exact meets_reset_self c t
  have hself := get_reset_of_ne c hts
  by_cases hboth : s = .parallelism ∧ t = .maxParallelism
  · -- Nothing is left that max parallelism could be below.
    obtain ⟨rfl, rfl⟩ := hboth
    have hnone : ¬ 1 ≤ default.parallelism.toInt := by decide
    rcases h with hunset | ⟨hlow, hhigh, -⟩
    · exact .inl hunset
    · exact .inr ⟨hlow, hhigh, fun hone => absurd hone hnone⟩
  · refine h.congr hself fun hmax => ?_
    have hs : Setting.parallelism ≠ s := fun heq => hboth ⟨heq.symm, hmax⟩
    exact get_reset_of_ne c hs

/-! ### One reset -/

theorem Reported.unique {c : Config} {s t : Setting} (hs : c.Reported s) (ht : c.Reported t) :
    s = t := by
  obtain ⟨reason, hs⟩ := hs
  obtain ⟨reason', ht⟩ := ht
  rw [hs] at ht
  exact Setting.key_injective (ConfigError.invalid.inj (Except.error.inj ht)).1

theorem Reported.not_valid {c : Config} {s : Setting} (h : c.Reported s) :
    c.validate.value ≠ .ok () := by
  obtain ⟨reason, h⟩ := h
  rw [h]
  simp

theorem FirstUnmet.unique {c : Config} {order : List Setting} {s t : Setting}
    (hs : c.FirstUnmet order s) (ht : c.FirstUnmet order t) : s = t := by
  classical
  have hfind : ∀ u, c.FirstUnmet order u → order.find? (fun v => ¬ c.Meets v) = some u := by
    rintro u ⟨before, after, rfl, hbefore, hu⟩
    rw [List.find?_eq_some_iff_append]
    exact ⟨by simpa using hu, before, after, rfl, by simpa using hbefore⟩
  have heq := hfind s hs
  rw [hfind t ht] at heq
  exact (Option.some.inj heq).symm

theorem reported_of_firstUnmet {c : Config} {s : Setting} (h : c.FirstUnmet checkOrder s) :
    c.Reported s := by
  rcases c.validate_cases with ⟨hall, -⟩ | ⟨t, ht, herror⟩
  · exact absurd hall h.not_forall
  · rw [h.unique ht]
    exact ⟨_, herror⟩

/-- What is reported is the first setting that does not meet its rule. -/
theorem Reported.firstUnmet {c : Config} {s : Setting} (h : c.Reported s) :
    c.FirstUnmet checkOrder s := by
  rcases c.validate_cases with ⟨-, hok⟩ | ⟨t, hfirst, herror⟩
  · exact absurd hok h.not_valid
  · rwa [h.unique ⟨_, herror⟩]

/-- After a reset the gate opens or names a setting that is checked later. -/
theorem Reported.after_reset {c : Config} {s : Setting} (h : c.Reported s) :
    (c.reset s).validate.value = .ok () ∨ ∃ t, (c.reset s).Reported t ∧ CheckedAfter s t := by
  rcases (c.reset s).validate_cases with ⟨-, hok⟩ | ⟨t, hfirst, herror⟩
  · exact .inl hok
  obtain ⟨before, after, horder, hbefore, -⟩ := h.firstUnmet
  obtain ⟨before', after', horder', -, ht⟩ := hfirst
  have hmem : t ∈ before ++ s :: after := by
    rw [← horder, horder']
    simp
  refine .inr ⟨t, ⟨_, herror⟩, before, after, horder, ?_⟩
  rcases List.mem_append.1 hmem with hmem | hmem
  · exact absurd ((hbefore t hmem).reset s) ht
  rcases List.mem_cons.1 hmem with rfl | hmem
  · exact absurd (meets_reset_self c t) ht
  · exact hmem

/-! ### All resets -/

theorem Repairs.unique {c final final' : Config} {resets resets' : List Setting}
    (h : Repairs c resets final) (h' : Repairs c resets' final') :
    resets = resets' ∧ final = final' := by
  induction h generalizing resets' with
  | done hvalid =>
    cases h' with
    | done _ => exact ⟨rfl, rfl⟩
    | reset hreported _ => exact absurd hvalid hreported.not_valid
  | reset hreported _ ih =>
    cases h' with
    | done hvalid => exact absurd hvalid hreported.not_valid
    | reset hreported' hrest' =>
      obtain rfl := hreported.unique hreported'
      obtain ⟨rfl, rfl⟩ := ih hrest'
      exact ⟨rfl, rfl⟩

theorem Repairs.valid {c final : Config} {resets : List Setting} (h : Repairs c resets final) :
    final.validate.value = .ok () := by
  induction h with
  | done hvalid => exact hvalid
  | reset _ _ ih => exact ih

theorem Repairs.get_of_notMem {c final : Config} {resets : List Setting}
    (h : Repairs c resets final) {s : Setting} (hs : s ∉ resets) : final.get s = c.get s := by
  induction h with
  | done _ => rfl
  | reset _ _ ih =>
    obtain ⟨hne, hrest⟩ := List.ne_and_not_mem_of_not_mem_cons hs
    rw [ih hrest, get_reset_of_ne _ hne]

/-- A config that meets the rules in the first part of the order is repaired by
resets in the rest of it. -/
theorem exists_repairs {before after : List Setting} (horder : checkOrder = before ++ after)
    (c : Config) (hbefore : ∀ t ∈ before, c.Meets t) :
    ∃ resets final, Repairs c resets final ∧ resets.Sublist after := by
  induction after generalizing before c with
  | nil =>
    rw [List.append_nil] at horder
    rcases c.validate_cases with ⟨-, hok⟩ | ⟨s, hfirst, -⟩
    · exact ⟨[], c, .done hok, .refl _⟩
    · exact absurd (horder ▸ hbefore) hfirst.not_forall
  | cons s after ih =>
    have horder' : checkOrder = (before ++ [s]) ++ after := by simpa using horder
    by_cases hs : c.Meets s
    · have hall : ∀ t ∈ before ++ [s], c.Meets t :=
        List.forall_mem_append.2 ⟨hbefore, List.forall_mem_singleton.2 hs⟩
      obtain ⟨resets, final, hrepairs, hsublist⟩ := ih horder' c hall
      exact ⟨resets, final, hrepairs, hsublist.cons s⟩
    · have hall : ∀ t ∈ before ++ [s], (c.reset s).Meets t :=
        List.forall_mem_append.2 ⟨fun t ht => (hbefore t ht).reset s,
          List.forall_mem_singleton.2 (meets_reset_self c s)⟩
      obtain ⟨resets, final, hrepairs, hsublist⟩ := ih horder' (c.reset s) hall
      have hreported := reported_of_firstUnmet ⟨before, after, horder, hbefore, hs⟩
      exact ⟨s :: resets, final, .reset hreported hrepairs, hsublist.cons_cons s⟩

/-- A config that is refused is refused under the key of a setting, and with this
setting alone back at its default it is valid or refused under one that is checked
later. Going on like this ends, in one way, after at most eight resets in a valid
config that keeps every setting never reported; a valid config is kept as it is. -/
theorem repair_one_at_a_time (c : Config) :
    (∀ e, c.validate.value = .error e →
        ∃ s reason, e = .invalid s.key reason ∧ (∀ t, t ≠ s → (c.reset s).get t = c.get t) ∧
          (c.reset s).get s = default.get s ∧
          ((c.reset s).validate.value = .ok () ∨
            ∃ t, (c.reset s).Reported t ∧ CheckedAfter s t)) ∧
      ∃ resets final, Repairs c resets final ∧
        (∀ resets' final', Repairs c resets' final' → resets' = resets ∧ final' = final) ∧
        resets.length ≤ 8 ∧ final.validate.value = .ok () ∧
        (∀ s, s ∉ resets → final.get s = c.get s) ∧
        (c.validate.value = .ok () → resets = [] ∧ final = c) := by
  constructor
  · intro e he
    rcases c.validate_cases with ⟨-, hok⟩ | ⟨s, -, herror⟩
    · rw [hok] at he
      cases he
    · have hreported : c.Reported s := ⟨_, herror⟩
      rw [he] at herror
      exact ⟨s, _, Except.error.inj herror, fun t ht => get_reset_of_ne c ht,
        get_set_self c s _, hreported.after_reset⟩
  · obtain ⟨resets, final, hrepairs, hsublist⟩ := exists_repairs (List.nil_append _).symm c
      (List.forall_mem_nil _)
    refine ⟨resets, final, hrepairs, fun _ _ h => h.unique hrepairs, hsublist.length_le,
      hrepairs.valid, fun s hs => hrepairs.get_of_notMem hs, fun hvalid => ?_⟩
    exact hrepairs.unique (.done hvalid)

end JobConfig.Config
