import JobConfig.Proofs.Overlay
import JobConfig.Proofs.Sync.Store

/-!
What an update forwards when the store accepts it: the settings that it changed,
each once and with its new text. Laid over the old config they give the new one,
and none of them can be left out; so whoever starts from the opening push and
lays every later one over what it has holds the same config.
-/

namespace JobConfig

/-! ### Changes between two configs -/

namespace Config

theorem mem_changes_iff_get? (before after : Config) (k v : String) :
    (k, v) ∈ (changes before after).entries ↔
      after.toSettings.get? k = some v ∧ before.toSettings.get? k ≠ some v := by
  simp only [changes, List.mem_filter, decide_eq_true_eq]
  rw [StringMap.mem_entries_iff]

theorem changes_ne_nil_iff (before after : Config) :
    (changes before after).entries ≠ [] ↔ after ≠ before := by
  constructor
  · rintro hne rfl
    obtain ⟨⟨k, v⟩, hmem⟩ := List.exists_mem_of_ne_nil _ hne
    obtain ⟨hsame, hother⟩ := (mem_changes_iff_get? _ _ _ _).1 hmem
    exact hother hsame
  · intro hne hnil
    have hall : ∀ s, before.settingText s = after.settingText s := by
      intro s
      refine Decidable.byContradiction fun hdiff => ?_
      have hmem := (mem_changes_iff before after _ _).2 ⟨s, rfl, rfl, hdiff⟩
      rw [hnil] at hmem
      cases hmem
    exact hne (ext_settingText hall).symm

end Config

namespace Synced

variable {σ : Type} [SettingsStore σ]

/-! ### Stores that accept everything -/

/-- Whatever the store is offered from now on, one setting after the other, it
refuses none. -/
def AcceptsAll (store : σ) : Prop :=
  ∀ l : List (String × String), (push store l).refusal = none

def applyAll (store : σ) (l : List (String × String)) : σ :=
  l.foldl (fun store e => (SettingsStore.apply store e.1 e.2).1) store

namespace AcceptsAll

variable {store : σ}

theorem apply_eq_ok (h : AcceptsAll store) (key value : String) :
    ∃ store', SettingsStore.apply store key value = (store', .ok ()) ∧ AcceptsAll store' := by
  rcases happly : SettingsStore.apply store key value with ⟨store', cause | ⟨⟨⟩⟩⟩
  · have hone := h [(key, value)]
    rw [push_cons_of_error happly] at hone
    cases hone
  · refine ⟨store', rfl, fun l => ?_⟩
    have hmore := h ((key, value) :: l)
    rwa [push_cons_of_ok happly] at hmore

/-- A push goes all the way. -/
theorem push_eq (h : AcceptsAll store) (l : List (String × String)) :
    push store l = ⟨applyAll store l, l, none⟩ := by
  induction l generalizing store with
  | nil => rfl
  | cons e rest ih =>
    obtain ⟨key, value⟩ := e
    obtain ⟨store', happly, h'⟩ := h.apply_eq_ok key value
    rw [push_cons_of_ok happly, ih h', applyAll, applyAll, List.foldl_cons, happly]

theorem applyAll (h : AcceptsAll store) (l : List (String × String)) :
    AcceptsAll (applyAll store l) := by
  induction l generalizing store with
  | nil => exact h
  | cons e rest ih =>
    obtain ⟨store', happly, h'⟩ := h.apply_eq_ok e.1 e.2
    have hrest := ih h'
    rwa [Synced.applyAll, List.foldl_cons, happly]

end AcceptsAll

/-! ### Updates and a replica -/

def pushed (s : Synced σ) (f : Config → Traced Config) : List (String × String) :=
  (push s.store (Config.changes s.config (f s.config).value).entries).attempted

def updateAll (s : Synced σ) : List (Config → Traced Config) →
    Synced σ × List (List (String × String))
  | [] => (s, [])
  | f :: rest =>
    let last := (s.update f).value.1.updateAll rest
    (last.1, s.pushed f :: last.2)

variable {config : Config} {store : σ}

theorem pushed_of_acceptsAll (h : AcceptsAll store) (f : Config → Traced Config) :
    pushed ⟨config, store⟩ f = (Config.changes config (f config).value).entries := by
  rw [pushed, h.push_eq]

theorem update_of_acceptsAll (h : AcceptsAll store) (f : Config → Traced Config) :
    (update ⟨config, store⟩ f).value =
      (⟨(f config).value, applyAll store (pushed ⟨config, store⟩ f)⟩, .ok ()) := by
  have hpush := h.push_eq (Config.changes config (f config).value).entries
  have hvalue := value_update_of_accepted (s := ⟨config, store⟩) (f := f) hpush rfl
  rw [pushed_of_acceptsAll h, hvalue]

/-- An update that changes two settings and gives a third the value it has. -/
def tune (c : Config) : Traced Config :=
  .quiet { c with parallelism := 4, objectReuse := true, autoUids := true }

end Synced

end JobConfig
