import JobConfig.Proofs.Sync.Refresh
import Mathlib.Data.List.Induction

/-!
Runs of a config that is kept in step with a store: updates and refreshes in any
order, refused, hidden or failing wherever the store likes, with a record of
what came of each call.

A refused update leaves settings in the store that the config does not have.
Such a setting stays left over until an update that succeeds pushes it again or
a refresh that succeeds shows it.
-/

namespace JobConfig.Synced

open FaithfulStore (held)

variable {σ : Type} [FaithfulStore σ]

/-! ### Calls and their outcomes -/

/-- A call in a run. Between calls the store may change what it accepts and what
it shows, but nobody writes to it. -/
inductive Call (σ : Type) [FaithfulStore σ] where
  | update (f : Config → Traced Config)
  | refresh
  | shift (g : σ → σ) (keeps : ∀ store k, held (g store) k = held store k)

inductive Outcome where
  /-- An update that succeeded, with the settings that it pushed. -/
  | updated (f : Config → Traced Config) (pushed : List (String × String))
  /-- An update that was refused, with the settings accepted by then. -/
  | refused (accepted : List (String × String))
  /-- A refresh that succeeded, with the settings that the store showed. -/
  | refreshed (shown : List (String × String))
  /-- A refresh that failed, or nothing but a change of the store's ways. -/
  | idle

def forward (s : Synced σ) (f : Config → Traced Config) : Push σ :=
  push s.store (Config.changes s.config (f s.config).value).entries

/-- The settings that the store shows, if it can be read. -/
def shown (s : Synced σ) : List (String × String) :=
  match readSettings s.store Setting.all with
  | .ok entries => entries
  | .error _ => []

def call (s : Synced σ) : Call σ → Synced σ × Outcome
  | .update f =>
    match (s.update f).value with
    | (s', .ok ()) => (s', .updated f (s.forward f).accepted)
    | (s', .error _) => (s', .refused (s.forward f).accepted)
  | .refresh =>
    match s.refresh.value with
    | (s', .ok ()) => (s', .refreshed s.shown)
    | (s', .error _) => (s', .idle)
  | .shift g _ => ({ s with store := g s.store }, .idle)

def run (s : Synced σ) : List (Call σ) → Synced σ × List Outcome
  | [] => (s, [])
  | c :: rest =>
    let next := s.call c
    let last := next.1.run rest
    (last.1, next.2 :: last.2)

theorem call_update_of_none {s : Synced σ} {f : Config → Traced Config}
    (h : (s.forward f).refusal = none) :
    s.call (.update f) =
      (⟨(f s.config).value, (s.forward f).store⟩, .updated f (s.forward f).accepted) := by
  rw [call, value_update_of_accepted (s := s) (f := f) (p := s.forward f) rfl h]

theorem call_update_of_some {s : Synced σ} {f : Config → Traced Config} {cause : String}
    (h : (s.forward f).refusal = some cause) :
    s.call (.update f) = (⟨s.config, (s.forward f).store⟩, .refused (s.forward f).accepted) := by
  rw [call, value_update_of_refused (s := s) (f := f) (p := s.forward f) rfl h]

/-- After an update the store holds the accepted settings, and elsewhere what it
held. -/
theorem held_forward (s : Synced σ) (f : Config → Traced Config) (k : String) :
    held (s.forward f).store k = ((s.forward f).accepted.lookup k).or (held s.store k) :=
  held_push s.store (Config.changes s.config (f s.config).value).entries_ne k

/-- What an update gets accepted are changes that it makes. -/
theorem mem_accepted_forward {s : Synced σ} {f : Config → Traced Config} {k v : String}
    (h : (k, v) ∈ (s.forward f).accepted) :
    ∃ t : Setting, t.key = k ∧ (f s.config).value.settingText t = v ∧
      s.config.settingText t ≠ v :=
  (Config.mem_changes_iff s.config (f s.config).value k v).1
    ((accepted_prefix_offered s.store _).subset h)

theorem accepted_forward_ne (s : Synced σ) (f : Config → Traced Config) :
    (s.forward f).accepted.Pairwise (fun a b => a.1 ≠ b.1) :=
  (Config.changes s.config (f s.config).value).entries_ne.sublist
    (accepted_prefix_offered s.store _).sublist

/-- What an update gets accepted for a setting is the text of its next state. -/
theorem lookup_accepted_forward {s : Synced σ} {f : Config → Traced Config} {t : Setting}
    (h : t.key ∈ (s.forward f).accepted.map Prod.fst) :
    (s.forward f).accepted.lookup t.key = some ((f s.config).value.settingText t) := by
  obtain ⟨⟨k, v⟩, hmem, rfl⟩ := List.mem_map.1 h
  obtain ⟨u, hu, rfl, -⟩ := mem_accepted_forward hmem
  obtain rfl := Setting.key_injective hu
  exact (StringMap.lookup_eq_some_iff_mem (accepted_forward_ne s f) _ _).2 hmem

/-- An update that is not refused changes nothing but what it got accepted. -/
theorem settingText_of_notMem_accepted {s : Synced σ} {f : Config → Traced Config}
    (h : (s.forward f).refusal = none) {t : Setting}
    (ht : t.key ∉ (s.forward f).accepted.map Prod.fst) :
    (f s.config).value.settingText t = s.config.settingText t := by
  by_contra hne
  have hchanged : (t.key, (f s.config).value.settingText t) ∈ (s.forward f).accepted := by
    rw [forward] at h ⊢
    rw [accepted_push_of_refusal_eq_none h, Config.mem_changes_iff]
    exact ⟨t, rfl, rfl, fun heq => hne heq.symm⟩
  exact ht (List.mem_map.2 ⟨_, hchanged, rfl⟩)

/-! ### What a store shows -/

/-- A store shows nothing but what it holds. -/
theorem mem_readSettings {store : σ} {entries : List (String × String)}
    (h : readSettings store Setting.all = .ok entries) {k v : String} (hmem : (k, v) ∈ entries) :
    held store k = some v :=
  FaithfulStore.held_of_read ((reads_of_readSettings h).read_of_mem hmem)

/-- A refresh either fails and changes nothing, or takes over the settings that
the store shows. -/
theorem call_refresh (s : Synced σ) :
    s.call .refresh = (s, .idle) ∨
      ∃ entries config, readSettings s.store Setting.all = .ok entries ∧
        (s.config.configure (StringMap.ofList entries)).value = .ok config ∧
        s.call .refresh = (⟨config, s.store⟩, .refreshed entries) := by
  rw [call]
  cases hread : readSettings s.store Setting.all with
  | error cause => simp [refresh, hread]
  | ok entries =>
    cases hvalue : (s.config.configure (StringMap.ofList entries)).value with
    | error e => simp [refresh, hread, Config.value_reconfigure_of_error hvalue]
    | ok config =>
      refine .inr ⟨entries, config, rfl, hvalue, ?_⟩
      simp [refresh, shown, hread, Config.value_reconfigure_of_ok hvalue]

end JobConfig.Synced
