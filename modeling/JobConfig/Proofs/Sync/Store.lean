import JobConfig.Sync.Config
import JobConfig.Proofs.StringMap

/-!
Stores that hold what they accept, and how far a list of settings goes into one.

Such a store may refuse a setting, hide one or fail to read one whenever it
likes; what it takes it keeps, and what it shows is what it took. A push leaves
in it a prefix of the settings offered, all of them when nothing is refused.
-/

namespace JobConfig

/-- A store that holds what it accepts and shows nothing else. -/
class FaithfulStore (σ : Type) extends SettingsStore σ where
  /-- What the store holds at a key, whether it shows it or not. -/
  held : σ → String → Option String
  held_of_ok : ∀ {s s' : σ} {key value : String}, apply s key value = (s', .ok ()) →
    ∀ k, held s' k = if k = key then some value else held s k
  held_of_error : ∀ {s s' : σ} {key value cause : String},
    apply s key value = (s', .error cause) → ∀ k, held s' k = held s k
  held_of_read : ∀ {s : σ} {key value : String}, read s key = .ok (some value) →
    held s key = some value

instance : FaithfulStore MemoryStore where
  held s k := s.settings.get? k
  held_of_ok h k := by
    obtain ⟨rfl, -⟩ := Prod.mk.inj h
    simp
  held_of_error h k := by
    obtain ⟨-, h⟩ := Prod.mk.inj h
    cases h
  held_of_read h := Except.ok.inj h

/-- A gate keeps nothing of its own. -/
instance {σ : Type} [FaithfulStore σ] : FaithfulStore (Gated σ) where
  held s k := FaithfulStore.held s.store k
  held_of_ok h k := by
    simp only [SettingsStore.apply] at h
    split at h
    · cases h
    split at h
    · cases h
    · obtain ⟨rfl, hresult⟩ := Prod.mk.inj h
      exact FaithfulStore.held_of_ok (Prod.ext rfl hresult) k
  held_of_error h k := by
    simp only [SettingsStore.apply] at h
    split at h
    · obtain ⟨rfl, -⟩ := Prod.mk.inj h
      rfl
    split at h
    · obtain ⟨rfl, -⟩ := Prod.mk.inj h
      rfl
    · obtain ⟨rfl, hresult⟩ := Prod.mk.inj h
      exact FaithfulStore.held_of_error (Prod.ext rfl hresult) k
  held_of_read h := by
    simp only [SettingsStore.read] at h
    split at h
    · cases h
    split at h
    · cases h
    · exact FaithfulStore.held_of_read h

/-! ### Pushing -/

def Push.accepted {σ : Type} (p : Push σ) : List (String × String) :=
  match p.refusal with
  | none => p.attempted
  | some _ => p.attempted.dropLast

def Push.result {σ : Type} (p : Push σ) : Except ConfigError Unit :=
  match p.refusal with
  | none => .ok ()
  | some cause => .error (.refused cause)

namespace Synced

variable {σ : Type}

section Progress

variable [SettingsStore σ]

theorem push_cons_of_error {store store' : σ} {key value cause : String}
    (h : SettingsStore.apply store key value = (store', .error cause))
    (rest : List (String × String)) :
    push store ((key, value) :: rest) = ⟨store', [(key, value)], some cause⟩ := by
  rw [push, h]

theorem push_cons_of_ok {store store' : σ} {key value : String}
    (h : SettingsStore.apply store key value = (store', .ok ())) (rest : List (String × String)) :
    push store ((key, value) :: rest) =
      { push store' rest with attempted := (key, value) :: (push store' rest).attempted } := by
  rw [push, h]

/-- The store takes settings one after the other. -/
inductive Takes : σ → List (String × String) → σ → Prop where
  | nil (store : σ) : Takes store [] store
  | cons {store middle store' : σ} {key value : String} {rest : List (String × String)}
      (happly : SettingsStore.apply store key value = (middle, .ok ()))
      (hrest : Takes middle rest store') : Takes store ((key, value) :: rest) store'

/-- A push goes all the way, or up to a setting that the store refuses. -/
theorem push_cases (store : σ) (l : List (String × String)) :
    (∃ store', Takes store l store' ∧ push store l = ⟨store', l, none⟩) ∨
      ∃ before key value after middle store' cause, l = before ++ (key, value) :: after ∧
        Takes store before middle ∧
        SettingsStore.apply middle key value = (store', .error cause) ∧
        push store l = ⟨store', before ++ [(key, value)], some cause⟩ := by
  induction l generalizing store with
  | nil => exact .inl ⟨store, .nil store, rfl⟩
  | cons e rest ih =>
    obtain ⟨key, value⟩ := e
    rcases happly : SettingsStore.apply store key value with ⟨next, cause | ⟨⟨⟩⟩⟩
    · exact .inr ⟨[], key, value, rest, store, next, cause, rfl, .nil store, happly,
        push_cons_of_error happly rest⟩
    · rcases ih next with ⟨store', htakes, hpush⟩ |
          ⟨before, k, v, after, middle, store', cause, rfl, htakes, hrefused, hpush⟩
      · exact .inl ⟨store', .cons happly htakes, by rw [push_cons_of_ok happly, hpush]⟩
      · exact .inr ⟨(key, value) :: before, k, v, after, middle, store', cause, rfl,
          .cons happly htakes, hrefused, by rw [push_cons_of_ok happly, hpush]; rfl⟩

/-- What a store accepted in a push it took; beyond that it refused at most one
setting. -/
theorem takes_accepted (store : σ) (l : List (String × String)) :
    ∃ middle, Takes store (push store l).accepted middle ∧
      ((push store l).store = middle ∨ ∃ key value cause,
        SettingsStore.apply middle key value = ((push store l).store, .error cause)) := by
  rcases push_cases store l with ⟨store', htakes, hpush⟩ |
      ⟨before, key, value, after, middle, store', cause, -, htakes, hrefused, hpush⟩
  · rw [hpush]
    exact ⟨store', htakes, .inl rfl⟩
  · rw [hpush, Push.accepted, List.dropLast_concat]
    exact ⟨middle, htakes, .inr ⟨key, value, cause, hrefused⟩⟩

/-- A store is asked for settings in the order in which they are offered. -/
theorem attempted_prefix_offered (store : σ) (l : List (String × String)) :
    (push store l).attempted <+: l := by
  rcases push_cases store l with ⟨store', -, hpush⟩ |
      ⟨before, key, value, after, middle, store', cause, rfl, -, -, hpush⟩
  · exact ⟨[], by rw [hpush, List.append_nil]⟩
  · exact ⟨after, by rw [hpush, List.append_assoc, List.singleton_append]⟩

/-- It takes them in this order. -/
theorem accepted_prefix_offered (store : σ) (l : List (String × String)) :
    (push store l).accepted <+: l := by
  have hattempted := attempted_prefix_offered store l
  rw [Push.accepted]
  split
  · exact hattempted
  · exact (List.dropLast_prefix _).trans hattempted

theorem accepted_push_of_refusal_eq_none {store : σ} {l : List (String × String)}
    (h : (push store l).refusal = none) : (push store l).accepted = l := by
  rcases push_cases store l with ⟨store', -, hpush⟩ |
      ⟨before, key, value, after, middle, store', cause, rfl, -, -, hpush⟩
  · rw [hpush]
    rfl
  · rw [hpush] at h
    cases h

/-! ### Outcomes

The push is a variable in these: its term would be evaluated. -/

theorem update_eq {s : Synced σ} {f : Config → Traced Config} {p : Push σ}
    (hpush : push s.store (Config.changes s.config (f s.config).value).entries = p) :
    s.update f =
      ⟨(⟨if p.refusal = none then (f s.config).value else s.config, p.store⟩, p.result),
        (f s.config).events ++ p.attempted.map fun e => .forwarding e.1 e.2⟩ := by
  rw [update, Traced.andThen, hpush, Push.result]
  cases hrefusal : p.refusal with
  | none => simp [hrefusal]
  | some cause => simp [hrefusal]

theorem store_update {s : Synced σ} {f : Config → Traced Config} {p : Push σ}
    (hpush : push s.store (Config.changes s.config (f s.config).value).entries = p) :
    (s.update f).value.1.store = p.store := by
  rw [update_eq hpush]

theorem value_update_of_accepted {s : Synced σ} {f : Config → Traced Config} {p : Push σ}
    (hpush : push s.store (Config.changes s.config (f s.config).value).entries = p)
    (h : p.refusal = none) : (s.update f).value = (⟨(f s.config).value, p.store⟩, .ok ()) := by
  rw [update_eq hpush, Push.result, if_pos h, h]

theorem value_update_of_refused {s : Synced σ} {f : Config → Traced Config} {p : Push σ}
    {cause : String} (hpush : push s.store (Config.changes s.config (f s.config).value).entries = p)
    (h : p.refusal = some cause) :
    (s.update f).value = (⟨s.config, p.store⟩, .error (.refused cause)) := by
  have hne : p.refusal ≠ none := by simp [h]
  rw [update_eq hpush, Push.result, if_neg hne, h]

theorem value_connect_of_accepted {config : Config} {store : σ} {p : Push σ}
    (hpush : push store config.toSettings.entries = p) (h : p.refusal = none) :
    (connect config store).value = .ok ⟨config, p.store⟩ := by
  rw [connect, hpush]
  simp only [h]

theorem value_connect_of_refused {config : Config} {store : σ} {p : Push σ} {cause : String}
    (hpush : push store config.toSettings.entries = p) (h : p.refusal = some cause) :
    (connect config store).value = .error (.refused cause, p.store) := by
  rw [connect, hpush]
  simp only [h]
  rfl

/-! ### Contents -/

/-- `held` tells what is in a store: a setting that is taken stands under its key,
and one that is refused changes nothing. -/
structure Holds (held : σ → String → Option String) : Prop where
  of_ok : ∀ {store store' : σ} {key value : String},
    SettingsStore.apply store key value = (store', .ok ()) →
      ∀ k, held store' k = if k = key then some value else held store k
  of_error : ∀ {store store' : σ} {key value cause : String},
    SettingsStore.apply store key value = (store', .error cause) →
      ∀ k, held store' k = held store k

theorem Takes.held_eq {held : σ → String → Option String} (hheld : Holds held) {store store' : σ}
    {l : List (String × String)} (h : Takes store l store')
    (hdistinct : l.Pairwise (fun a b => a.1 ≠ b.1)) (k : String) :
    held store' k = (l.lookup k).or (held store k) := by
  induction h with
  | nil => rfl
  | @cons store middle store' key value rest happly hrest ih =>
    obtain ⟨hfresh, hrest⟩ := List.pairwise_cons.1 hdistinct
    rw [ih hrest, hheld.of_ok happly, StringMap.lookup_cons_eq_ite]
    by_cases hk : k = key
    · -- The key was just taken, and no later setting has it.
      have hlater : rest.lookup k = none := by
        rw [List.lookup_eq_none_iff]
        intro p hp
        simpa [hk] using hfresh p hp
      simp [hk, hk ▸ hlater]
    · simp [hk]

end Progress

variable [FaithfulStore σ]

open FaithfulStore (held)

theorem holds_held : Holds (held : σ → String → Option String) where
  of_ok := FaithfulStore.held_of_ok
  of_error := FaithfulStore.held_of_error

/-- After a push the store holds what it took, and elsewhere what it held. -/
theorem held_push (store : σ) {l : List (String × String)}
    (hdistinct : l.Pairwise (fun a b => a.1 ≠ b.1)) (k : String) :
    held (push store l).store k = ((push store l).accepted.lookup k).or (held store k) := by
  obtain ⟨middle, htakes, hstore⟩ := takes_accepted store l
  have hmiddle := htakes.held_eq holds_held
    (hdistinct.sublist (accepted_prefix_offered store l).sublist) k
  rw [← hmiddle]
  rcases hstore with hstore | ⟨key, value, cause, hrefused⟩
  · rw [hstore]
  · exact holds_held.of_error hrefused k

end Synced

end JobConfig
