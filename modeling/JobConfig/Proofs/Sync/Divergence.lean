import JobConfig.Proofs.Sync.Run

/-!
Where a store and the config that it follows differ: at the settings that
refused updates left over, and nowhere else.

The invariant of a run says more than that. It keeps the value of every setting
left over, which is what the store holds there and the canonical text of some
value; this is why a refresh can always read it.
-/

namespace JobConfig.Synced

open FaithfulStore (held)

variable {σ : Type} [FaithfulStore σ]

/-! ### Settings left over -/

namespace Outcome

/-- What is left over at a key after an outcome, given what was before. -/
def leaves (k : String) (before : Option String) : Outcome → Option String
  | updated _ pushed => if k ∈ pushed.map Prod.fst then none else before
  | refused accepted => (accepted.lookup k).or before
  | refreshed shown => if k ∈ shown.map Prod.fst then none else before
  | idle => before

end Outcome

/-- The value that refused updates left in the store at a key. -/
def leftover (history : List Outcome) (k : String) : Option String :=
  history.foldl (Outcome.leaves k) none

theorem lookup_eq_none_iff {l : List (String × String)} {k : String} :
    l.lookup k = none ↔ k ∉ l.map Prod.fst := by
  rw [List.lookup_eq_none_iff, List.mem_map, not_exists]
  refine forall_congr' fun p => ?_
  rw [not_and, bne_iff_ne, Ne, eq_comm]

/-- The store holds the canonical texts of the config, except for the values in
`left`: these are texts of other values. -/
structure InStepExcept (left : String → Option String) (s : Synced σ) : Prop where
  agrees : ∀ t : Setting, left t.key = none → held s.store t.key = some (s.config.settingText t)
  differs : ∀ k v, left k = some v → ∃ t : Setting, t.key = k ∧ held s.store k = some v ∧
    s.config.settingText t ≠ v ∧ ∃ c : Config, c.settingText t = v

/-- Whatever the store holds for a setting is a canonical text. -/
theorem InStepExcept.canonical {left : String → Option String} {s : Synced σ}
    (h : InStepExcept left s) {t : Setting} {v : String} (hheld : held s.store t.key = some v) :
    ∃ c : Config, c.settingText t = v := by
  cases hleft : left t.key with
  | none =>
    rw [h.agrees t hleft] at hheld
    exact ⟨s.config, Option.some.inj hheld⟩
  | some w =>
    obtain ⟨u, hu, hw, -, hc⟩ := h.differs t.key w hleft
    obtain rfl := Setting.key_injective hu
    rw [hw] at hheld
    rwa [Option.some.inj hheld] at hc

theorem value_connect_of_none {config : Config} {store : σ}
    (h : (push store config.toSettings.entries).refusal = none) :
    (connect config store).value = .ok ⟨config, (push store config.toSettings.entries).store⟩ :=
  value_connect_of_accepted rfl h

namespace InStepExcept

variable {left : String → Option String} {s : Synced σ}

/-- What the store holds for a setting: the value left over, or else the text of
the config. -/
theorem held_key (h : InStepExcept left s) (t : Setting) :
    held s.store t.key = some ((left t.key).getD (s.config.settingText t)) := by
  cases hleft : left t.key with
  | none => simpa using h.agrees t hleft
  | some v =>
    obtain ⟨-, -, hheld, -⟩ := h.differs t.key v hleft
    simpa using hheld

/-- A refresh fails and changes nothing, or gives every setting shown the value
left over for it. -/
theorem call_refresh (h : InStepExcept left s) :
    s.call .refresh = (s, .idle) ∨
      ∃ entries config, s.call .refresh = (⟨config, s.store⟩, .refreshed entries) ∧
        ∀ t : Setting, config.settingText t =
          if t.key ∈ entries.map Prod.fst then (left t.key).getD (s.config.settingText t)
          else s.config.settingText t := by
  rcases Synced.call_refresh s with hidle | ⟨entries, config, hread, hvalue, hcall⟩
  · exact .inl hidle
  have hcanonical : ∀ (t : Setting) (v : String), (t.key, v) ∈ entries →
      ∃ c : Config, c.settingText t = v :=
    fun t v hmem => h.canonical (mem_readSettings hread hmem)
  obtain ⟨config', hvalue', hset, hkeep⟩ :=
    Config.exists_configure_canonical (reads_of_readSettings hread).distinct hcanonical s.config
  obtain rfl : config = config' := Except.ok.inj (hvalue.symm.trans hvalue')
  refine .inr ⟨entries, config, hcall, fun t => ?_⟩
  split
  · rename_i hshown
    obtain ⟨⟨k, v⟩, hmem, rfl⟩ := List.mem_map.1 hshown
    have hheld := mem_readSettings hread hmem
    rw [h.held_key t] at hheld
    rw [hset t v hmem, Option.some.inj hheld]
  · rename_i hshown
    exact hkeep t hshown

theorem refresh (h : InStepExcept left s) :
    InStepExcept (fun k => (s.call .refresh).2.leaves k (left k)) (s.call .refresh).1 := by
  rcases h.call_refresh with hidle | ⟨entries, config, hcall, htexts⟩
  · rw [hidle]
    exact h
  rw [hcall]
  constructor
  · intro t hleft
    dsimp only [Outcome.leaves] at hleft
    rw [htexts t]
    split at hleft
    · rename_i hshown
      rw [if_pos hshown]
      exact h.held_key t
    · rename_i hshown
      rw [if_neg hshown]
      exact h.agrees t hleft
  · intro k v hleft
    dsimp only [Outcome.leaves] at hleft
    split at hleft
    · cases hleft
    · rename_i hshown
      obtain ⟨t, rfl, hheld, hne, hc⟩ := h.differs k v hleft
      refine ⟨t, rfl, hheld, ?_, hc⟩
      rwa [htexts t, if_neg hshown]

/-- Settings that bring the store up to the next state of the config leave nothing
over at their keys. -/
theorem updated (h : InStepExcept left s) {next : Config} {store : σ}
    {pushed : List (String × String)} (f : Config → Traced Config)
    (hheld : ∀ k, held store k = (pushed.lookup k).or (held s.store k))
    (hin : ∀ t : Setting, t.key ∈ pushed.map Prod.fst →
      pushed.lookup t.key = some (next.settingText t))
    (hout : ∀ t : Setting, t.key ∉ pushed.map Prod.fst →
      next.settingText t = s.config.settingText t) :
    InStepExcept (fun k => (Outcome.updated f pushed).leaves k (left k)) ⟨next, store⟩ := by
  constructor
  · intro t hleft
    dsimp only [Outcome.leaves] at hleft ⊢
    rw [hheld]
    split at hleft
    · rename_i hpushed
      rw [hin t hpushed, Option.some_or]
    · rename_i hpushed
      rw [lookup_eq_none_iff.2 hpushed, Option.none_or, h.agrees t hleft, hout t hpushed]
  · intro k v hleft
    dsimp only [Outcome.leaves] at hleft ⊢
    split at hleft
    · cases hleft
    · rename_i hpushed
      obtain ⟨t, rfl, hbefore, hne, hc⟩ := h.differs k v hleft
      refine ⟨t, rfl, ?_, ?_, hc⟩
      · rw [hheld, lookup_eq_none_iff.2 hpushed, Option.none_or, hbefore]
      · rwa [hout t hpushed]

/-- Settings accepted for a state that the config does not take are left over. -/
theorem refused (h : InStepExcept left s) {store : σ} {accepted : List (String × String)}
    (hheld : ∀ k, held store k = (accepted.lookup k).or (held s.store k))
    (hother : ∀ k v, accepted.lookup k = some v → ∃ t : Setting, t.key = k ∧
      s.config.settingText t ≠ v ∧ ∃ c : Config, c.settingText t = v) :
    InStepExcept (fun k => (Outcome.refused accepted).leaves k (left k)) ⟨s.config, store⟩ := by
  constructor
  · intro t hleft
    obtain ⟨hnone, hbefore⟩ := Option.or_eq_none_iff.1 hleft
    dsimp only
    rw [hheld, hnone, Option.none_or, h.agrees t hbefore]
  · intro k v hleft
    dsimp only [Outcome.leaves] at hleft ⊢
    rw [hheld]
    cases hlookup : accepted.lookup k with
    | some w =>
      rw [hlookup, Option.some_or] at hleft
      obtain ⟨t, ht, hne, hc⟩ := hother k v (hlookup.trans hleft)
      exact ⟨t, ht, hleft, hne, hc⟩
    | none =>
      rw [hlookup, Option.none_or] at hleft
      exact h.differs k v hleft

theorem update (h : InStepExcept left s) (f : Config → Traced Config) :
    InStepExcept (fun k => (s.call (.update f)).2.leaves k (left k))
      (s.call (.update f)).1 := by
  cases hrefusal : (s.forward f).refusal with
  | none =>
    rw [call_update_of_none hrefusal]
    exact h.updated f (held_forward s f) (fun t => lookup_accepted_forward)
      fun t => settingText_of_notMem_accepted hrefusal
  | some cause =>
    have hother : ∀ k v, (s.forward f).accepted.lookup k = some v → ∃ t : Setting, t.key = k ∧
        s.config.settingText t ≠ v ∧ ∃ c : Config, c.settingText t = v := by
      intro k v hlookup
      have hmem := (StringMap.lookup_eq_some_iff_mem (accepted_forward_ne s f) k v).1 hlookup
      obtain ⟨t, ht, hnext, hne⟩ := mem_accepted_forward hmem
      exact ⟨t, ht, hne, (f s.config).value, hnext⟩
    rw [call_update_of_some hrefusal]
    exact h.refused (held_forward s f) hother

/-- Every call keeps track of what is left over. -/
theorem call (h : InStepExcept left s) (c : Call σ) :
    InStepExcept (fun k => (s.call c).2.leaves k (left k)) (s.call c).1 := by
  cases c with
  | update f => exact h.update f
  | refresh => exact h.refresh
  | shift g keeps =>
    constructor
    · intro t hleft
      exact (keeps s.store t.key).trans (h.agrees t hleft)
    · intro k v hleft
      obtain ⟨t, rfl, hheld, hrest⟩ := h.differs k v hleft
      exact ⟨t, rfl, (keeps s.store t.key).trans hheld, hrest⟩

end InStepExcept

/-! ### Runs -/

/-- A store in memory with room for one setting more than a config has. -/
def nearlyFull : Gated MemoryStore := ⟨{ accept := some 18 }, {}⟩

theorem push_nearlyFull :
    (push nearlyFull (Config.toSettings default).entries).refusal = none := by
  rfl

end JobConfig.Synced
