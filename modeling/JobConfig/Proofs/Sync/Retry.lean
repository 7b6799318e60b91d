import JobConfig.Proofs.Sync.Forwarding

/-!
What a refusal leaves behind, and trying again. A store that refuses a setting
took all settings before it and was asked for none behind it, so it holds some of
the changes that an update makes and nothing else new. The config is as before
and the next attempt makes the same changes; once it is accepted, nothing tells
how often it was refused.
-/

namespace JobConfig

namespace Synced

variable {σ : Type} [SettingsStore σ]

/-! ### Refusals -/

/-- Of the settings offered, the store took those with a lesser key than `key` in
their order, and then refused the one at `key`; it was asked for nothing more. -/
def RefusedAt (offered : StringMap String) (key cause : String) (store store' : σ) : Prop :=
  ∃ value middle, offered.get? key = some value ∧
    Takes store (offered.entries.filter fun e => e.1 < key) middle ∧
    SettingsStore.apply middle key value = (store', .error cause)

theorem Takes.push_eq {store store' : σ} {l : List (String × String)} (h : Takes store l store') :
    push store l = ⟨store', l, none⟩ := by
  induction h with
  | nil store => rfl
  | cons happly hrest ih => rw [push_cons_of_ok happly, ih]

theorem Takes.push_append_eq {store middle store' : σ} {before : List (String × String)}
    {key value cause : String} (h : Takes store before middle)
    (hrefused : SettingsStore.apply middle key value = (store', .error cause))
    (after : List (String × String)) :
    push store (before ++ (key, value) :: after) = ⟨store', before ++ [(key, value)], some cause⟩ := by
  induction h with
  | nil store => exact push_cons_of_error hrefused after
  | cons happly hrest ih =>
    rw [List.cons_append, push_cons_of_ok happly, ih hrefused]
    rfl

/-- A push of a whole map is refused at one of its keys, or goes all the way. -/
theorem push_entries_cases (store : σ) (offered : StringMap String) :
    (∃ store', Takes store offered.entries store' ∧
        push store offered.entries = ⟨store', offered.entries, none⟩) ∨
      ∃ key cause store' attempted, RefusedAt offered key cause store store' ∧
        push store offered.entries = ⟨store', attempted, some cause⟩ := by
  rcases push_cases store offered.entries with hall |
      ⟨before, key, value, after, middle, store', cause, hsplit, htakes, hrefused, hpush⟩
  · exact .inl hall
  · have hvalue : offered.get? key = some value := by
      rw [← StringMap.mem_entries_iff, hsplit]
      simp
    rw [← StringMap.filter_lt_eq hsplit] at htakes
    exact .inr ⟨key, cause, store', _, ⟨value, middle, hvalue, htakes, hrefused⟩, hpush⟩

theorem RefusedAt.push_eq {offered : StringMap String} {key cause : String} {store store' : σ}
    (h : RefusedAt offered key cause store store') :
    ∃ attempted, push store offered.entries = ⟨store', attempted, some cause⟩ := by
  obtain ⟨value, middle, hvalue, htakes, hrefused⟩ := h
  obtain ⟨before, after, hsplit⟩ :=
    List.append_of_mem ((offered.mem_entries_iff _ _).2 hvalue)
  rw [StringMap.filter_lt_eq hsplit] at htakes
  rw [hsplit]
  exact ⟨_, htakes.push_append_eq hrefused after⟩

/-- After a refusal the store holds the settings before the refused one, and
elsewhere what it held. -/
theorem RefusedAt.held_eq {held : σ → String → Option String} (hheld : Holds held)
    {offered : StringMap String} {key cause : String} {store store' : σ}
    (h : RefusedAt offered key cause store store') (k : String) :
    held store' k = if k < key then (offered.get? k).or (held store k) else held store k := by
  obtain ⟨value, middle, -, htakes, hrefused⟩ := h
  rw [hheld.of_error hrefused,
    htakes.held_eq hheld (offered.entries_ne.sublist List.filter_sublist), StringMap.lookup_filter_lt]
  split
  · rfl
  · rw [Option.none_or]

/-! ### Updates and openings -/

/-- The settings whose texts differ between two configs, with the later text. -/
def Differ (before after : Config) (offered : StringMap String) : Prop :=
  ∀ k v, offered.get? k = some v ↔
    after.toSettings.get? k = some v ∧ before.toSettings.get? k ≠ some v

theorem differ_iff {before after : Config} {offered : StringMap String} :
    Differ before after offered ↔ offered = Config.changes before after := by
  have hchanges : Differ before after (Config.changes before after) := fun k v => by
    rw [← StringMap.mem_entries_iff]
    exact Config.mem_changes_iff_get? before after k v
  constructor
  · intro hoffered
    refine StringMap.ext_get? fun k => Option.ext fun v => ?_
    rw [hoffered k v, hchanges k v]
  · rintro rfl
    exact hchanges

theorem update_eq_error_iff {s s' : Synced σ} {f : Config → Traced Config} {e : ConfigError} :
    (s.update f).value = (s', .error e) ↔ s'.config = s.config ∧ ∃ key cause,
      e = .refused cause ∧
        RefusedAt (Config.changes s.config (f s.config).value) key cause s.store s'.store := by
  constructor
  · intro h
    rcases push_entries_cases s.store (Config.changes s.config (f s.config).value) with
      ⟨store', -, hpush⟩ | ⟨key, cause, store', attempted, hrefused, hpush⟩
    · rw [value_update_of_accepted hpush rfl] at h
      cases h
    · rw [value_update_of_refused hpush rfl] at h
      cases h
      exact ⟨rfl, key, cause, rfl, hrefused⟩
  · rintro ⟨hconfig, key, cause, rfl, hrefused⟩
    obtain ⟨attempted, hpush⟩ := hrefused.push_eq
    rw [value_update_of_refused hpush rfl, ← hconfig]

theorem update_eq_ok_iff {s s' : Synced σ} {f : Config → Traced Config} :
    (s.update f).value = (s', .ok ()) ↔ s'.config = (f s.config).value ∧
      Takes s.store (Config.changes s.config (f s.config).value).entries s'.store := by
  constructor
  · intro h
    rcases push_entries_cases s.store (Config.changes s.config (f s.config).value) with
      ⟨store', htakes, hpush⟩ | ⟨key, cause, store', attempted, -, hpush⟩
    · rw [value_update_of_accepted hpush rfl] at h
      cases h
      exact ⟨rfl, htakes⟩
    · rw [value_update_of_refused hpush rfl] at h
      cases h
  · rintro ⟨hconfig, htakes⟩
    rw [value_update_of_accepted htakes.push_eq rfl, ← hconfig]

theorem connect_eq_error_iff {config : Config} {store store' : σ} {e : ConfigError} :
    (connect config store).value = .error (e, store') ↔ ∃ key cause, e = .refused cause ∧
      RefusedAt config.toSettings key cause store store' := by
  constructor
  · intro h
    rcases push_entries_cases store config.toSettings with
      ⟨store'', -, hpush⟩ | ⟨key, cause, store'', attempted, hrefused, hpush⟩
    · rw [value_connect_of_accepted hpush rfl] at h
      cases h
    · rw [value_connect_of_refused hpush rfl] at h
      cases h
      exact ⟨key, cause, rfl, hrefused⟩
  · rintro ⟨key, cause, rfl, hrefused⟩
    obtain ⟨attempted, hpush⟩ := hrefused.push_eq
    rw [value_connect_of_refused hpush rfl]

/-! ### Trying again -/

def SameContents (held : σ → String → Option String) (a b : σ) : Prop :=
  ∀ k, held a k = held b k

/-- From one state to another by any number of updates with `f`, all refused.
Between two of them the store may change what it accepts, but nobody writes to it. -/
inductive Refusals (held : σ → String → Option String) (f : Config → Traced Config) :
    Synced σ → Synced σ → Prop where
  | refl (s : Synced σ) : Refusals held f s s
  | step {s t u : Synced σ} {store : σ} {e : ConfigError} (before : Refusals held f s t)
      (hstore : SameContents held store t.store)
      (hrefused : (update ⟨t.config, store⟩ f).value = (u, .error e)) : Refusals held f s u

variable {held : σ → String → Option String}

/-- Refused updates keep the config, and what they write is covered by what a
later one writes again. -/
theorem Refusals.covered (hheld : Holds held) {f : Config → Traced Config} {s t : Synced σ}
    (h : Refusals held f s t) : t.config = s.config ∧ ∀ k,
      ((Config.changes s.config (f s.config).value).get? k).or (held t.store k) =
        ((Config.changes s.config (f s.config).value).get? k).or (held s.store k) := by
  induction h with
  | refl => exact ⟨rfl, fun _ => rfl⟩
  | @step t u store e before hstore hrefused ih =>
    obtain ⟨hconfig, hcovered⟩ := ih
    obtain ⟨hsame, key, cause, -, hrefused⟩ := update_eq_error_iff.1 hrefused
    dsimp only at hsame hrefused
    rw [hconfig] at hsame hrefused
    refine ⟨hsame, fun k => ?_⟩
    rw [hrefused.held_eq hheld, ← hcovered k, hstore k]
    -- A key in front of the refused one is written now; either way it is written again.
    split
    · rw [← Option.or_assoc, Option.or_self]
    · rfl

/-- What an update that is accepted leaves in the store. -/
theorem held_of_update_eq_ok (hheld : Holds held) {f : Config → Traced Config} {s s' : Synced σ}
    (h : (s.update f).value = (s', .ok ())) (k : String) :
    held s'.store k =
      ((Config.changes s.config (f s.config).value).get? k).or (held s.store k) :=
  (update_eq_ok_iff.1 h).2.held_eq hheld (StringMap.entries_ne _) k

theorem retry_eq_single (hheld : Holds held) {f : Config → Traced Config} {s t u v : Synced σ}
    {store store' : σ} (h : Refusals held f s t) (hstore : SameContents held store t.store)
    (hretry : (update ⟨t.config, store⟩ f).value = (u, .ok ()))
    (hstore' : SameContents held store' s.store)
    (hsingle : (update ⟨s.config, store'⟩ f).value = (v, .ok ())) :
    u.config = v.config ∧ SameContents held u.store v.store := by
  obtain ⟨hconfig, hcovered⟩ := h.covered hheld
  have hu := (update_eq_ok_iff.1 hretry).1
  have hv := (update_eq_ok_iff.1 hsingle).1
  refine ⟨?_, fun k => ?_⟩
  · rw [hu, hv]
    dsimp only
    rw [hconfig]
  · rw [held_of_update_eq_ok hheld hretry, held_of_update_eq_ok hheld hsingle]
    dsimp only
    rw [hconfig, hstore k, hstore' k, hcovered k]

/-- A refused update or opening tells the store's refusal and changes no config. Of
the settings whose texts differ, or of all in an opening, exactly those with lesser
keys than the refused one got into the store, which was asked for nothing after it.
However often an update was refused, once it is accepted config and store are as if
it had been accepted at first. -/
theorem retry_after_refusals (hheld : Holds held) :
    (∀ (s s' : Synced σ) (f : Config → Traced Config) (e : ConfigError),
        (s.update f).value = (s', .error e) ↔ s'.config = s.config ∧ ∃ offered key cause,
          e = .refused cause ∧ Differ s.config (f s.config).value offered ∧
            RefusedAt offered key cause s.store s'.store) ∧
      (∀ (config : Config) (store store' : σ) (e : ConfigError),
        (connect config store).value = .error (e, store') ↔ ∃ key cause, e = .refused cause ∧
          RefusedAt config.toSettings key cause store store') ∧
      (∀ (offered : StringMap String) (key cause : String) (store store' : σ),
        RefusedAt offered key cause store store' → ∀ k, held store' k =
          if k < key then (offered.get? k).or (held store k) else held store k) ∧
      ∀ (f : Config → Traced Config) (s t u v : Synced σ) (store store' : σ),
        Refusals held f s t →
        SameContents held store t.store → (update ⟨t.config, store⟩ f).value = (u, .ok ()) →
        SameContents held store' s.store → (update ⟨s.config, store'⟩ f).value = (v, .ok ()) →
          u.config = v.config ∧ SameContents held u.store v.store := by
  refine ⟨?_, fun _ _ _ _ => connect_eq_error_iff, ?_, ?_⟩
  · intro s s' f e
    simp only [update_eq_error_iff, differ_iff]
    constructor
    · rintro ⟨hconfig, key, cause, he, hrefused⟩
      exact ⟨hconfig, _, key, cause, he, rfl, hrefused⟩
    · rintro ⟨hconfig, _, key, cause, he, rfl, hrefused⟩
      exact ⟨hconfig, key, cause, he, hrefused⟩
  · intro offered key cause store store' hrefused
    exact hrefused.held_eq hheld
  · intro f s t u v store store' hrefusals hstore hretry hstore' hsingle
    exact retry_eq_single hheld hrefusals hstore hretry hstore' hsingle

theorem acceptsAll_open (memory : MemoryStore) : AcceptsAll (⟨{}, memory⟩ : Gated MemoryStore) := by
  intro l
  induction l generalizing memory with
  | nil => rfl
  | cons e rest ih =>
    obtain ⟨key, value⟩ := e
    rw [push_cons_of_ok rfl]
    exact ih _

theorem exists_update_of_refusal {s : Synced σ} {f : Config → Traced Config} {cause : String}
    (h : (push s.store (Config.changes s.config (f s.config).value).entries).refusal =
      some cause) :
    ∃ t, (s.update f).value = (t, .error (.refused cause)) := by
  cases hpush : push s.store (Config.changes s.config (f s.config).value).entries with
  | mk store' attempted refusal =>
    rw [hpush] at h
    dsimp only at h
    rw [h] at hpush
    exact ⟨_, value_update_of_refused hpush rfl⟩

theorem AcceptsAll.exists_update {store : σ} (h : AcceptsAll store) (config : Config)
    (f : Config → Traced Config) : ∃ u, (update ⟨config, store⟩ f).value = (u, .ok ()) :=
  ⟨_, update_of_acceptsAll h f⟩

/-- A store with room for a single setting, of the two that `tune` changes. -/
def cramped : Synced (Gated MemoryStore) := ⟨default, { accept := some 1 }, {}⟩

theorem push_cramped :
    (push cramped.store (Config.changes cramped.config (tune cramped.config).value).entries).refusal =
      some "runtime full at pipeline.object-reuse" := by
  decide +kernel

theorem retry_after_refusals_cramped :
    Holds (FaithfulStore.held : Gated MemoryStore → String → Option String) ∧
      ∃ t u v : Synced (Gated MemoryStore),
        (cramped.update tune).value =
          (t, .error (.refused "runtime full at pipeline.object-reuse")) ∧
        (update ⟨t.config, ⟨{}, t.store.store⟩⟩ tune).value = (u, .ok ()) ∧
        (update ⟨cramped.config, ⟨{}, cramped.store.store⟩⟩ tune).value = (v, .ok ()) ∧
        u.config = v.config ∧ SameContents FaithfulStore.held u.store v.store := by
  -- What the updates leave in the stores is kept as variables: it is not computed.
  obtain ⟨t, hrefused⟩ := exists_update_of_refusal push_cramped
  obtain ⟨u, hretry⟩ := (acceptsAll_open t.store.store).exists_update t.config tune
  obtain ⟨v, hsingle⟩ := (acceptsAll_open cramped.store.store).exists_update cramped.config tune
  have hrefusals : Refusals FaithfulStore.held tune cramped t :=
    .step (.refl cramped) (fun _ => rfl) hrefused
  have hsame := (retry_after_refusals holds_held).2.2.2 tune cramped t u v
    ⟨{}, t.store.store⟩ ⟨{}, cramped.store.store⟩ hrefusals (fun _ => rfl) hretry (fun _ => rfl)
    hsingle
  exact ⟨holds_held, t, u, v, hrefused, hretry, hsingle, hsame⟩

end Synced

end JobConfig
