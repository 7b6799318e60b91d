import JobConfig.Proofs.Overlay.Outcome
import JobConfig.Proofs.Sync.Forwarding

/-!
What a refresh makes of the settings that a store shows. It asks for every
setting and writes none; if all can be read and all texts are accepted, then the
config takes what the store has and keeps what it has not. Nothing is asked of
the store: it may hold any texts, under known and unknown keys, hide some and
fail at others.
-/

namespace JobConfig

namespace Synced

variable {σ : Type} [SettingsStore σ]

/-! ### Reading -/

theorem readSettings_cons_cases (store : σ) (t : Setting) (asked : List Setting) :
    (∃ cause, SettingsStore.read store t.key = .error cause ∧
        readSettings store (t :: asked) = .error cause) ∨
      (SettingsStore.read store t.key = .ok none ∧
        readSettings store (t :: asked) = readSettings store asked) ∨
      ∃ text, SettingsStore.read store t.key = .ok (some text) ∧
        readSettings store (t :: asked) =
          (readSettings store asked).map ((t.key, text) :: ·) := by
  rw [readSettings]
  cases SettingsStore.read store t.key with
  | error cause => exact .inl ⟨cause, rfl, rfl⟩
  | ok value =>
    cases value with
    | none => exact .inr (.inl ⟨rfl, by cases readSettings store asked <;> rfl⟩)
    | some text => exact .inr (.inr ⟨text, rfl, rfl⟩)

/-- Reading ends at a setting that cannot be read, or gives what the store shows
for every setting asked for. -/
theorem readSettings_cases (store : σ) (asked : List Setting) :
    (∃ t ∈ asked, ∃ cause, SettingsStore.read store t.key = .error cause ∧
        readSettings store asked = .error cause) ∨
      ∃ entries, readSettings store asked = .ok entries ∧
        (entries.map Prod.fst).Sublist (asked.map Setting.key) ∧
        ∀ t ∈ asked, SettingsStore.read store t.key = .ok (entries.lookup t.key) := by
  induction asked with
  | nil => exact .inr ⟨[], rfl, .slnil, by simp⟩
  | cons t asked ih =>
    rcases readSettings_cons_cases store t asked with ⟨cause, hread, hall⟩ | ⟨hread, hall⟩ |
        ⟨text, hread, hall⟩
    · exact .inl ⟨t, List.mem_cons_self, cause, hread, hall⟩
    all_goals
      rcases ih with ⟨u, hu, cause, hcause, hrest⟩ | ⟨entries, hrest, hkeys, hshown⟩
    · exact .inl ⟨u, List.mem_cons_of_mem _ hu, cause, hcause, hall.trans hrest⟩
    · refine .inr ⟨entries, hall.trans hrest, hkeys.cons _, ?_⟩
      refine List.forall_mem_cons.2 ⟨?_, hshown⟩
      -- A key that is shown was asked for, and this one is absent.
      cases hlookup : entries.lookup t.key with
      | none => exact hread
      | some text =>
        obtain ⟨before, after, hsplit, -⟩ := List.lookup_eq_some_iff.1 hlookup
        have hkey : t.key ∈ entries.map Prod.fst := by simp [hsplit]
        obtain ⟨u, hu, heq⟩ := List.mem_map.1 (hkeys.subset hkey)
        rw [← hlookup, ← heq]
        exact hshown u hu
    · refine .inl ⟨u, List.mem_cons_of_mem _ hu, cause, hcause, ?_⟩
      rw [hall, hrest]
      rfl
    · refine .inr ⟨(t.key, text) :: entries, by rw [hall, hrest]; rfl, hkeys.cons_cons _, ?_⟩
      intro u hu
      rw [StringMap.lookup_cons_eq_ite]
      split
      · rename_i heq
        rw [heq, hread]
      · rename_i hne
        rcases List.mem_cons.1 hu with rfl | hu
        · exact absurd rfl hne
        · exact hshown u hu

/-- The store shows, for every setting, what the map has under its key. -/
def Shows (store : σ) (settings : StringMap String) : Prop :=
  ∀ t : Setting, SettingsStore.read store t.key = .ok (settings.get? t.key)

/-- The entries are what the store shows, each setting once. -/
structure Reads (store : σ) (entries : List (String × String)) : Prop where
  keys : ∀ e ∈ entries, ∃ t : Setting, t.key = e.1
  distinct : entries.Pairwise (fun a b => a.1 ≠ b.1)
  shows : Shows store (StringMap.ofList entries)

theorem Reads.read_of_mem {store : σ} {entries : List (String × String)} (h : Reads store entries)
    {k text : String} (hmem : (k, text) ∈ entries) :
    SettingsStore.read store k = .ok (some text) := by
  obtain ⟨t, rfl⟩ := h.keys _ hmem
  rw [h.shows t, (StringMap.get?_ofList_eq_some_iff h.distinct _ _).2 hmem]

theorem readSettings_all_cases (store : σ) :
    (∃ (t : Setting) (cause : String), SettingsStore.read store t.key = .error cause ∧
        readSettings store Setting.all = .error cause) ∨
      ∃ entries, readSettings store Setting.all = .ok entries ∧ Reads store entries := by
  rcases readSettings_cases store Setting.all with ⟨t, -, cause, hread, hall⟩ |
      ⟨entries, hall, hkeys, hshown⟩
  · exact .inl ⟨t, cause, hread, hall⟩
  · have hdistinct : entries.Pairwise (fun a b => a.1 ≠ b.1) :=
      List.pairwise_map.1 ((List.pairwise_map.2 Setting.keys_ne).sublist hkeys)
    refine .inr ⟨entries, hall, fun e he => ?_, hdistinct, fun t => ?_⟩
    · obtain ⟨t, -, ht⟩ := List.mem_map.1 (hkeys.subset (List.mem_map_of_mem he))
      exact ⟨t, ht⟩
    · rw [StringMap.get?_ofList_of_ne hdistinct]
      exact hshown t (Setting.mem_all t)

theorem reads_of_readSettings {store : σ} {entries : List (String × String)}
    (h : readSettings store Setting.all = .ok entries) : Reads store entries := by
  rcases readSettings_all_cases store with ⟨t, cause, -, hall⟩ | ⟨entries', hall, hreads⟩
  · rw [h] at hall
    cases hall
  · rw [h] at hall
    rwa [Except.ok.inj hall]

/-! ### Taking over what is read -/

/-- What becomes of the config and of the refresh when the texts of the store were
laid over it. -/
def adopt (s : Synced σ) : Except ConfigError Config → Synced σ × Except ConfigError Unit
  | .ok config => ({ s with config }, .ok ())
  | .error e => (s, .error e)

theorem refresh_of_shows {s : Synced σ} {settings : StringMap String}
    (h : Shows s.store settings) :
    s.refresh.value = s.adopt (s.config.configure settings).value := by
  rcases readSettings_all_cases s.store with ⟨t, cause, hread, -⟩ | ⟨entries, hall, hreads⟩
  · rw [h t] at hread
    cases hread
  · have htexts : ∀ t : Setting, (StringMap.ofList entries).get? t.key = settings.get? t.key :=
      fun t => Except.ok.inj ((hreads.shows t).symm.trans (h t))
    have hsame := Config.configure_congr (b := s.config) htexts fun _ _ => rfl
    rw [refresh, hall, ← hsame]
    dsimp only
    rw [Traced.value_map]
    cases hvalue : (s.config.configure (StringMap.ofList entries)).value with
    | ok next => rw [Config.value_reconfigure_of_ok hvalue, adopt]
    | error e => rw [Config.value_reconfigure_of_error hvalue, adopt]

/-- A refresh fails at a setting that cannot be read, or lays over the config what
the store shows. -/
theorem refresh_cases (s : Synced σ) :
    (∃ (t : Setting) (cause : String), SettingsStore.read s.store t.key = .error cause ∧
        s.refresh.value = (s, .error (.refused cause))) ∨
      ∃ settings, Shows s.store settings ∧
        s.refresh.value = s.adopt (s.config.configure settings).value := by
  rcases readSettings_all_cases s.store with ⟨t, cause, hread, hall⟩ | ⟨entries, -, hreads⟩
  · refine .inl ⟨t, cause, hread, ?_⟩
    rw [refresh, hall]
    rfl
  · exact .inr ⟨StringMap.ofList entries, hreads.shows, refresh_of_shows hreads.shows⟩

/-- Something stands in the way of a refresh: a setting that cannot be read, or a
text that is refused. -/
def Obstructed (store : σ) : Prop :=
  (∃ (t : Setting) (cause : String), SettingsStore.read store t.key = .error cause) ∨
    ∃ (t : Setting) (text : String) (reason : Reason),
      SettingsStore.read store t.key = .ok (some text) ∧ t.parse text = .error reason

theorem Shows.obstructed_iff {store : σ} {settings : StringMap String} (h : Shows store settings)
    (c : Config) : Obstructed store ↔ ∃ e, (c.configure settings).value = .error e := by
  constructor
  · rintro (⟨t, cause, hread⟩ | ⟨t, text, reason, hread, hparse⟩)
    · rw [h t] at hread
      cases hread
    · rw [h t] at hread
      have hmem := (settings.mem_entries_iff _ _).2 (Except.ok.inj hread)
      rcases c.configure_cases settings with ⟨hall, -⟩ | ⟨s, reason, -, herror⟩
      · exact absurd (hall _ hmem) (Config.not_accepted_of_error hparse)
      · exact ⟨_, herror⟩
  · rintro ⟨e, he⟩
    rcases c.configure_cases settings with ⟨-, next, hok⟩ | ⟨s, reason, hfirst, -⟩
    · rw [he] at hok
      cases hok
    · obtain ⟨text, hget, hparse⟩ := hfirst.refused
      exact .inr ⟨s, text, reason, by rw [h s, hget], hparse⟩

/-- An update that changes nothing pushes nothing. -/
theorem update_of_unchanged {s : Synced σ} {f : Config → Traced Config}
    (h : (f s.config).value = s.config) :
    pushed s f = [] ∧ (s.update f).value = (s, .ok ()) := by
  have hnil : (Config.changes s.config (f s.config).value).entries = [] := by
    rw [h]
    exact Decidable.not_not.1 fun hne => (Config.changes_ne_nil_iff _ _).1 hne rfl
  have hpush : push s.store (Config.changes s.config (f s.config).value).entries =
      ⟨s.store, [], none⟩ := by rw [hnil, push]
  refine ⟨by rw [pushed, hpush], ?_⟩
  rw [value_update_of_accepted hpush rfl, h]

/-- What a refresh that succeeds makes of a config: it took what the store has,
kept what the store has not, and there is nothing left to read or to push. -/
structure Refreshed (s s' : Synced σ) : Prop where
  present : ∀ (t : Setting) (text : String), SettingsStore.read s.store t.key = .ok (some text) →
    t.parse text = .ok (s'.config.get t)
  absent : ∀ t : Setting, SettingsStore.read s.store t.key = .ok none →
    s'.config.get t = s.config.get t
  again : s'.refresh.value = (s', .ok ())
  unchanged : ∀ f, (f s'.config).value = s'.config →
    pushed s' f = [] ∧ (s'.update f).value = (s', .ok ())

theorem refreshed_of_ok {s : Synced σ} {settings : StringMap String} {config : Config}
    (hshows : Shows s.store settings) (hvalue : (s.config.configure settings).value = .ok config) :
    Refreshed s ⟨config, s.store⟩ where
  present t text hread := by
    rw [hshows t] at hread
    exact (Config.get_of_configure hvalue).1 t text (Except.ok.inj hread)
  absent t hread := by
    rw [hshows t] at hread
    exact (Config.get_of_configure hvalue).2 t (Except.ok.inj hread)
  again := by
    -- Where the store has nothing, the config is as it was before.
    have hsame : (config.configure settings).value = .ok config :=
      (Config.configure_congr (fun _ => rfl) (Config.get_of_configure hvalue).2).trans hvalue
    have hagain := refresh_of_shows (s := ⟨config, s.store⟩) hshows
    rw [hagain, hsame]
    rfl
  unchanged f hf := update_of_unchanged hf

/-- A refresh that is obstructed changes nothing; any other succeeds. -/
theorem refresh_outcome (s : Synced σ) :
    (Obstructed s.store ∧ ∃ e, s.refresh.value = (s, .error e)) ∨
      (¬ Obstructed s.store ∧ ∃ config, s.refresh.value = (⟨config, s.store⟩, .ok ()) ∧
        Refreshed s ⟨config, s.store⟩) := by
  rcases s.refresh_cases with ⟨t, cause, hread, hvalue⟩ | ⟨settings, hshows, hvalue⟩
  · exact .inl ⟨.inl ⟨t, cause, hread⟩, _, hvalue⟩
  · rw [hvalue, hshows.obstructed_iff s.config]
    cases hconfig : (s.config.configure settings).value with
    | ok config =>
      refine .inr ⟨?_, config, rfl, refreshed_of_ok hshows hconfig⟩
      rintro ⟨e, he⟩
      cases he
    | error e => exact .inl ⟨⟨e, rfl⟩, e, rfl⟩

theorem refresh_of_contains {s : Synced σ} {settings : StringMap String}
    (hshows : Shows s.store settings) (hall : ∀ t : Setting, settings.contains t.key = true) :
    s.refresh.value = s.adopt (Config.fromSettings settings).value := by
  have hsame : (s.config.configure settings).value = (Config.fromSettings settings).value := by
    refine Config.configure_congr (fun _ => rfl) fun t hnone => ?_
    have ht := hall t
    rw [StringMap.contains, hnone] at ht
    cases ht
  rw [refresh_of_shows hshows, hsame]

/-- A refresh writes nothing to the store. It fails exactly when a setting cannot
be read or has a text that is refused, and then changes nothing at all. When it
succeeds the config took what the store has and kept the rest. A store that has
every setting decides alone what comes of it. -/
theorem refresh_takes_store (s : Synced σ) :
    s.refresh.value.1.store = s.store ∧
      ((∃ e, s.refresh.value.2 = .error e) ↔ Obstructed s.store) ∧
      (∀ e, s.refresh.value.2 = .error e → s.refresh.value.1 = s) ∧
      (s.refresh.value.2 = .ok () → Refreshed s s.refresh.value.1) ∧
      ∀ settings, Shows s.store settings → (∀ t : Setting, settings.contains t.key = true) →
        s.refresh.value = s.adopt (Config.fromSettings settings).value := by
  have hcontains : ∀ settings, Shows s.store settings →
      (∀ t : Setting, settings.contains t.key = true) →
      s.refresh.value = s.adopt (Config.fromSettings settings).value :=
    fun _ hshows hall => refresh_of_contains hshows hall
  rcases s.refresh_outcome with ⟨hobstructed, e, hvalue⟩ | ⟨hclear, config, hvalue, hrefreshed⟩
  · have hfailed : ∃ e', s.refresh.value.2 = .error e' := ⟨e, by rw [hvalue]⟩
    refine ⟨by rw [hvalue], iff_of_true hfailed hobstructed, fun _ _ => by rw [hvalue], ?_, hcontains⟩
    intro hok
    rw [hvalue] at hok
    cases hok
  · have hnone : ∀ e, s.refresh.value.2 ≠ .error e := by
      intro e he
      rw [hvalue] at he
      cases he
    refine ⟨by rw [hvalue], iff_of_false (fun ⟨e, he⟩ => hnone e he) hclear,
      fun e he => absurd he (hnone e), fun _ => ?_, hcontains⟩
    rw [hvalue]
    exact hrefreshed

end Synced

end JobConfig
