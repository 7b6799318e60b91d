import JobConfig.Config.Overlay
import JobConfig.Proofs.SettingText

/-!
Laying texts over a config. Each text reaches the setting of its own key and no
other, so a map whose texts are all accepted gives a config that is described
setting by setting, in whatever order the keys come. The canonical texts of a
config are accepted and describe that config; hence the round trip.
-/

namespace JobConfig

namespace Setting

theorem nodup_all : all.Nodup := by
  decide

theorem keys_ne : all.Pairwise (fun s t => s.key ≠ t.key) :=
  nodup_all.imp fun hne heq => hne (key_injective heq)

end Setting

namespace Config

/-! ### Canonical texts -/

/-- The canonical texts are the texts of the settings, each under its key. -/
theorem get?_toSettings_eq_some_iff (c : Config) (k v : String) :
    c.toSettings.get? k = some v ↔ ∃ s : Setting, s.key = k ∧ c.settingText s = v := by
  have hdistinct : (Setting.all.map fun s => (s.key, c.settingText s)).Pairwise
      (fun a b => a.1 ≠ b.1) :=
    List.pairwise_map.2 Setting.keys_ne
  rw [toSettings, StringMap.get?_ofList_eq_some_iff hdistinct]
  constructor
  · intro hmem
    obtain ⟨s, -, hs⟩ := List.mem_map.1 hmem
    exact ⟨s, congrArg Prod.fst hs, congrArg Prod.snd hs⟩
  · rintro ⟨s, rfl, rfl⟩
    exact List.mem_map.2 ⟨s, Setting.mem_all s, rfl⟩

@[simp] theorem get?_toSettings_key (c : Config) (s : Setting) :
    c.toSettings.get? s.key = some (c.settingText s) :=
  (get?_toSettings_eq_some_iff c s.key _).2 ⟨s, rfl, rfl⟩

theorem parse_settingText (c : Config) (s : Setting) : s.parse (c.settingText s) = .ok (c.get s) :=
  Setting.parse_render s (c.get s)

theorem settingText_inj {b c : Config} {s : Setting} :
    b.settingText s = c.settingText s ↔ b.get s = c.get s := by
  constructor
  · exact Setting.render_injective s
  · intro h
    rw [settingText, settingText, h]

/-- The changes between two configs are the later texts of the settings whose
texts differ. -/
theorem mem_changes_iff (before after : Config) (k v : String) :
    (k, v) ∈ (changes before after).entries ↔
      ∃ s : Setting, s.key = k ∧ after.settingText s = v ∧ before.settingText s ≠ v := by
  simp only [changes, List.mem_filter, decide_eq_true_eq]
  rw [StringMap.mem_entries_iff, get?_toSettings_eq_some_iff]
  constructor
  · rintro ⟨⟨s, rfl, rfl⟩, hne⟩
    rw [get?_toSettings_key] at hne
    exact ⟨s, rfl, rfl, fun h => hne (congrArg some h)⟩
  · rintro ⟨s, rfl, rfl, hne⟩
    rw [get?_toSettings_key]
    exact ⟨⟨s, rfl, rfl⟩, fun h => hne (Option.some.inj h)⟩

/-! ### One text -/

theorem applyEntry_of_unknown {key : String} (h : Setting.ofKey? key = none) (c : Config)
    (text : String) : (c.applyEntry key text).value = .ok c := by
  simp [applyEntry, h]

theorem applyEntry_of_ok {s : Setting} {text : String} {v : s.Value} (h : s.parse text = .ok v)
    (c : Config) : (c.applyEntry s.key text).value = .ok (c.set s v) := by
  simp only [applyEntry, Setting.ofKey?_key, h]

theorem applyEntries_cons_of_ok {c c' : Config} {key text : String}
    (h : (c.applyEntry key text).value = .ok c') (rest : List (String × String)) :
    (c.applyEntries ((key, text) :: rest)).value = (c'.applyEntries rest).value := by
  simp only [applyEntries, Traced.andThenOk, Traced.value_andThen, h]

theorem configure_singleton {s : Setting} {text : String} {v : s.Value}
    (h : s.parse text = .ok v) (c : Config) :
    (c.configure (StringMap.ofList [(s.key, text)])).value = .ok (c.set s v) := by
  have hentries : (StringMap.ofList [(s.key, text)]).entries = [(s.key, text)] := rfl
  rw [configure, hentries, applyEntries_cons_of_ok (applyEntry_of_ok h c)]
  rfl

/-! ### All texts -/

/-- Texts that are all accepted lead to a config that holds what they say where
they speak of a setting, and the old values elsewhere. -/
theorem exists_applyEntries_eq_ok {l : List (String × String)}
    (hdistinct : l.Pairwise (fun a b => a.1 ≠ b.1))
    (haccept : ∀ (s : Setting) (text : String), (s.key, text) ∈ l → ∃ v, s.parse text = .ok v)
    (c : Config) :
    ∃ c', (c.applyEntries l).value = .ok c' ∧
      (∀ (s : Setting) (text : String), (s.key, text) ∈ l → s.parse text = .ok (c'.get s)) ∧
      ∀ s : Setting, (∀ text, (s.key, text) ∉ l) → c'.get s = c.get s := by
  induction l generalizing c with
  | nil => exact ⟨c, rfl, by simp, fun _ _ => rfl⟩
  | cons entry rest ih =>
    obtain ⟨key, text⟩ := entry
    obtain ⟨hfresh, hrest⟩ := List.pairwise_cons.1 hdistinct
    have hacceptRest : ∀ (s : Setting) (t : String), (s.key, t) ∈ rest →
        ∃ v, s.parse t = .ok v :=
      fun s t hmem => haccept s t (List.mem_cons_of_mem _ hmem)
    cases hkey : Setting.ofKey? key with
    | none =>
      -- No setting has this key, so the text changes nothing.
      obtain ⟨c', hvalue, hset, hkeep⟩ := ih hrest hacceptRest c
      have hne : ∀ s : Setting, s.key ≠ key := by
        intro s heq
        rw [← heq, Setting.ofKey?_key] at hkey
        cases hkey
      refine ⟨c', ?_, ?_, ?_⟩
      · rw [applyEntries_cons_of_ok (applyEntry_of_unknown hkey c text), hvalue]
      · intro s t hmem
        rcases List.mem_cons.1 hmem with hhead | htail
        · exact absurd (congrArg Prod.fst hhead) (hne s)
        · exact hset s t htail
      · intro s hs
        exact hkeep s fun t hmem => hs t (List.mem_cons_of_mem _ hmem)
    | some s₀ =>
      obtain rfl := Setting.key_of_ofKey? hkey
      obtain ⟨v, hv⟩ := haccept s₀ text List.mem_cons_self
      obtain ⟨c', hvalue, hset, hkeep⟩ := ih hrest hacceptRest (c.set s₀ v)
      -- No later text has this key, so the value written here stays.
      have hs₀ : c'.get s₀ = v := by
        rw [hkeep s₀ fun t hmem => hfresh _ hmem rfl, get_set_self]
      refine ⟨c', ?_, ?_, ?_⟩
      · rw [applyEntries_cons_of_ok (applyEntry_of_ok hv c), hvalue]
      · intro s t hmem
        rcases List.mem_cons.1 hmem with hhead | htail
        · obtain ⟨hs, rfl⟩ := Prod.mk.inj hhead
          obtain rfl := Setting.key_injective hs
          rw [hs₀, hv]
        · exact hset s t htail
      · intro s hs
        have hne : s ≠ s₀ := by
          rintro rfl
          exact hs text List.mem_cons_self
        rw [hkeep s fun t hmem => hs t (List.mem_cons_of_mem _ hmem), get_set_of_ne c v hne]

/-- Laying a map over a config whose texts for known keys are all accepted
succeeds, and the config is described setting by setting. -/
theorem exists_configure_eq_ok {settings : StringMap String}
    (haccept : ∀ (s : Setting) (text : String), settings.get? s.key = some text →
      ∃ v, s.parse text = .ok v) (c : Config) :
    ∃ c', (c.configure settings).value = .ok c' ∧
      (∀ (s : Setting) (text : String), settings.get? s.key = some text →
        s.parse text = .ok (c'.get s)) ∧
      ∀ s : Setting, settings.get? s.key = none → c'.get s = c.get s := by
  obtain ⟨c', hvalue, hset, hkeep⟩ := exists_applyEntries_eq_ok settings.entries_ne
    (fun s text hmem => haccept s text ((settings.mem_entries_iff _ _).1 hmem)) c
  refine ⟨c', hvalue, ?_, ?_⟩
  · intro s text hget
    exact hset s text ((settings.mem_entries_iff _ _).2 hget)
  · intro s hnone
    refine hkeep s fun text hmem => ?_
    rw [settings.mem_entries_iff, hnone] at hmem
    cases hmem

/-- Laying canonical texts over a config, whichever configs they come from,
succeeds and gives these very texts back. -/
theorem exists_configure_canonical {l : List (String × String)}
    (hdistinct : l.Pairwise (fun a b => a.1 ≠ b.1))
    (hcanonical : ∀ (s : Setting) (text : String), (s.key, text) ∈ l →
      ∃ b : Config, b.settingText s = text) (c : Config) :
    ∃ c', (c.configure (StringMap.ofList l)).value = .ok c' ∧
      (∀ (s : Setting) (text : String), (s.key, text) ∈ l → c'.settingText s = text) ∧
      ∀ s : Setting, s.key ∉ l.map Prod.fst → c'.settingText s = c.settingText s := by
  have haccept : ∀ (s : Setting) (text : String), (StringMap.ofList l).get? s.key = some text →
      ∃ v, s.parse text = .ok v := by
    intro s text hget
    obtain ⟨b, rfl⟩ := hcanonical s text ((StringMap.get?_ofList_eq_some_iff hdistinct _ _).1 hget)
    exact ⟨b.get s, parse_settingText b s⟩
  obtain ⟨c', hvalue, hset, hkeep⟩ := exists_configure_eq_ok haccept c
  refine ⟨c', hvalue, ?_, ?_⟩
  · intro s text hmem
    obtain ⟨b, rfl⟩ := hcanonical s text hmem
    have hparse := hset s _ ((StringMap.get?_ofList_eq_some_iff hdistinct _ _).2 hmem)
    rw [parse_settingText] at hparse
    exact settingText_inj.2 (Except.ok.inj hparse).symm
  · intro s hs
    refine settingText_inj.2 (hkeep s ?_)
    cases hget : (StringMap.ofList l).get? s.key with
    | none => rfl
    | some text =>
      have hmem := (StringMap.get?_ofList_eq_some_iff hdistinct _ _).1 hget
      exact absurd (List.mem_map_of_mem hmem) hs

/-! ### The round trip -/

theorem configure_toSettings (b c : Config) : (b.configure c.toSettings).value = .ok c := by
  have haccept : ∀ (s : Setting) (text : String), c.toSettings.get? s.key = some text →
      ∃ v, s.parse text = .ok v := by
    intro s text hget
    rw [get?_toSettings_key] at hget
    obtain rfl := Option.some.inj hget
    exact ⟨c.get s, parse_settingText c s⟩
  obtain ⟨c', hvalue, hset, -⟩ := exists_configure_eq_ok haccept b
  have heq : c' = c := by
    refine ext_get fun s => ?_
    have hparse := hset s _ (get?_toSettings_key c s)
    rw [parse_settingText] at hparse
    exact (Except.ok.inj hparse).symm
  rw [hvalue, heq]

/-- Configs are equal when their settings have equal texts. -/
theorem ext_settingText {b c : Config} (h : ∀ s, b.settingText s = c.settingText s) : b = c :=
  ext_get fun s => settingText_inj.1 (h s)

/-- The canonical texts of a config, laid over any config, give that config;
and so they tell any two configs apart, setting by setting. -/
theorem settings_round_trip (b c : Config) :
    (b.configure c.toSettings).value = .ok c ∧
      (fromSettings c.toSettings).value = .ok c ∧
      (b.toSettings = c.toSettings → b = c) ∧
      (b = c ↔ ∀ k ∈ Setting.all.map Setting.key, b.toSettings.get? k = c.toSettings.get? k) := by
  refine ⟨configure_toSettings b c, configure_toSettings default c, ?_, ?_⟩
  · intro h
    have hb := configure_toSettings b b
    rw [h, configure_toSettings b c] at hb
    exact (Except.ok.inj hb).symm
  · constructor
    · rintro rfl k -
      rfl
    · intro h
      refine ext_settingText fun s => ?_
      have hs := h s.key (List.mem_map_of_mem (Setting.mem_all s))
      rw [get?_toSettings_key, get?_toSettings_key] at hs
      exact Option.some.inj hs

end Config

end JobConfig
