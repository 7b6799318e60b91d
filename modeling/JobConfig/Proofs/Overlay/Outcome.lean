import JobConfig.Proofs.Overlay
import JobConfig.Proofs.Utf8.Order

/-!
What comes of laying texts over a config: all of them are accepted and every
setting is as its own text says, or one is refused and nothing has changed. Of
several refused texts the one with the least key is reported, under that key.

One lemma says what a single text can do (`applyEntries_cons_cases`), one what a
whole list can do (`applyEntries_cases`); the rest is read off the latter.
-/

namespace JobConfig

namespace Config

/-- A text is accepted when it is under no setting's key, or the setting of its
key can read it. -/
def Accepted (entry : String × String) : Prop :=
  ∀ s : Setting, s.key = entry.1 → ∃ v, s.parse entry.2 = .ok v

/-- The text of `s` is refused, and none under a key with lesser bytes. -/
structure FirstRefused (settings : StringMap String) (s : Setting) (reason : Reason) : Prop where
  refused : ∃ text, settings.get? s.key = some text ∧ s.parse text = .error reason
  least : ∀ entry ∈ settings.entries, Utf8.encode entry.1 < Utf8.encode s.key → Accepted entry

/-! ### Lists of texts -/

/-- `s` is the setting of the first text in the list that is refused. -/
def StopsAt (l : List (String × String)) (s : Setting) (reason : Reason) : Prop :=
  ∃ before text after, l = before ++ (s.key, text) :: after ∧ s.parse text = .error reason ∧
    ∀ entry ∈ before, Accepted entry

theorem StopsAt.cons {entry : String × String} {l : List (String × String)} {s : Setting}
    {reason : Reason} (hentry : Accepted entry) (h : StopsAt l s reason) :
    StopsAt (entry :: l) s reason := by
  obtain ⟨before, text, after, rfl, hparse, hbefore⟩ := h
  exact ⟨entry :: before, text, after, rfl, hparse, List.forall_mem_cons.2 ⟨hentry, hbefore⟩⟩

theorem accepted_of_ok {s : Setting} {text : String} {v : s.Value} (h : s.parse text = .ok v) :
    Accepted (s.key, text) := by
  intro t ht
  obtain rfl := Setting.key_injective ht
  exact ⟨v, h⟩

theorem not_accepted_of_error {s : Setting} {text : String} {reason : Reason}
    (h : s.parse text = .error reason) : ¬ Accepted (s.key, text) := by
  intro haccepted
  obtain ⟨v, hv⟩ := haccepted s rfl
  dsimp only at hv
  rw [h] at hv
  cases hv

theorem applyEntries_cons_of_error {s : Setting} {text : String} {reason : Reason}
    (h : s.parse text = .error reason) (c : Config) (rest : List (String × String)) :
    (c.applyEntries ((s.key, text) :: rest)).value = .error (.invalid s.key reason) := by
  simp [applyEntries, Traced.andThenOk, applyEntry, h]

/-- A text that is accepted leads on to the others; one that is not ends it. -/
theorem applyEntries_cons_cases (c : Config) (entry : String × String)
    (rest : List (String × String)) :
    (Accepted entry ∧ ∃ c' : Config,
        (c.applyEntries (entry :: rest)).value = (c'.applyEntries rest).value) ∨
      ∃ (s : Setting) (reason : Reason), StopsAt (entry :: rest) s reason ∧
        (c.applyEntries (entry :: rest)).value = .error (.invalid s.key reason) := by
  obtain ⟨key, text⟩ := entry
  cases hkey : Setting.ofKey? key with
  | none =>
    refine .inl ⟨?_, c, applyEntries_cons_of_ok (applyEntry_of_unknown hkey c text) rest⟩
    rintro s rfl
    simp at hkey
  | some s =>
    obtain rfl := Setting.key_of_ofKey? hkey
    cases hparse : s.parse text with
    | ok v =>
      exact .inl ⟨accepted_of_ok hparse, c.set s v,
        applyEntries_cons_of_ok (applyEntry_of_ok hparse c) rest⟩
    | error reason =>
      exact .inr ⟨s, reason, ⟨[], text, rest, rfl, hparse, by simp⟩,
        applyEntries_cons_of_error hparse c rest⟩

theorem applyEntries_cases (c : Config) (l : List (String × String)) :
    ((∀ entry ∈ l, Accepted entry) ∧ ∃ next, (c.applyEntries l).value = .ok next) ∨
      ∃ (s : Setting) (reason : Reason), StopsAt l s reason ∧
        (c.applyEntries l).value = .error (.invalid s.key reason) := by
  induction l generalizing c with
  | nil => exact .inl ⟨by simp, c, rfl⟩
  | cons entry rest ih =>
    rcases applyEntries_cons_cases c entry rest with ⟨hentry, c', hvalue⟩ | hstop
    · rw [hvalue]
      rcases ih c' with ⟨hrest, hok⟩ | ⟨s, reason, hstop, herror⟩
      · exact .inl ⟨List.forall_mem_cons.2 ⟨hentry, hrest⟩, hok⟩
      · exact .inr ⟨s, reason, hstop.cons hentry, herror⟩
    · exact .inr hstop

/-! ### Maps of texts -/

/-- The list of a map goes up in its keys, so the first refused text in it is the
one with the least key. -/
theorem firstRefused_of_stopsAt {settings : StringMap String} {s : Setting} {reason : Reason}
    (h : StopsAt settings.entries s reason) : FirstRefused settings s reason := by
  obtain ⟨before, text, after, hentries, hparse, hbefore⟩ := h
  have hascending := settings.ascending
  rw [hentries, List.pairwise_append, List.pairwise_cons] at hascending
  obtain ⟨-, ⟨hafter, -⟩, -⟩ := hascending
  constructor
  · refine ⟨text, ?_, hparse⟩
    rw [← settings.mem_entries_iff, hentries]
    simp
  · intro entry hmem hlt
    rw [Utf8.encode_lt_iff] at hlt
    rw [hentries, List.mem_append, List.mem_cons] at hmem
    rcases hmem with hmem | rfl | hmem
    · exact hbefore entry hmem
    · exact absurd hlt (String.lt_irrefl _)
    · exact absurd (String.lt_trans hlt (hafter entry hmem)) (String.lt_irrefl _)

theorem configure_cases (c : Config) (settings : StringMap String) :
    ((∀ entry ∈ settings.entries, Accepted entry) ∧
        ∃ next, (c.configure settings).value = .ok next) ∨
      ∃ (s : Setting) (reason : Reason), FirstRefused settings s reason ∧
        (c.configure settings).value = .error (.invalid s.key reason) := by
  rcases c.applyEntries_cases settings.entries with hok | ⟨s, reason, hstop, herror⟩
  · exact .inl hok
  · exact .inr ⟨s, reason, firstRefused_of_stopsAt hstop, herror⟩

theorem FirstRefused.not_accepted {settings : StringMap String} {s : Setting} {reason : Reason}
    (h : FirstRefused settings s reason) : ¬ ∀ entry ∈ settings.entries, Accepted entry := by
  intro hall
  obtain ⟨text, hget, hparse⟩ := h.refused
  exact not_accepted_of_error hparse (hall _ ((settings.mem_entries_iff _ _).2 hget))

theorem configure_eq_ok_iff (c : Config) (settings : StringMap String) :
    (∃ next, (c.configure settings).value = .ok next) ↔
      ∀ entry ∈ settings.entries, Accepted entry := by
  rcases c.configure_cases settings with ⟨hall, hok⟩ | ⟨s, reason, hfirst, herror⟩
  · exact iff_of_true hok hall
  · refine iff_of_false ?_ hfirst.not_accepted
    rintro ⟨next, hnext⟩
    rw [herror] at hnext
    cases hnext

theorem forall_accepted_iff (settings : StringMap String) :
    (∀ entry ∈ settings.entries, Accepted entry) ↔
      ∀ (s : Setting) (text : String), settings.get? s.key = some text →
        ∃ v, s.parse text = .ok v := by
  constructor
  · intro hall s text hget
    exact hall _ ((settings.mem_entries_iff _ _).2 hget) s rfl
  · rintro htexts ⟨k, text⟩ hmem s rfl
    exact htexts s text ((settings.mem_entries_iff _ _).1 hmem)

/-- A config that took all texts holds what they say, and elsewhere what it held. -/
theorem get_of_configure {c next : Config} {settings : StringMap String}
    (h : (c.configure settings).value = .ok next) :
    (∀ (s : Setting) (text : String), settings.get? s.key = some text →
        s.parse text = .ok (next.get s)) ∧
      ∀ s : Setting, settings.get? s.key = none → next.get s = c.get s := by
  have hall := (c.configure_eq_ok_iff settings).1 ⟨next, h⟩
  obtain ⟨next', hvalue, hset, hkeep⟩ :=
    exists_configure_eq_ok ((forall_accepted_iff settings).1 hall) c
  rw [h] at hvalue
  obtain rfl := Except.ok.inj hvalue
  exact ⟨hset, hkeep⟩

/-- The first refused text depends on the texts under known keys alone. -/
theorem FirstRefused.unique {settings settings' : StringMap String} {s s' : Setting}
    {reason reason' : Reason} (h : FirstRefused settings s reason)
    (h' : FirstRefused settings' s' reason')
    (htexts : ∀ t : Setting, settings.get? t.key = settings'.get? t.key) :
    s = s' ∧ reason = reason' := by
  obtain ⟨text, hget, hparse⟩ := h.refused
  obtain ⟨text', hget', hparse'⟩ := h'.refused
  -- Neither key is the lesser one: its text would be accepted by the other map.
  have hge : ¬ s.key < s'.key := fun hlt =>
    not_accepted_of_error hparse (h'.least _ ((settings'.mem_entries_iff _ _).2
      ((htexts s).symm.trans hget)) (Utf8.encode_lt_iff.2 hlt))
  have hle : ¬ s'.key < s.key := fun hlt =>
    not_accepted_of_error hparse' (h.least _ ((settings.mem_entries_iff _ _).2
      ((htexts s').trans hget')) (Utf8.encode_lt_iff.2 hlt))
  obtain rfl := Setting.key_injective
    (String.le_antisymm (String.not_lt.1 hle) (String.not_lt.1 hge))
  rw [← htexts s, hget] at hget'
  obtain rfl := Option.some.inj hget'
  rw [hparse] at hparse'
  exact ⟨rfl, Except.error.inj hparse'⟩

/-- Texts that agree under the known keys, laid over configs that agree on the
settings without a text, have the same outcome. -/
theorem configure_congr {b c : Config} {settings settings' : StringMap String}
    (htexts : ∀ s : Setting, settings.get? s.key = settings'.get? s.key)
    (hbase : ∀ s : Setting, settings.get? s.key = none → b.get s = c.get s) :
    (b.configure settings).value = (c.configure settings').value := by
  have haccepted : (∀ entry ∈ settings.entries, Accepted entry) ↔
      ∀ entry ∈ settings'.entries, Accepted entry := by
    simp only [forall_accepted_iff, htexts]
  rcases b.configure_cases settings with ⟨hall, next, hnext⟩ | ⟨s, reason, hfirst, herror⟩
  · obtain ⟨next', hnext'⟩ := (c.configure_eq_ok_iff settings').2 (haccepted.1 hall)
    obtain ⟨hset, hkeep⟩ := get_of_configure hnext
    obtain ⟨hset', hkeep'⟩ := get_of_configure hnext'
    have heq : next = next' := by
      refine ext_get fun s => ?_
      cases hget : settings.get? s.key with
      | none => rw [hkeep s hget, hkeep' s ((htexts s).symm.trans hget), hbase s hget]
      | some text =>
        have hparse := hset s text hget
        rw [hset' s text ((htexts s).symm.trans hget)] at hparse
        exact (Except.ok.inj hparse).symm
    rw [hnext, hnext', heq]
  · rcases c.configure_cases settings' with ⟨hall, -⟩ | ⟨s', reason', hfirst', herror'⟩
    · exact absurd (haccepted.2 hall) hfirst.not_accepted
    · obtain ⟨rfl, rfl⟩ := hfirst.unique hfirst' htexts
      rw [herror, herror']

theorem configure_singleton_of_error {s : Setting} {text : String} {reason : Reason}
    (h : s.parse text = .error reason) (c : Config) :
    (c.configure (StringMap.ofList [(s.key, text)])).value = .error (.invalid s.key reason) := by
  have hentries : (StringMap.ofList [(s.key, text)]).entries = [(s.key, text)] := rfl
  rw [configure, hentries, applyEntries_cons_of_error h]

/-- On its own a level is refused without the key of a setting; a config reports
it under the key that the text came with. -/
theorem configure_level_of_error {text : String} {e : ConfigError}
    (h : CleanerLevel.ofText text = .error e) (c : Config) :
    ∃ reason, e = .invalid "closure cleaner level" reason ∧
      (c.configure (StringMap.ofList [(Setting.cleanerLevel.key, text)])).value =
        .error (.invalid Setting.cleanerLevel.key reason) := by
  delta CleanerLevel.ofText at h
  cases hparse : CleanerLevel.parse text with
  | ok level =>
    rw [hparse] at h
    cases h
  | error reason =>
    rw [hparse] at h
    have hlevel : Setting.cleanerLevel.parse text = .error reason := hparse
    exact ⟨reason, (Except.error.inj h).symm, configure_singleton_of_error hlevel c⟩

/-- Laying texts over a config succeeds exactly when every one for a known key is
accepted. Then each setting is as its text says, or as it was if it has none.
Otherwise the config stays in place as it was, and the error is that of the refused
text with the least key, under that key; so also for a level, whatever key its
reader reports. -/
theorem configure_all_or_nothing (c : Config) (settings : StringMap String) :
    ((∃ next, (c.configure settings).value = .ok next) ↔
        ∀ entry ∈ settings.entries, Accepted entry) ∧
      (∀ next, (c.configure settings).value = .ok next →
        (c.reconfigure settings).value = (next, .ok ()) ∧
        (∀ (s : Setting) (text : String), settings.get? s.key = some text →
          s.parse text = .ok (next.get s)) ∧
        ∀ s : Setting, settings.get? s.key = none → next.get s = c.get s) ∧
      (∀ e, (c.configure settings).value = .error e →
        (c.reconfigure settings).value = (c, .error e) ∧
        ∃ s reason, e = .invalid s.key reason ∧ FirstRefused settings s reason) ∧
      ∀ text e, CleanerLevel.ofText text = .error e →
        ∃ reason, e = .invalid "closure cleaner level" reason ∧
          (c.configure (StringMap.ofList [(Setting.cleanerLevel.key, text)])).value =
            .error (.invalid Setting.cleanerLevel.key reason) := by
  refine ⟨c.configure_eq_ok_iff settings, ?_, ?_, fun text e h => configure_level_of_error h c⟩
  · intro next h
    exact ⟨value_reconfigure_of_ok h, get_of_configure h⟩
  · intro e h
    refine ⟨value_reconfigure_of_error h, ?_⟩
    rcases c.configure_cases settings with ⟨-, next, hok⟩ | ⟨s, reason, hfirst, herror⟩
    · rw [h] at hok
      cases hok
    · rw [h] at herror
      exact ⟨s, reason, Except.error.inj herror, hfirst⟩

end Config

end JobConfig
