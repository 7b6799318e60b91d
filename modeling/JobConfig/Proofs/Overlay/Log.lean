import JobConfig.Proofs.Overlay.Outcome

/-!
What the log says of texts laid over a config. Every text in front of the first
one refused is told, in the order of the keys and once each, as applied or as
ignored; the refused one and those behind it are not.

One lemma says what an accepted text adds to the log, one that a refused text
adds nothing; the log of a list follows by induction on its accepted part.
-/

namespace JobConfig

def Event.line (e : Event) : LogLevel × String :=
  (e.level, e.message)

namespace Config

/-! ### One text -/

/-- What is told of a text that is accepted. -/
def entryEvent (entry : String × String) : Event :=
  if entry.1 ∈ Setting.all.map Setting.key then .applied entry.1 entry.2 else .ignored entry.1

def entryLine (entry : String × String) : LogLevel × String :=
  if entry.1 ∈ Setting.all.map Setting.key then
    (.debug, "Applied execution config setting " ++ entry.1 ++ "=" ++ entry.2)
  else (.warn, "Ignoring unknown execution config key '" ++ entry.1 ++ "'")

theorem line_entryEvent (entry : String × String) : (entryEvent entry).line = entryLine entry := by
  unfold entryEvent entryLine
  split
  · rfl
  · rfl

theorem entryEvent_of_setting (s : Setting) (text : String) :
    entryEvent (s.key, text) = .applied s.key text :=
  if_pos (List.mem_map_of_mem (Setting.mem_all s))

theorem entryEvent_of_unknown {key : String} (h : Setting.ofKey? key = none) (text : String) :
    entryEvent (key, text) = .ignored key := by
  refine if_neg fun hmem => ?_
  obtain ⟨s, -, rfl⟩ := List.mem_map.1 hmem
  rw [Setting.ofKey?_key] at h
  cases h

/-- A text that is accepted is told once. -/
theorem exists_applyEntry_eq {key text : String} (h : Accepted (key, text)) (c : Config) :
    ∃ c', c.applyEntry key text = ⟨.ok c', [entryEvent (key, text)]⟩ := by
  cases hkey : Setting.ofKey? key with
  | none =>
    refine ⟨c, ?_⟩
    rw [entryEvent_of_unknown hkey, applyEntry, hkey]
  | some s =>
    obtain rfl := Setting.key_of_ofKey? hkey
    obtain ⟨v, hparse⟩ := h s rfl
    refine ⟨c.set s v, ?_⟩
    rw [entryEvent_of_setting, applyEntry, hkey]
    simp only [hparse]

/-! ### Lists of texts -/

theorem exists_events_applyEntries_cons {entry : String × String} (h : Accepted entry) (c : Config)
    (rest : List (String × String)) : ∃ c' : Config,
      (c.applyEntries (entry :: rest)).events = entryEvent entry :: (c'.applyEntries rest).events := by
  obtain ⟨key, text⟩ := entry
  obtain ⟨c', happly⟩ := exists_applyEntry_eq h c
  refine ⟨c', ?_⟩
  rw [applyEntries, Traced.andThenOk, Traced.events_andThen, happly]
  rfl

/-- Nothing is told of a text that is refused, or of those behind it. -/
theorem events_applyEntries_cons_of_error {s : Setting} {text : String} {reason : Reason}
    (h : s.parse text = .error reason) (c : Config) (rest : List (String × String)) :
    (c.applyEntries ((s.key, text) :: rest)).events = [] := by
  simp [applyEntries, Traced.andThenOk, applyEntry, h]

/-- Texts that are accepted are told one after the other, before whatever follows. -/
theorem exists_events_applyEntries_append {before : List (String × String)}
    (h : ∀ entry ∈ before, Accepted entry) (c : Config) (rest : List (String × String)) :
    ∃ c' : Config, (c.applyEntries (before ++ rest)).events =
      before.map entryEvent ++ (c'.applyEntries rest).events := by
  induction before generalizing c with
  | nil => exact ⟨c, rfl⟩
  | cons entry before ih =>
    obtain ⟨hentry, hbefore⟩ := List.forall_mem_cons.1 h
    obtain ⟨next, hhead⟩ := exists_events_applyEntries_cons hentry c (before ++ rest)
    obtain ⟨c', htail⟩ := ih hbefore next
    exact ⟨c', by rw [List.cons_append, hhead, htail, List.map_cons, List.cons_append]⟩

theorem events_applyEntries_of_accepted {l : List (String × String)}
    (h : ∀ entry ∈ l, Accepted entry) (c : Config) :
    (c.applyEntries l).events = l.map entryEvent := by
  obtain ⟨c', hevents⟩ := exists_events_applyEntries_append h c []
  simpa [applyEntries] using hevents

/-! ### Maps of texts -/

/-- The events and the result of laying `settings` over a config agree: either all
texts are accepted and told, or one is refused and those under lesser keys are
told. -/
def TellsTexts (settings : StringMap String) (t : Traced (Except ConfigError Config)) : Prop :=
  ((∀ entry ∈ settings.entries, Accepted entry) ∧ (∃ next, t.value = .ok next) ∧
      t.events = settings.entries.map entryEvent) ∨
    ∃ s reason, FirstRefused settings s reason ∧ t.value = .error (.invalid s.key reason) ∧
      t.events = (settings.entries.filter fun e => e.1 < s.key).map entryEvent

theorem tellsTexts_configure (c : Config) (settings : StringMap String) :
    TellsTexts settings (c.configure settings) := by
  rcases c.applyEntries_cases settings.entries with ⟨hall, hok⟩ | ⟨s, reason, hstop, herror⟩
  · exact .inl ⟨hall, hok, events_applyEntries_of_accepted hall c⟩
  · have hfirst := firstRefused_of_stopsAt hstop
    obtain ⟨before, text, after, hsplit, hparse, hbefore⟩ := hstop
    obtain ⟨c', hevents⟩ :=
      exists_events_applyEntries_append hbefore c ((s.key, text) :: after)
    rw [← hsplit, events_applyEntries_cons_of_error hparse, List.append_nil] at hevents
    refine .inr ⟨s, reason, hfirst, herror, ?_⟩
    rw [StringMap.filter_lt_eq hsplit]
    exact hevents

example : (Config.default.configure (StringMap.ofList
    [("pipeline.object-reuse", "perhaps"), ("parallelism.default", "4"), ("zone", "1"),
      ("a zone", "2")])).events = [.ignored "a zone", .applied "parallelism.default" "4"] := by
  decide +kernel

/-- What is told is told of texts. -/
theorem TellsTexts.exists_of_mem {settings : StringMap String}
    {t : Traced (Except ConfigError Config)} (h : TellsTexts settings t) {e : Event}
    (he : e ∈ t.events) : ∃ entry ∈ settings.entries, e = entryEvent entry := by
  rcases h with ⟨-, -, hevents⟩ | ⟨s, reason, -, -, hevents⟩
  · rw [hevents] at he
    obtain ⟨entry, hmem, rfl⟩ := List.mem_map.1 he
    exact ⟨entry, hmem, rfl⟩
  · rw [hevents] at he
    obtain ⟨entry, hmem, rfl⟩ := List.mem_map.1 he
    exact ⟨entry, (List.mem_filter.1 hmem).1, rfl⟩

/-- The texts of a map, and so what is told of them, go up in the bytes of the keys. -/
theorem pairwise_encode_lt (settings : StringMap String) :
    settings.entries.Pairwise (fun a b => Utf8.encode a.1 < Utf8.encode b.1) :=
  settings.ascending.imp Utf8.encode_lt_iff.2

end Config

end JobConfig
