import JobConfig.Proofs.Overlay.Log
import JobConfig.Proofs.Sync.Divergence

/-!
The log as a record of the calls to a store.

To see the calls, the store is watched: each setting that it is asked to take is
noted together with its answer, and nothing else changes. The settings that an
update logs as forwarded are then the calls that it makes, so the log alone
tells what the store accepted in a whole run and what it holds afterwards.
-/

namespace JobConfig

/-! ### Watching a store -/

/-- A call that asks a store to take a setting, and the answer. -/
structure Offer where
  key : String
  value : String
  answer : Except String Unit

namespace Offer

def setting (o : Offer) : String × String :=
  (o.key, o.value)

def event (o : Offer) : Event :=
  .forwarding o.key o.value

theorem line_event (o : Offer) :
    o.event.line = (.debug, "Forwarding execution config setting " ++ o.key ++ "=" ++ o.value) :=
  rfl

def taken (offers : List Offer) : List (String × String) :=
  (offers.filter fun o => o.answer.isOk).map setting

@[simp] theorem taken_append (xs ys : List Offer) : taken (xs ++ ys) = taken xs ++ taken ys := by
  simp [taken]

@[simp] theorem taken_singleton_ok (key value : String) :
    taken [⟨key, value, .ok ()⟩] = [(key, value)] :=
  rfl

@[simp] theorem taken_singleton_error (key value cause : String) :
    taken [⟨key, value, .error cause⟩] = [] :=
  rfl

theorem taken_of_all {offers : List Offer} (h : ∀ o ∈ offers, o.answer = .ok ()) :
    taken offers = offers.map setting := by
  have hfilter : offers.filter (fun o => o.answer.isOk) = offers := by
    rw [List.filter_eq_self]
    intro o ho
    rw [h o ho]
    rfl
  rw [taken, hfilter]

end Offer

/-- A store with the calls made to it, the first one first. -/
structure Watched (σ : Type) where
  store : σ
  offers : List Offer

instance {σ : Type} [SettingsStore σ] : SettingsStore (Watched σ) where
  apply w key value :=
    let (store, answer) := SettingsStore.apply w.store key value
    (⟨store, w.offers ++ [⟨key, value, answer⟩]⟩, answer)
  read w key := SettingsStore.read w.store key

theorem apply_watched {σ : Type} [SettingsStore σ] {w : Watched σ} {store' : σ}
    {key value : String} {answer : Except String Unit}
    (h : SettingsStore.apply w.store key value = (store', answer)) :
    SettingsStore.apply w key value = (⟨store', w.offers ++ [⟨key, value, answer⟩]⟩, answer) := by
  simp only [SettingsStore.apply, h]

/-- The answers to the calls of a push, and what comes of it: all are accepted and
it succeeds, or it fails with the cause of the refusal that ended it. -/
inductive Answered : List Offer → Except ConfigError Unit → Prop where
  | accepted {offers : List Offer} (h : ∀ o ∈ offers, o.answer = .ok ()) :
      Answered offers (.ok ())
  | refused {offers : List Offer} (h : ∀ o ∈ offers, o.answer = .ok ()) (key value cause : String) :
      Answered (offers ++ [⟨key, value, .error cause⟩]) (.error (.refused cause))

theorem Answered.nil : Answered [] (.ok ()) :=
  .accepted (List.forall_mem_nil _)

theorem Answered.singleton (key value cause : String) :
    Answered [⟨key, value, .error cause⟩] (.error (.refused cause)) :=
  @Answered.refused [] (List.forall_mem_nil _) key value cause

theorem Answered.cons {key value : String} {offers : List Offer} {result : Except ConfigError Unit}
    (h : Answered offers result) : Answered (⟨key, value, .ok ()⟩ :: offers) result := by
  cases h with
  | accepted h => exact .accepted (List.forall_mem_cons.2 ⟨rfl, h⟩)
  | refused h => exact .refused (List.forall_mem_cons.2 ⟨rfl, h⟩) _ _ _

namespace Push

variable {σ : Type}

def unwatched (p : Push (Watched σ)) : Push σ :=
  ⟨p.store.store, p.attempted, p.refusal⟩

/-- A push adds `offers` to the calls to a store, and these are what it reports. -/
structure Makes (p : Push (Watched σ)) (before offers : List Offer) : Prop where
  offers_eq : p.store.offers = before ++ offers
  attempted_eq : p.attempted = offers.map Offer.setting
  answered : Answered offers p.result

end Push

namespace Synced

variable {σ : Type} [SettingsStore σ]

/-- A push goes the same way watched or not. -/
theorem exists_push_watched (w : Watched σ) (l : List (String × String)) :
    ∃ p offers, push w l = p ∧ push w.store l = p.unwatched ∧ p.Makes w.offers offers := by
  induction l generalizing w with
  | nil => exact ⟨_, [], rfl, rfl, (List.append_nil _).symm, rfl, .nil⟩
  | cons e rest ih =>
    obtain ⟨key, value⟩ := e
    rcases happly : SettingsStore.apply w.store key value with ⟨store', cause | ⟨⟨⟩⟩⟩
    · rw [push_cons_of_error (apply_watched happly), push_cons_of_error happly]
      exact ⟨_, [⟨key, value, .error cause⟩], rfl, rfl, rfl, rfl, .singleton key value cause⟩
    · obtain ⟨p, offers, hwatched, hplain, hmakes⟩ :=
        ih ⟨store', w.offers ++ [⟨key, value, .ok ()⟩]⟩
      rw [push_cons_of_ok (apply_watched happly), push_cons_of_ok happly, hwatched, hplain]
      refine ⟨_, ⟨key, value, .ok ()⟩ :: offers, rfl, rfl, ?_, ?_, hmakes.answered.cons⟩
      · simpa using hmakes.offers_eq
      · simp [hmakes.attempted_eq, Offer.setting]

/-- A push that comes to a good end makes a call for every setting. -/
theorem map_setting_of_result_eq_ok {w : Watched σ} {l : List (String × String)}
    {p : Push (Watched σ)} {before offers : List Offer} (hpush : push w l = p)
    (hmakes : p.Makes before offers) (hok : p.result = .ok ()) : offers.map Offer.setting = l := by
  cases hrefusal : p.refusal with
  | some cause =>
    rw [Push.result, hrefusal] at hok
    cases hok
  | none =>
    have hall := accepted_push_of_refusal_eq_none (hpush.symm ▸ hrefusal)
    rw [hpush, Push.accepted, hrefusal] at hall
    rw [← hmakes.attempted_eq]
    exact hall

/-! ### The log of an update -/

def forwarded (events : List Event) : List (String × String) :=
  events.filterMap fun
    | .forwarding key value => some (key, value)
    | _ => none

@[simp] theorem forwarded_append (xs ys : List Event) :
    forwarded (xs ++ ys) = forwarded xs ++ forwarded ys :=
  List.filterMap_append

@[simp] theorem forwarded_event (offers : List Offer) :
    forwarded (offers.map Offer.event) = offers.map Offer.setting := by
  rw [forwarded, List.filterMap_map, ← List.filterMap_eq_map]
  rfl

/-- Texts that are laid over a config are not forwarded. -/
theorem forwarded_configure (c : Config) (settings : StringMap String) :
    forwarded (c.configure settings).events = [] := by
  rw [forwarded, List.filterMap_eq_nil_iff]
  intro e he
  obtain ⟨entry, -, rfl⟩ := (Config.tellsTexts_configure c settings).exists_of_mem he
  by_cases hkey : entry.1 ∈ Setting.all.map Setting.key
  · rw [Config.entryEvent, if_pos hkey]
  · rw [Config.entryEvent, if_neg hkey]

def unwatched (s : Synced (Watched σ)) : Synced σ :=
  ⟨s.config, s.store.store⟩

@[simp] theorem config_unwatched {σ : Type} (s : Synced (Watched σ)) :
    s.unwatched.config = s.config :=
  rfl

/-- An update adds `offers` to the calls to a store. They are for the first of the
settings that its closure changed, or for all of them if it succeeds, and decide
what comes of it. It logs each of them, in order and behind whatever its closure
logs, and nothing else. -/
structure LogsCalls (s : Synced (Watched σ)) (f : Config → Traced Config)
    (offers : List Offer) : Prop where
  offers_eq : (s.update f).value.1.store.offers = s.store.offers ++ offers
  changed : offers.map Offer.setting <+: (Config.changes s.config (f s.config).value).entries
  complete : (s.update f).value.2 = .ok () →
    offers.map Offer.setting = (Config.changes s.config (f s.config).value).entries
  answered : Answered offers (s.update f).value.2
  events_eq : (s.update f).events = (f s.config).events ++ offers.map Offer.event

theorem exists_logsCalls (s : Synced (Watched σ)) (f : Config → Traced Config) :
    ∃ offers, LogsCalls s f offers := by
  obtain ⟨p, offers, hwatched, -, hmakes⟩ :=
    exists_push_watched s.store (Config.changes s.config (f s.config).value).entries
  have hupdate := update_eq hwatched
  refine ⟨offers, ?_, ?_, ?_, ?_, ?_⟩
  · rw [hupdate]
    exact hmakes.offers_eq
  · rw [← hmakes.attempted_eq, ← hwatched]
    exact attempted_prefix_offered _ _
  · rw [hupdate]
    exact map_setting_of_result_eq_ok hwatched hmakes
  · rw [hupdate]
    exact hmakes.answered
  · rw [hupdate, hmakes.attempted_eq, List.map_map]
    rfl

/-- Watching the store changes nothing about an update. -/
theorem update_unwatched (s : Synced (Watched σ)) (f : Config → Traced Config) :
    (s.unwatched.update f).value.1 = (s.update f).value.1.unwatched ∧
      (s.unwatched.update f).value.2 = (s.update f).value.2 ∧
      (s.unwatched.update f).events = (s.update f).events := by
  obtain ⟨p, -, hwatched, hplain, -⟩ :=
    exists_push_watched s.store (Config.changes s.config (f s.config).value).entries
  have hunwatched := update_eq (s := s.unwatched) hplain
  rw [hunwatched, update_eq hwatched]
  exact ⟨rfl, rfl, rfl⟩

/-- All that an update logs as forwarded are its calls, if its closure logs no
such thing. -/
theorem LogsCalls.forwarded_eq {s : Synced (Watched σ)} {f : Config → Traced Config}
    {offers : List Offer} (h : LogsCalls s f offers) (hf : forwarded (f s.config).events = []) :
    forwarded (s.update f).events = offers.map Offer.setting := by
  rw [h.events_eq, forwarded_append, hf, forwarded_event, List.nil_append]

/-! ### Runs of updates -/

/-- What an update logs behind the events of its closure, and what came of it. -/
structure UpdateLog where
  events : List Event
  result : Except ConfigError Unit

/-- The settings that the store accepted, as the log tells it: all those
forwarded, but for the last one if the update failed. -/
def UpdateLog.accepted (u : UpdateLog) : List (String × String) :=
  match u.result with
  | .ok () => forwarded u.events
  | .error _ => (forwarded u.events).dropLast

def log (s : Synced σ) (f : Config → Traced Config) : UpdateLog :=
  ⟨(s.update f).events.drop (f s.config).events.length, (s.update f).value.2⟩

def logs (s : Synced σ) : List (Config → Traced Config) → List UpdateLog
  | [] => []
  | f :: rest => s.log f :: (s.update f).value.1.logs rest

theorem accepted_of_answered {offers : List Offer} {result : Except ConfigError Unit}
    (h : Answered offers result) :
    UpdateLog.accepted ⟨offers.map Offer.event, result⟩ = Offer.taken offers := by
  simp only [UpdateLog.accepted, forwarded_event]
  cases h with
  | accepted hall => exact (Offer.taken_of_all hall).symm
  | refused hall key value cause =>
    rw [Offer.taken_append, Offer.taken_of_all hall, Offer.taken_singleton_error, List.append_nil,
      List.map_append]
    exact List.dropLast_concat

theorem LogsCalls.accepted_log {s : Synced (Watched σ)} {f : Config → Traced Config}
    {offers : List Offer} (h : LogsCalls s f offers) :
    (s.log f).accepted = Offer.taken offers := by
  rw [log, h.events_eq, List.drop_left]
  exact accepted_of_answered h.answered

theorem log_unwatched (s : Synced (Watched σ)) (f : Config → Traced Config) :
    s.unwatched.log f = s.log f := by
  obtain ⟨-, hresult, hevents⟩ := update_unwatched s f
  rw [log, log, hresult, hevents, config_unwatched]

/-- The log of a run tells what the store was seen to accept in it. -/
theorem updateAll_watched (s : Synced (Watched σ)) (fs : List (Config → Traced Config)) :
    (s.updateAll fs).1.unwatched = (s.unwatched.updateAll fs).1 ∧
      Offer.taken (s.updateAll fs).1.store.offers =
        Offer.taken s.store.offers ++ (s.unwatched.logs fs).flatMap UpdateLog.accepted := by
  induction fs generalizing s with
  | nil => exact ⟨rfl, (List.append_nil _).symm⟩
  | cons f fs ih =>
    obtain ⟨offers, hcalls⟩ := exists_logsCalls s f
    have hnext := (update_unwatched s f).1
    obtain ⟨hstate, htaken⟩ := ih (s.update f).value.1
    constructor
    · simp only [updateAll]
      rw [hnext]
      exact hstate
    · simp only [updateAll, logs, List.flatMap_cons]
      rw [hnext, log_unwatched, htaken, hcalls.accepted_log, hcalls.offers_eq, Offer.taken_append,
        List.append_assoc]

/-! ### What the store holds -/

/-- A watched store holds what it was seen to accept, and elsewhere what the store
held at the start. -/
def Accounted (held : σ → String → Option String) (start : σ) (w : Watched σ) : Prop :=
  ∀ k, held w.store k = ((StringMap.ofList (Offer.taken w.offers)).get? k).or (held start k)

namespace Accounted

variable {held : σ → String → Option String} {start : σ} {w : Watched σ}

theorem apply (hheld : Holds held) (h : Accounted held start w) (key value : String) :
    Accounted held start (SettingsStore.apply w key value).1 := by
  intro k
  rcases happly : SettingsStore.apply w.store key value with ⟨store', cause | ⟨⟨⟩⟩⟩
  · rw [apply_watched happly]
    simpa using (hheld.of_error happly k).trans (h k)
  · rw [apply_watched happly]
    simp only [Offer.taken_append, Offer.taken_singleton_ok, StringMap.ofList_concat,
      StringMap.get?_insert]
    rw [hheld.of_ok happly k]
    split
    · rfl
    · exact h k

/-- A push keeps the account, wherever it is refused. -/
theorem push (hheld : Holds held) (h : Accounted held start w) (l : List (String × String)) :
    Accounted held start (push w l).store := by
  induction l generalizing w with
  | nil => exact h
  | cons e rest ih =>
    obtain ⟨key, value⟩ := e
    have hnext := h.apply hheld key value
    rcases happly : SettingsStore.apply w key value with ⟨w', cause | ⟨⟨⟩⟩⟩
    · rw [happly] at hnext
      rwa [push_cons_of_error happly]
    · rw [happly] at hnext
      rw [push_cons_of_ok happly]
      exact ih hnext

theorem updateAll (hheld : Holds held) {s : Synced (Watched σ)}
    (h : Accounted held start s.store) (fs : List (Config → Traced Config)) :
    Accounted held start (s.updateAll fs).1.store := by
  induction fs generalizing s with
  | nil => exact h
  | cons f fs ih =>
    have hpush := h.push hheld (Config.changes s.config (f s.config).value).entries
    rw [← store_update rfl] at hpush
    exact ih hpush

end Accounted

/-- Bringing a config and a watched store together: the calls are the settings of
the config. -/
theorem exists_connect_watched {config : Config} {store : σ} {s : Synced σ}
    (h : (connect config store).value = .ok s) :
    ∃ w : Synced (Watched σ), (connect config (Watched.mk store [])).value = .ok w ∧
      w.unwatched = s ∧ Offer.taken w.store.offers = config.toSettings.entries ∧
      ∀ held, Holds held → Accounted held store w.store := by
  obtain ⟨p, offers, hwatched, hplain, hmakes⟩ :=
    exists_push_watched (Watched.mk store []) config.toSettings.entries
  cases hrefusal : p.refusal with
  | some cause =>
    rw [value_connect_of_refused hplain hrefusal] at h
    cases h
  | none =>
    rw [value_connect_of_accepted hplain hrefusal] at h
    obtain rfl := Except.ok.inj h
    refine ⟨⟨config, p.store⟩, value_connect_of_accepted hwatched hrefusal, rfl, ?_, ?_⟩
    · have hok : p.result = .ok () := by rw [Push.result, hrefusal]
      have hsettings := map_setting_of_result_eq_ok hwatched hmakes hok
      have hanswered := hmakes.answered
      rw [hok] at hanswered
      cases hanswered with
      | accepted hall =>
        dsimp only
        rw [hmakes.offers_eq, List.nil_append, Offer.taken_of_all hall, hsettings]
    · intro held hheld
      have hstart : Accounted held store (Watched.mk store []) := fun k => rfl
      have hpush := hstart.push hheld config.toSettings.entries
      rwa [hwatched] at hpush

/-- What the log of a config kept in step tells of the settings accepted by the
store: the opening ones, and those of every update. -/
def told (config : Config) (log : List UpdateLog) : List (String × String) :=
  config.toSettings.entries ++ log.flatMap UpdateLog.accepted

/-- The log of a run of updates accounts for the store: what it tells is what the
store was seen to accept, call by call, and if a store can tell what it holds,
this is what it holds now, over what it held at the start. -/
structure AccountsFor (config : Config) (store : σ) (s : Synced σ) (w : Synced (Watched σ))
    (fs : List (Config → Traced Config)) : Prop where
  unwatched_eq : (w.updateAll fs).1.unwatched = (s.updateAll fs).1
  taken_eq : Offer.taken (w.updateAll fs).1.store.offers = told config (s.logs fs)
  held_eq : ∀ held, Holds held → ∀ k, held (s.updateAll fs).1.store k =
    ((StringMap.ofList (told config (s.logs fs))).get? k).or (held store k)

/-- The log tells what happened. Of texts laid over a config it tells those in
front of the first one refused, one by one in the order of the keys. Of an update
it tells, behind what its closure logs, each call to the store in order; the last
one is the one refused if it failed. So the opening settings and the logged ones,
but for the last of every update that failed, are those that the store accepted in
the run; here the store is any, and refuses what and when it likes. -/
theorem log_tells_calls :
    (∀ (c : Config) (settings : StringMap String),
        Config.TellsTexts settings (c.configure settings) ∧
        settings.entries.Pairwise (fun a b => Utf8.encode a.1 < Utf8.encode b.1) ∧
        forwarded (c.configure settings).events = []) ∧
      (∀ entry, (Config.entryEvent entry).line = Config.entryLine entry) ∧
      (∀ o : Offer, o.event.line =
        (.debug, "Forwarding execution config setting " ++ o.key ++ "=" ++ o.value)) ∧
      (∀ (s : Synced (Watched σ)) (f : Config → Traced Config),
        ((s.unwatched.update f).value.1 = (s.update f).value.1.unwatched ∧
          (s.unwatched.update f).value.2 = (s.update f).value.2 ∧
          (s.unwatched.update f).events = (s.update f).events) ∧
        ∃ offers, LogsCalls s f offers ∧
          (forwarded (f s.config).events = [] →
            forwarded (s.update f).events = offers.map Offer.setting)) ∧
      ∀ (config : Config) (store : σ) (s : Synced σ), (connect config store).value = .ok s →
        ∃ w, (connect config (Watched.mk store [])).value = .ok w ∧
          ∀ fs, AccountsFor config store s w fs := by
  refine ⟨fun c settings => ⟨Config.tellsTexts_configure c settings,
      Config.pairwise_encode_lt settings, forwarded_configure c settings⟩,
    Config.line_entryEvent, Offer.line_event, fun s f => ?_, fun config store s hopen => ?_⟩
  · obtain ⟨offers, hcalls⟩ := exists_logsCalls s f
    exact ⟨update_unwatched s f, offers, hcalls, hcalls.forwarded_eq⟩
  · obtain ⟨w, hw, rfl, hopening, haccounted⟩ := exists_connect_watched hopen
    refine ⟨w, hw, fun fs => ?_⟩
    obtain ⟨hstate, htaken⟩ := updateAll_watched w fs
    rw [hopening] at htaken
    refine ⟨hstate, htaken, fun held hheld k => ?_⟩
    have hfinal := (haccounted held hheld).updateAll hheld fs k
    rw [htaken] at hfinal
    rw [← hstate]
    exact hfinal

/-- A change that lays texts over a config, whatever comes of it. -/
def laying (settings : StringMap String) (c : Config) : Traced Config :=
  (c.reconfigure settings).map Prod.fst

def retuning : StringMap String :=
  StringMap.ofList [("pipeline.unheard-of", "1"), ("pipeline.object-reuse", "true"),
    ("parallelism.default", "4")]

/-- A store with room for one setting more than the opening ones refuses the second
one of `retuning`. -/
theorem log_tells_calls_nearlyFull :
    ∃ (s : Synced (Gated MemoryStore)) (w : Synced (Watched (Gated MemoryStore))),
      (connect default nearlyFull).value = .ok s ∧
      (∀ fs, AccountsFor default nearlyFull s w fs) ∧
      (∃ offers, LogsCalls w (laying retuning) offers ∧
        forwarded (w.update (laying retuning)).events = offers.map Offer.setting) ∧
      (s.update (laying retuning)).events =
        [.applied "parallelism.default" "4", .applied "pipeline.object-reuse" "true",
          .ignored "pipeline.unheard-of", .forwarding "parallelism.default" "4",
          .forwarding "pipeline.object-reuse" "true"] ∧
      (s.logs [laying retuning]).flatMap UpdateLog.accepted = [("parallelism.default", "4")] := by
  have hopen := value_connect_of_none push_nearlyFull
  obtain ⟨-, -, -, hupdates, hruns⟩ := @log_tells_calls (Gated MemoryStore) _
  obtain ⟨w, -, haccounts⟩ := hruns default nearlyFull _ hopen
  obtain ⟨-, offers, hcalls, hforwarded⟩ := hupdates w (laying retuning)
  refine ⟨_, w, hopen, haccounts,
    ⟨offers, hcalls, hforwarded (forwarded_configure w.config retuning)⟩, ?_⟩
  decide +kernel

end Synced

end JobConfig
