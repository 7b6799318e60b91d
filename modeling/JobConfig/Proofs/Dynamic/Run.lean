import JobConfig.Proofs.Dynamic.Call

/-!
Runs of calls on objects. Each object holds the config that results from the mutators
which were asked of it with success; what raises changes nothing, and no call reaches
another object. A call does one of three things (`Effect`), and a run follows from
its calls one after the other.
-/

namespace JobConfig.Dynamic

namespace Objects

variable {V ε : Type} [Host V ε]

/-! ### One call -/

def perform (objects : Objects) (call : Call V) : Objects × Except ε Reply :=
  objects.call call.object call.method call.arguments call.keywords

/-- What a call can do: the objects that it leaves, and what it answers. -/
inductive Effect (objects : Objects) (call : Call V) : Objects → Except ε Reply → Prop where
  | raised (e : ε) : Effect objects call objects (.error e)
  | answered (reply : Reply) :
      ¬ Mutator.IsName call.method → Effect objects call objects (.ok reply)
  | changed {c : Config} {m : Mutator} :
      objects.get? call.object = some c → call.Asks m →
      Effect objects call (objects.insert call.object (m.apply c)) (.ok .self)

variable {objects next : Objects} {call : Call V} {c : Config} {m : Mutator}

theorem perform_of_outcome {c' : Config} {reply : Except ε Reply}
    (hc : objects.get? call.object = some c) (h : call.step.outcome c = (reply, c')) :
    objects.perform call = (objects.insert call.object c', reply) := by
  rw [Call.step] at h
  simp only [perform, Objects.call, hc, h]

theorem perform_of_asks (hc : objects.get? call.object = some c) (h : call.Asks m) :
    objects.perform call = (objects.insert call.object (m.apply c), .ok .self) :=
  perform_of_outcome hc (Call.outcome_of_asks h c)

theorem perform_effect (objects : Objects) (call : Call V) :
    Effect objects call (objects.perform call).1 (objects.perform call).2 := by
  cases hc : objects.get? call.object with
  | none =>
    simp only [perform, Objects.call, hc]
    exact .raised _
  | some c =>
    rcases call.outcome_cases c with
      ⟨e, houtcome⟩ | ⟨m, hasks, houtcome⟩ | ⟨hname, reply, houtcome⟩
    · rw [perform_of_outcome hc houtcome, StringMap.insert_of_get? hc]
      exact .raised e
    · rw [perform_of_outcome hc houtcome]
      exact .changed hc hasks
    · rw [perform_of_outcome hc houtcome, StringMap.insert_of_get? hc]
      exact .answered reply hname

theorem effect_of_reply {reply : Except ε Reply} (h : (objects.perform call).2 = reply) :
    Effect objects call (objects.perform call).1 reply :=
  h ▸ perform_effect objects call

namespace Effect

variable {reply : Except ε Reply}

theorem eq_of_error {e : ε} (h : Effect objects call next (.error e)) : next = objects := by
  cases h
  rfl

theorem get?_of_ne {o : String} (h : Effect objects call next reply) (ho : o ≠ call.object) :
    next.get? o = objects.get? o := by
  cases h with
  | raised | answered => rfl
  | changed => rw [StringMap.get?_insert, if_neg ho]

theorem eq_of_not_isName (h : Effect objects call next reply)
    (hname : ¬ Mutator.IsName call.method) : next = objects := by
  cases h with
  | raised | answered => rfl
  | changed _ hasks => exact absurd hasks.isName hname

theorem exists_asks {reply : Reply} (h : Effect objects call next (.ok reply))
    (hname : Mutator.IsName call.method) : reply = .self ∧ ∃ m, call.Asks m := by
  cases h with
  | answered _ hother => exact absurd hname hother
  | changed _ hasks => exact ⟨rfl, _, hasks⟩

theorem get?_of_asks {reply : Reply} (h : Effect objects call next (.ok reply))
    (hc : objects.get? call.object = some c) (hasks : call.Asks m) :
    next.get? call.object = some (m.apply c) := by
  cases h with
  | answered _ hname => exact absurd hasks.isName hname
  | changed hc' hasks' =>
    obtain rfl := Option.some.inj (hc.symm.trans hc')
    rw [StringMap.get?_insert, if_pos rfl, hasks.apply_eq hasks']

end Effect

theorem perform_eq_ok_iff (hc : objects.get? call.object = some c)
    (hname : Mutator.IsName call.method) (reply : Reply) :
    (objects.perform call).2 = .ok reply ↔ reply = .self ∧ ∃ m, call.Asks m := by
  constructor
  · intro h
    exact (effect_of_reply h).exists_asks hname
  · rintro ⟨rfl, m, hasks⟩
    rw [perform_of_asks hc hasks]

theorem call_toSettings {o : String} (hc : objects.get? o = some c) :
    (objects.call o "to_settings" ([] : List V) []).2 = .ok (.table c.toSettings) := by
  simp only [Objects.call, hc, outcome_toSettings]

/-! ### Calls in sequence -/

def run (objects : Objects) : List (Call V) → Objects × List (Call V × Except ε Reply)
  | [] => (objects, [])
  | call :: calls =>
    let rest := run (objects.perform call).1 calls
    (rest.1, (call, (objects.perform call).2) :: rest.2)

/-- The mutators that were asked of an object with success, in their order. -/
inductive Succeeded (o : String) : List (Call V × Except ε Reply) → List Mutator → Prop where
  | nil : Succeeded o [] []
  | elsewhere {call : Call V} {reply : Except ε Reply} {rest : List (Call V × Except ε Reply)}
      {ms : List Mutator} :
      o ≠ call.object → Succeeded o rest ms → Succeeded o ((call, reply) :: rest) ms
  | raised {call : Call V} {e : ε} {rest : List (Call V × Except ε Reply)} {ms : List Mutator} :
      Succeeded o rest ms → Succeeded o ((call, .error e) :: rest) ms
  | answered {call : Call V} {reply : Reply} {rest : List (Call V × Except ε Reply)}
      {ms : List Mutator} :
      ¬ Mutator.IsName call.method →
      Succeeded o rest ms → Succeeded o ((call, .ok reply) :: rest) ms
  | changed {call : Call V} {reply : Reply} {rest : List (Call V × Except ε Reply)}
      {m : Mutator} {ms : List Mutator} :
      o = call.object → call.Asks m →
      Succeeded o rest ms → Succeeded o ((call, .ok reply) :: rest) (m :: ms)

theorem Effect.exists_succeeded {o : String} {reply : Except ε Reply}
    {rest : List (Call V × Except ε Reply)} {ms : List Mutator}
    (h : Effect objects call next reply) (hrest : Succeeded o rest ms) :
    ∃ ms, Succeeded o ((call, reply) :: rest) ms := by
  by_cases ho : o = call.object
  · cases h with
    | raised e => exact ⟨ms, .raised hrest⟩
    | answered reply hname => exact ⟨ms, .answered hname hrest⟩
    | changed _ hasks => exact ⟨_, .changed ho hasks hrest⟩
  · exact ⟨ms, .elsewhere ho hrest⟩

theorem exists_succeeded (o : String) (objects : Objects) (calls : List (Call V)) :
    ∃ ms, Succeeded o (objects.run calls).2 ms := by
  induction calls generalizing objects with
  | nil => exact ⟨[], .nil⟩
  | cons call calls ih =>
    obtain ⟨ms, hms⟩ := ih (objects.perform call).1
    exact (perform_effect objects call).exists_succeeded hms

theorem get?_run {o : String} {calls : List (Call V)} {ms : List Mutator}
    (hc : objects.get? o = some c) (h : Succeeded o (objects.run calls).2 ms) :
    (objects.run calls).1.get? o = some (Mutator.applyAll c ms) := by
  induction calls generalizing objects c ms with
  | nil =>
    cases h
    exact hc
  | cons call calls ih =>
    have heffect := perform_effect objects call
    simp only [run] at h ⊢
    -- The history is taken apart by the reply, so the reply must be a variable.
    generalize objects.perform call = outcome at *
    obtain ⟨next, reply⟩ := outcome
    cases h with
    | elsewhere ho hrest => exact ih ((heffect.get?_of_ne ho).trans hc) hrest
    | raised hrest =>
      obtain rfl := heffect.eq_of_error
      exact ih hc hrest
    | answered hname hrest =>
      obtain rfl := heffect.eq_of_not_isName hname
      exact ih hc hrest
    | changed ho hasks hrest =>
      subst ho
      rw [Mutator.applyAll_cons]
      exact ih (heffect.get?_of_asks hc hasks) hrest

/-! ### Job parameters -/

section

variable {v : V}

theorem asks_setJobParameters_iff (hmethod : call.method = "set_global_job_parameters")
    (hbind : bindArguments ["global_job_parameters"] call.arguments call.keywords = .ok [v]) :
    call.Asks m ↔ ∃ values, m = .setJobParameters values ∧ Means v (.table values) := by
  constructor
  · rintro ⟨data, values, hcall, hvalues, hmeans⟩
    rw [hmethod] at hcall
    obtain ⟨table, rfl, rfl⟩ : ∃ table, m = .setJobParameters table ∧
        data = [("global_job_parameters", .table table)] := by
      cases m <;> simp_all [Mutator.call?]
    obtain rfl := Except.ok.inj (hbind.symm.trans hvalues)
    cases hmeans with
    | cons hmeans _ => exact ⟨table, rfl, hmeans⟩
  · rintro ⟨values, rfl, hmeans⟩
    refine ⟨[("global_job_parameters", .table values)], [v], ?_, hbind, .cons hmeans .nil⟩
    rw [hmethod]
    rfl

theorem parametersOf_strings (pairs : List (String × String)) :
    parametersOf (pairs.map fun e => (e.1, .string e.2)) = StringMap.ofList pairs := by
  rw [parametersOf, List.map_map]
  exact congrArg StringMap.ofList pairs.map_id

/-- Job parameters are taken from a dictionary of which all entries have texts, and
from nothing else. They are then these pairs of texts; of several pairs with one key
the last decides. -/
theorem perform_setJobParameters (hc : objects.get? call.object = some c)
    (hmethod : call.method = "set_global_job_parameters")
    (hbind : bindArguments ["global_job_parameters"] call.arguments call.keywords = .ok [v]) :
    (∀ reply, (objects.perform call).2 = .ok reply → ∃ pairs, KeptAs v pairs) ∧
      ∀ pairs, KeptAs v pairs → ∃ parameters,
        objects.perform call =
          (objects.insert call.object { c with jobParameters := parameters }, .ok .self) ∧
        ∀ k t, parameters.get? k = some t ↔
          ∃ before after, pairs = before ++ (k, t) :: after ∧ ∀ e ∈ after, e.1 ≠ k := by
  constructor
  · intro reply h
    have hname : Mutator.IsName call.method := ⟨.setJobParameters [], _, by rw [hmethod]; rfl⟩
    obtain ⟨_, m, hasks⟩ := (effect_of_reply h).exists_asks hname
    obtain ⟨_, _, pairs, hpairs, _⟩ := (asks_setJobParameters_iff hmethod hbind).1 hasks
    exact ⟨pairs, hpairs⟩
  · intro pairs hpairs
    have hasks := (asks_setJobParameters_iff hmethod hbind).2 ⟨_, rfl, pairs, hpairs, rfl⟩
    refine ⟨StringMap.ofList pairs, ?_, StringMap.get?_ofList_eq_some_iff_last pairs⟩
    rw [perform_of_asks hc hasks, ← parametersOf_strings]
    rfl

end

example : (callMethod "set_global_job_parameters"
    [Value.dict [(.text [107], .integer 1), (.integer 2, .text [0xD800])]] []).outcome .default =
      (.error .notUnicode, .default) := by
  rfl

/-- Objects refine configs: whatever is called, each object holds the config that is
made by the mutators which were asked of it with success, and shows its settings. What
raises changes no object, and no call changes another object than its own. A call by
the name of a mutator succeeds when its arguments stand for what is passed to one, and
only then; a dictionary of job parameters is taken as a whole or not at all. -/
theorem run_refines_configs (objects : Objects) (calls : List (Call V)) :
    (∀ o c, objects.get? o = some c →
      (∃ ms, Succeeded o (objects.run calls).2 ms) ∧
      ∀ ms, Succeeded o (objects.run calls).2 ms →
        (objects.run calls).1.get? o = some (Mutator.applyAll c ms) ∧
        ((objects.run calls).1.call o "to_settings" ([] : List V) []).2 =
          .ok (.table (Mutator.applyAll c ms).toSettings)) ∧
    ∀ call : Call V,
      (∀ e, (objects.perform call).2 = .error e → (objects.perform call).1 = objects) ∧
      (∀ o, o ≠ call.object → (objects.perform call).1.get? o = objects.get? o) ∧
      ∀ c, objects.get? call.object = some c →
        (Mutator.IsName call.method → ∀ reply,
          (objects.perform call).2 = .ok reply ↔ reply = .self ∧ ∃ m, call.Asks m) ∧
        ∀ v, call.method = "set_global_job_parameters" →
          bindArguments ["global_job_parameters"] call.arguments call.keywords = .ok [v] →
            (∀ reply, (objects.perform call).2 = .ok reply → ∃ pairs, KeptAs v pairs) ∧
            ∀ pairs, KeptAs v pairs → ∃ parameters,
              objects.perform call =
                (objects.insert call.object { c with jobParameters := parameters }, .ok .self) ∧
              ∀ k t, parameters.get? k = some t ↔
                ∃ before after, pairs = before ++ (k, t) :: after ∧ ∀ e ∈ after, e.1 ≠ k := by
  constructor
  · intro o c hc
    refine ⟨exists_succeeded o objects calls, fun ms hms => ?_⟩
    have hrun := get?_run hc hms
    exact ⟨hrun, call_toSettings hrun⟩
  · intro call
    refine ⟨fun e h => (effect_of_reply h).eq_of_error,
      fun o ho => (perform_effect objects call).get?_of_ne ho, fun c hc => ?_⟩
    exact ⟨perform_eq_ok_iff hc, fun v => perform_setJobParameters hc⟩

end Objects

end JobConfig.Dynamic
