import ThingIfSdk.Requests.Runs

/-!
# What starting an instance protects

The guards of all functions test for `KII_THING_IF_STATE_STARTED`, and `start` is
documented to reach that state.  It never does: the calls behind a start that
succeeded are admitted as before it.
-/

namespace ThingIfSdk

open ByteText JsonText Staging Running

variable {σ : Type}

/-! ## Launches -/

/-- The push routine was started, or the task was created. -/
def Event.isLaunch : Event → Bool
  | .pushStartRoutine ret => ret = 0
  | .taskCreate ok => ok
  | _ => false

/-- `start` is called on an onboarded instance whose push routine starts. -/
def Launches (sdk : Sdk σ) (x : Step (KiiThingIf σ) Invocation (Outcome σ)) : Prop :=
  x.input.operation = .start ∧ x.before.state = .onboarded ∧
    (sdk.api.kiiPushStartRoutine x.before.commandHandler.core).1 = 0

/-- A call of `start` that returned `KII_TRUE`. -/
def Starts (x : Step (KiiThingIf σ) Invocation (Outcome σ)) : Prop :=
  x.input.operation = .start ∧ x.output.ret = true

/-- A call that fails for the state of the instance and leaves all of it alone. -/
structure Refuses (x : Step (KiiThingIf σ) Invocation (Outcome σ)) : Prop where
  failed : x.output.ret = false
  code : x.input.operation.takesError = true → ∀ r, x.output.error.record = some r →
    r.code = .invalidState
  unchanged : x.after = x.before

/-- A start that succeeds has launched both tasks and leads to the state started;
behind it, up to the next initialisation, every call is refused; and so there is at
most one of each task. -/
structure StartProtects (steps : List (Step (KiiThingIf σ) Invocation (Outcome σ))) : Prop where
  started : ∀ x ∈ steps, Starts x →
    .pushStartRoutine 0 ∈ newEvents x.before.commandHandler x.after.commandHandler ∧
      .taskCreate true ∈ newEvents x.before.stateUpdater x.after.stateUpdater ∧
      x.after.state = .started
  protects : ∀ front x rest, steps = front ++ x :: rest → Starts x →
    ∀ y ∈ rest.takeWhile (fun y => !y.input.operation.isInit), Refuses y
  once : ∀ x ∈ steps, x.after.commandHandler.log.countP Event.isLaunch ≤ 1 ∧
    x.after.stateUpdater.log.countP Event.isLaunch ≤ 1

/-! ## Calls that launch nothing -/

theorem isLaunch_of_good {e : Event} (h : e.isGood = true) : e.isLaunch = false := by
  cases e with
  | pushStartRoutine ret => cases h
  | taskCreate ok => cases h
  | _ => rfl

theorem isLaunch_of_failureClass {e : Event} {code : ErrorCode} (h : e.failureClass = some code) :
    e.isLaunch = false := by
  cases e with
  | pushStartRoutine ret => cases h
  | taskCreate ok => cases h
  | _ => rfl

theorem isLaunch_of_accepted {pieces : List Bytes} {e : Event} (h : e ∈ accepted pieces) :
    e.isLaunch = false :=
  isLaunch_of_good (isGood_of_mem_accepted h)

theorem launches_of_going {before c : Call σ} (h : Going before c) :
    ∃ es, c.kii.log = before.kii.log ++ es ∧ ∀ e ∈ es, e.isLaunch = false := by
  obtain ⟨-, -, es, hlog, hes⟩ := h
  exact ⟨es, hlog, fun e he => isLaunch_of_good (hes e he)⟩

theorem isLaunch_of_ending {sdk : Sdk σ} {kii : Kii σ} {error error' : ErrorSlot}
    {last : List Event} (h : Ending sdk kii error last error') : ∀ e ∈ last, e.isLaunch = false := by
  intro e he
  cases h with
  | coded hclass hcode hvalid =>
      rw [List.mem_singleton.mp he]
      exact isLaunch_of_failureClass hclass
  | rejected httpError h =>
      rw [List.mem_singleton.mp he]
      rfl
  | invalidResponse h responseCode =>
      rcases List.mem_cons.mp he with rfl | he
      · rfl
      · split at he
        · cases he
        · rw [List.mem_singleton.mp he]
          rfl

theorem launches_of_gaveUp {sdk : Sdk σ} {before c : Call σ} (h : GaveUp sdk before c) :
    ∃ es, c.kii.log = before.kii.log ++ es ∧ ∀ e ∈ es, e.isLaunch = false := by
  obtain ⟨es, last, hlog, hes, hend⟩ := h
  refine ⟨es ++ last, hlog, fun e he => ?_⟩
  rcases List.mem_append.mp he with he | he
  · exact isLaunch_of_good (hes e he)
  · exact isLaunch_of_ending hend e he

/-- No private function launches anything. -/
theorem launches_of_callEnds {sdk : Sdk σ} {before after : Call σ} {lapse : Option Lapse}
    {ret : Bool} (h : CallEnds sdk before lapse ret after) :
    ∃ es, after.kii.log = before.kii.log ++ es ∧ ∀ e ∈ es, e.isLaunch = false := by
  cases h with
  | goesOn h => exact launches_of_going h
  | givesUp h => exact launches_of_gaveUp h
  | @pathRefused c h =>
      obtain ⟨es, hlog, hes⟩ := launches_of_going h
      refine ⟨es ++ [.assertion, .pathTooLong], ?_, fun e he => ?_⟩
      · show c.kii.refusePath.log = _
        rw [Kii.refusePath, Kii.emit_log, Kii.emit_log, hlog]
        simp only [List.append_assoc]
        rfl
      · rcases List.mem_append.mp he with he | he
        · exact hes e he
        · simp only [List.mem_cons, List.not_mem_nil, or_false] at he
          rcases he with rfl | rfl <;> rfl
  | @bodyRefused c h call startRet front p ret' kii hlogs =>
      obtain ⟨es, hlog, hes⟩ := launches_of_going h
      refine ⟨_, by rw [hlogs.log_eq, hlog, List.append_assoc], fun e he => ?_⟩
      rcases List.mem_append.mp he with he | he
      · exact hes e he
      · rcases List.mem_cons.mp he with rfl | he
        · rfl
        · rcases List.mem_append.mp he with he | he
          · exact isLaunch_of_accepted he
          · rw [List.mem_singleton.mp he]
            rfl
  | @startIgnored c _ h call startRet hret pieces kii hlogs goesOn hon hup =>
      obtain ⟨es, hlog, hes⟩ := launches_of_going h
      have hbehind : ∃ es', after.kii.log = kii.log ++ es' ∧ ∀ e ∈ es', e.isLaunch = false := by
        cases ret with
        | true => exact launches_of_going (hon rfl)
        | false => exact launches_of_gaveUp (hup rfl)
      obtain ⟨es', hlog', hes'⟩ := hbehind
      refine ⟨es ++ ((.callStart call startRet :: accepted pieces) ++ es'), ?_, fun e he => ?_⟩
      · rw [hlog', hlogs.log_eq, hlog]
        simp only [List.append_assoc]
      · rcases List.mem_append.mp he with he | he
        · exact hes e he
        · rcases List.mem_append.mp he with he | he
          · rcases List.mem_cons.mp he with rfl | he
            · rfl
            · exact isLaunch_of_accepted he
          · exact hes' e he

/-! ## Starts -/

/-- A start that launches nothing fails, and logs at most its attempt. -/
theorem start_fails {sdk : Sdk σ} {thing : KiiThingIf σ}
    (h : ¬ (thing.state = .onboarded ∧
      (sdk.api.kiiPushStartRoutine thing.commandHandler.core).1 = 0)) :
    (start sdk thing).1 = false ∧ (start sdk thing).2.stateUpdater = thing.stateUpdater ∧
      ∃ es, (start sdk thing).2.commandHandler.log = thing.commandHandler.log ++ es ∧
        ∀ e ∈ es, e.isLaunch = false := by
  unfold start
  by_cases hstate : thing.state = .onboarded
  · have hpush : (sdk.api.kiiPushStartRoutine thing.commandHandler.core).1 ≠ 0 :=
      fun hpush => h ⟨hstate, hpush⟩
    rw [if_neg (not_not.mpr hstate)]
    simp only [if_pos hpush]
    refine ⟨trivial, trivial, [_], rfl, ?_⟩
    intro e he
    rw [List.mem_singleton.mp he]
    exact decide_eq_false hpush
  · rw [if_pos hstate]
    exact ⟨rfl, rfl, [], (List.append_nil _).symm, by simp⟩

/-- A start that launches succeeds, and leaves the instance onboarded. -/
theorem start_succeeds {sdk : Sdk σ} {thing : KiiThingIf σ} (hstate : thing.state = .onboarded)
    (hpush : (sdk.api.kiiPushStartRoutine thing.commandHandler.core).1 = 0) :
    (start sdk thing).1 = true ∧ (start sdk thing).2.state = .onboarded := by
  unfold start
  rw [if_neg (not_not.mpr hstate)]
  simp only [hpush, ne_eq, not_true_eq_false, if_false]
  exact ⟨trivial, hstate⟩

/-- Nothing was launched since the instance was initialised. -/
def Unlaunched (thing : KiiThingIf σ) : Prop :=
  (∀ e ∈ thing.commandHandler.log, e.isLaunch = false) ∧
    ∀ e ∈ thing.stateUpdater.log, e.isLaunch = false

theorem unlaunched_of_fresh {thing : KiiThingIf σ}
    (h : thing.commandHandler.log = [] ∧ thing.stateUpdater.log = []) : Unlaunched thing := by
  unfold Unlaunched
  rw [h.1, h.2]
  simp

theorem unlaunched_append {thing thing' : KiiThingIf σ} (h : Unlaunched thing)
    {es : List Event} (hlog : thing'.commandHandler.log = thing.commandHandler.log ++ es)
    (hes : ∀ e ∈ es, e.isLaunch = false)
    (hlog' : thing'.stateUpdater.log = thing.stateUpdater.log) : Unlaunched thing' := by
  unfold Unlaunched
  rw [hlog, hlog']
  refine ⟨fun e he => ?_, h.2⟩
  rcases List.mem_append.mp he with he | he
  · exact h.1 e he
  · exact hes e he

section

variable {sdk : Sdk σ} {init : Initialisation} {calls : List Invocation}
  {x : Step (KiiThingIf σ) Invocation (Outcome σ)}

/-- Only a start that launches is a start that succeeds. -/
theorem launches_of_starts (hx : x ∈ apiSteps sdk init calls) (h : Starts x) :
    Launches sdk x := by
  obtain ⟨hout, -⟩ := after_eq_of_mem hx
  by_contra hnot
  have hfails : (start sdk x.before).1 = false := (start_fails fun hboth => hnot ⟨h.1, hboth⟩).1
  have hret : x.output.ret = (start sdk x.before).1 := by
    rw [hout, h.1]
    rfl
  rw [h.2, hfails] at hret
  cases hret

theorem unlaunched_step (hx : x ∈ apiSteps sdk init calls) (hnot : ¬ Launches sdk x)
    (h : Unlaunched x.before) : Unlaunched x.after := by
  obtain ⟨hout, hafter⟩ := after_eq_of_mem hx
  rw [hafter, hout]
  rcases x.input.operation.cases_kind with hinit | hstart | herror
  · exact unlaunched_of_fresh (isInit_log sdk _ _ hinit)
  · obtain ⟨-, hupdater, es, hlog, hes⟩ :=
      @start_fails _ sdk x.before fun hboth => hnot ⟨hstart, hboth⟩
    rw [hstart]
    exact unlaunched_append h hlog hes (congrArg Kii.log hupdater)
  · have hupdater := stateUpdater_log sdk x.before x.input.error herror
    cases hadmits : x.input.operation.admits x.before.state with
    | false =>
        rw [operation_refused x.before x.input.error hadmits]
        exact h
    | true =>
        obtain ⟨goesOn, hends, -⟩ := (operation_ends x.before x.input.error herror hadmits).ends
        obtain ⟨es, hlog, hes⟩ := launches_of_callEnds hends
        exact unlaunched_append h hlog hes hupdater

end

/-- In every run, starting protects what it has started if and only if no start
launches anything. -/
theorem startProtects_iff (sdk : Sdk σ) (init : Initialisation) (calls : List Invocation) :
    StartProtects (apiSteps sdk init calls) ↔
      ∀ x ∈ apiSteps sdk init calls, ¬ Launches sdk x := by
  constructor
  · rintro hprotects x hx ⟨hop, hstate, hpush⟩
    obtain ⟨hout, hafter⟩ := after_eq_of_mem hx
    obtain ⟨hret, honboarded⟩ := start_succeeds hstate hpush
    rw [hop] at hout
    have hstarts : Starts x := by
      refine ⟨hop, ?_⟩
      rw [hout]
      exact hret
    obtain ⟨-, -, hstarted⟩ := hprotects.started x hx hstarts
    -- the state it is in is the one it was in
    have hsame : x.after.state = .onboarded := by
      rw [hafter, hout]
      exact honboarded
    rw [hsame] at hstarted
    cases hstarted
  · intro hnone
    have hunlaunched : ∀ x ∈ apiSteps sdk init calls, Unlaunched x.before ∧ Unlaunched x.after :=
      Transducer.invariant (unlaunched_of_fresh (init.thing_log sdk))
        fun x hx => unlaunched_step hx (hnone x hx)
    have hcount : ∀ log : List Event, (∀ e ∈ log, e.isLaunch = false) →
        log.countP Event.isLaunch ≤ 1 := by
      intro log hlog
      have hzero : log.countP Event.isLaunch = 0 := by
        rw [List.countP_eq_zero]
        intro e he
        rw [hlog e he]
        exact Bool.false_ne_true
      omega
    refine ⟨fun x hx hstarts => ?_, fun front x rest hsteps hstarts => ?_, fun x hx => ?_⟩
    · exact absurd (launches_of_starts hx hstarts) (hnone x hx)
    · have hx : x ∈ apiSteps sdk init calls := by
        rw [hsteps]
        simp
      exact absurd (launches_of_starts hx hstarts) (hnone x hx)
    · obtain ⟨-, hcommand, hupdater⟩ := hunlaunched x hx
      exact ⟨hcount _ hcommand, hcount _ hupdater⟩

/-! ## Two starts -/

/-- An instance of an onboarded thing, and two starts. -/
def twoStarts : List (Step (KiiThingIf (List Reply)) Invocation (Outcome (List Reply))) :=
  apiSteps steadySdk (.withOnboardedThing sampleInit (ascii "th.1") (ascii "token"))
    [⟨.start, ⟨none, []⟩⟩, ⟨.start, ⟨none, []⟩⟩]

/-- Both starts succeed, and two push routines and two status tasks are running. -/
theorem twoStarts_not_protected :
    twoStarts.map (fun x => (x.output.ret, x.after.state)) =
        [(true, .onboarded), (true, .onboarded)] ∧
      twoStarts.map (fun x => (x.after.commandHandler.log, x.after.stateUpdater.log)) =
        [([.pushStartRoutine 0], [.taskCreate true]),
          ([.pushStartRoutine 0, .pushStartRoutine 0], [.taskCreate true, .taskCreate true])] ∧
      ¬ StartProtects twoStarts := by
  have hlogs : twoStarts.map (fun x => (x.after.commandHandler.log, x.after.stateUpdater.log)) =
      [([.pushStartRoutine 0], [.taskCreate true]),
        ([.pushStartRoutine 0, .pushStartRoutine 0], [.taskCreate true, .taskCreate true])] := by
    decide
  refine ⟨by decide, hlogs, fun h => ?_⟩
  have hmem : (([.pushStartRoutine 0, .pushStartRoutine 0], [.taskCreate true, .taskCreate true]) :
      List Event × List Event) ∈
        twoStarts.map (fun x => (x.after.commandHandler.log, x.after.stateUpdater.log)) := by
    rw [hlogs]
    simp
  obtain ⟨x, hx, heq⟩ := List.mem_map.mp hmem
  obtain ⟨honce, -⟩ := h.once x hx
  rw [(Prod.mk.inj heq).1] at honce
  exact absurd honce (by decide)

end ThingIfSdk
