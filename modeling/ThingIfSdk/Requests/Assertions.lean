import ThingIfSdk.Requests.ErrorCodes
import ThingIfSdk.Requests.Paths

/-!
# Assertions that can be reached

`M_KII_THING_IF_ASSERT(0)` stands behind the refusal of the path builders and behind
a response that is no HTTP response.  `Activity` collects everything the SDK does
with an instance, and `assertionFree_iff` says from which data one of them comes to
an assertion.
-/

namespace ThingIfSdk

open ByteText JsonText Staging

variable {σ δ : Type}

/-- What is done with an instance: a call of the application, or a function of one of
the two tasks. -/
inductive Activity (σ δ : Type) where
  | operation (op : Operation) (error : ErrorSlot)
  | handleCommand (handlers : Handlers σ δ) (stack : Stack) (fuel : Nat) (device : δ)
      (buffer : Bytes)
  | sendState (stateHandler : WriterProgram)
  | updateStatus (handlers : Handlers σ δ) (devices : Nat → δ) (rounds : Nat)

/-- The new entries in the logs of the instance. -/
def Activity.events (sdk : Sdk σ) (thing : KiiThingIf σ) : Activity σ δ → List Event
  | .operation op error =>
      let after := (op.run sdk thing error).thing
      newEvents thing.commandHandler after.commandHandler ++
        newEvents thing.stateUpdater after.stateUpdater
  | .handleCommand handlers stack fuel device buffer =>
      newEvents thing.commandHandler (ThingIfSdk.handleCommand sdk handlers stack fuel
        ⟨⟨thing.commandHandler, device⟩, buffer⟩).2.machine.kii
  | .sendState stateHandler =>
      newEvents thing.commandHandler (prvSendState sdk stateHandler thing.commandHandler).2
  | .updateStatus handlers devices rounds =>
      newEvents thing.stateUpdater (prvUpdateStatus sdk thing.stateUpdatePeriod handlers devices
        rounds thing.stateUpdater)

/-- The path of the states does not fit its 256 bytes. -/
def StatePathRefused (sdk : Sdk σ) (kii : Kii σ) : Prop :=
  prvSetStateResourcePath sdk.platform kii.appId kii.author.authorId 256 = none

/-- A request was run, with or without an HTTP error. -/
def Event.hasRun : Event → Bool
  | .callRun ret _ _ => ret = 0
  | _ => false

/-- An admitted call comes to a path that is refused, or has a record for a response
that is no HTTP response; or the path of the states is refused, in `handle_command`
behind a results request that was run. -/
def Activity.Asserts (sdk : Sdk σ) (thing : KiiThingIf σ) : Activity σ δ → Prop
  | .operation op error =>
      op.takesError = true ∧ op.admits thing.state = true ∧
        (op.lapse sdk thing error = some .pathRefused ∨
          error.record ≠ none ∧
            InvalidResponse thing.commandHandler (op.run sdk thing error).thing.commandHandler)
  | .handleCommand handlers stack fuel device buffer =>
      StatePathRefused sdk thing.commandHandler ∧
        ∃ e ∈ (Activity.handleCommand handlers stack fuel device buffer).events sdk thing,
          e.hasRun = true
  | .sendState _ => StatePathRefused sdk thing.commandHandler
  | .updateStatus .. => StatePathRefused sdk thing.stateUpdater

/-! ## Calls of the application -/

theorem assertion_not_mem_of_good {es : List Event} (h : ∀ e ∈ es, e.isGood = true) :
    .assertion ∉ es :=
  fun he => Bool.false_ne_true (h _ he)

/-- A call that gives up asserts on an invalid response, when there is a record. -/
theorem assertion_of_gaveUp {sdk : Sdk σ} {before after : Call σ} {front : List Event}
    (hfront : .assertion ∉ front) (hvalid : ¬ ∃ e ∈ front, e.isInvalidResponse = true)
    {mid : Call σ} (herror : mid.error = before.error)
    (hlog : mid.kii.log = before.kii.log ++ front) (h : GaveUp sdk mid after) :
    .assertion ∈ newEvents before.kii after.kii ↔
      before.error.record ≠ none ∧ InvalidResponse before.kii after.kii := by
  obtain ⟨es, last, hafter, hgood, hend⟩ := h.ending
  rw [hlog, List.append_assoc] at hafter
  rw [herror] at hend
  rw [newEvents_eq hafter, invalidResponse_iff hafter]
  have hassert : .assertion ∈ front ++ (es ++ last) ↔ .assertion ∈ last := by
    simp [hfront, assertion_not_mem_of_good hgood]
  have hinvalid : (∃ e ∈ front ++ (es ++ last), e.isInvalidResponse = true) ↔
      ∃ e ∈ last, e.isInvalidResponse = true := by
    constructor
    · rintro ⟨e, he, hinvalid⟩
      rcases List.mem_append.mp he with he | he
      · exact absurd ⟨e, he, hinvalid⟩ hvalid
      · rcases List.mem_append.mp he with he | he
        · exact absurd ⟨e, he, hinvalid⟩ (valid_of_good hgood)
        · exact ⟨e, he, hinvalid⟩
    · rintro ⟨e, he, hinvalid⟩
      exact ⟨e, List.mem_append_right _ (List.mem_append_right _ he), hinvalid⟩
  rw [hassert, hinvalid]
  generalize after.error = slot at hend
  cases hend with
  | @coded e code hclass hcode hvalidLast =>
      refine iff_of_false (fun he => ?_) fun ⟨_, e', he', hinvalid'⟩ => ?_
      · rw [← List.mem_singleton.mp he] at hclass
        cases hclass
      · rw [List.mem_singleton.mp he', hvalidLast] at hinvalid'
        cases hinvalid'
  | rejected httpError hstatus =>
      refine iff_of_false (by simp) fun ⟨_, e', he', hinvalid'⟩ => ?_
      rw [List.mem_singleton.mp he', isInvalidResponse_of_run_zero] at hinvalid'
      cases hinvalid'
  | invalidResponse hret responseCode =>
      have hrun : (Event.callRun _ .invalidResponse responseCode).isInvalidResponse = true :=
        decide_eq_true hret
      by_cases hrecord : before.error.record = none
      · simp [hrecord]
      · simp only [ne_eq, hrecord, not_false_eq_true, true_and]
        exact iff_of_true (by simp) ⟨_, List.mem_cons_self, hrun⟩

/-- Entries among which there is neither. -/
def Event.isHarmless (e : Event) : Prop :=
  e ≠ .assertion ∧ e.isInvalidResponse = false

theorem harmless_of_good {e : Event} (h : e.isGood = true) : e.isHarmless := by
  refine ⟨?_, isInvalidResponse_of_good h⟩
  rintro rfl
  exact Bool.false_ne_true h

theorem assertion_iff_of_harmless {before after : Kii σ} {es : List Event}
    (hlog : after.log = before.log ++ es) (h : ∀ e ∈ es, e.isHarmless) :
    .assertion ∉ newEvents before after ∧ ¬ InvalidResponse before after := by
  rw [newEvents_eq hlog, invalidResponse_iff hlog]
  refine ⟨fun he => (h _ he).1 rfl, ?_⟩
  rintro ⟨e, he, hinvalid⟩
  rw [(h e he).2] at hinvalid
  cases hinvalid

theorem harmless_append {es es' : List Event} (h : ∀ e ∈ es, e.isHarmless)
    (h' : ∀ e ∈ es', e.isHarmless) : ∀ e ∈ es ++ es', e.isHarmless := by
  intro e he
  rcases List.mem_append.mp he with he | he
  · exact h e he
  · exact h' e he

/-- The start of a request and pieces of its body. -/
theorem harmless_started (call : ApiCall) (ret : Int) (pieces : List Bytes) :
    ∀ e ∈ (.callStart call ret :: accepted pieces : List Event), e.isHarmless := by
  intro e he
  rcases List.mem_cons.mp he with rfl | he
  · exact ⟨by simp, rfl⟩
  · exact harmless_of_good (isGood_of_mem_accepted he)

theorem assertion_of_callEnds {sdk : Sdk σ} {before after : Call σ} {lapse : Option Lapse}
    {ret : Bool} (h : CallEnds sdk before lapse ret after) :
    .assertion ∈ newEvents before.kii after.kii ↔
      lapse = some .pathRefused ∨
        before.error.record ≠ none ∧ InvalidResponse before.kii after.kii := by
  -- Harmless entries make both sides false.
  have hneither : ∀ {kii : Kii σ} {es : List Event}, kii.log = before.kii.log ++ es →
      (∀ e ∈ es, e.isHarmless) →
      (.assertion ∈ newEvents before.kii kii ↔
        before.error.record ≠ none ∧ InvalidResponse before.kii kii) := by
    intro kii es hlog hes
    obtain ⟨hassert, hinvalid⟩ := assertion_iff_of_harmless hlog hes
    exact iff_of_false hassert fun h => hinvalid h.2
  cases h with
  | goesOn h =>
      obtain ⟨-, -, es, hlog, hes⟩ := h
      rw [hneither hlog fun e he => harmless_of_good (hes e he)]
      simp
  | givesUp h =>
      rw [assertion_of_gaveUp List.not_mem_nil (by simp) rfl (List.append_nil _).symm h]
      simp
  | @pathRefused c h =>
      obtain ⟨-, -, es, hlog, -⟩ := h
      have hrefused : (refusedPath c).kii.log =
          before.kii.log ++ (es ++ [.assertion, .pathTooLong]) := by
        show c.kii.refusePath.log = _
        rw [Kii.refusePath, Kii.emit_log, Kii.emit_log, hlog]
        simp only [List.append_assoc]
        rfl
      rw [newEvents_eq hrefused]
      exact iff_of_true (by simp) (.inl rfl)
  | @bodyRefused c h call startRet front p ret' kii hlogs =>
      obtain ⟨-, -, es, hlog, hes⟩ := h
      have hlog' : kii.log = before.kii.log ++
          (es ++ ((.callStart call startRet :: accepted front) ++ [.appendBody p ret'])) := by
        rw [hlogs.log_eq, hlog, List.append_assoc]
        rfl
      have hrefused : ∀ e ∈ [Event.appendBody p ret'], e.isHarmless := by
        simp [Event.isHarmless, Event.isInvalidResponse]
      have hall := harmless_append (fun e he => harmless_of_good (hes e he))
        (harmless_append (harmless_started call startRet front) hrefused)
      show .assertion ∈ newEvents before.kii kii ↔ _ ∨ _ ∧ InvalidResponse before.kii kii
      rw [hneither hlog' hall]
      simp
  -- A start that fails unnoticed asserts nothing itself; only the stages behind it can.
  | @startIgnored c _ h call startRet hret pieces kii hlogs _ hon hup =>
      obtain ⟨herror, -, es, hlog, hes⟩ := h
      have hmid : kii.log = before.kii.log ++ (es ++ (.callStart call startRet :: accepted pieces)) := by
        rw [hlogs.log_eq, hlog, List.append_assoc]
      have hfront := harmless_append (fun e he => harmless_of_good (hes e he))
        (harmless_started call startRet pieces)
      have hlapse : ¬ (some Lapse.startIgnored = some .pathRefused) := by simp
      rw [or_iff_right hlapse]
      cases ret with
      | true =>
          obtain ⟨-, -, rest, hlog', hrest⟩ := hon rfl
          have hafter : after.kii.log = before.kii.log ++
              ((es ++ (.callStart call startRet :: accepted pieces)) ++ rest) := by
            rw [hlog']
            simp only [hmid, List.append_assoc]
          exact hneither hafter (harmless_append hfront fun e he => harmless_of_good (hrest e he))
      | false =>
          have hvalid : ¬ ∃ e ∈ es ++ (.callStart call startRet :: accepted pieces),
              e.isInvalidResponse = true := by
            rintro ⟨e, he, hinvalid⟩
            rw [(hfront e he).2] at hinvalid
            cases hinvalid
          exact @assertion_of_gaveUp _ sdk before after _ (fun he => (hfront _ he).1 rfl) hvalid
            { c with kii := kii } herror hmid (hup rfl)

theorem newEvents_of_log_eq {before after : Kii σ} (h : after.log = before.log) :
    newEvents before after = [] :=
  newEvents_eq (h.trans (List.append_nil _).symm)

/-- A log that starts afresh holds no new entries of interest. -/
theorem newEvents_of_fresh {before after : Kii σ} (h : after.log = []) :
    newEvents before after = [] := by
  unfold newEvents
  rw [h, List.drop_nil]

theorem initKii_log (sdk : Sdk σ) (args : InitArgs) (bufferSize : Nat) :
    (initKii sdk args bufferSize).2.log = [] := by
  unfold initKii
  simp only
  split <;> rfl

theorem prvInitKiiThingIf_log (sdk : Sdk σ) (args : InitArgs) :
    (prvInitKiiThingIf sdk args).2.commandHandler.log = [] ∧
      (prvInitKiiThingIf sdk args).2.stateUpdater.log = [] := by
  have hlog := initKii_log sdk args
  unfold prvInitKiiThingIf
  simp only
  split
  · exact ⟨hlog _, rfl⟩
  · split <;> exact ⟨hlog _, hlog _⟩

theorem initWithOnboardedThing_log (sdk : Sdk σ) (args : InitArgs) (thingId accessToken : Bytes) :
    let r := initKiiThingIfWithOnboardedThing sdk args thingId accessToken
    r.2.commandHandler.log = [] ∧ r.2.stateUpdater.log = [] := by
  have hlog := prvInitKiiThingIf_log sdk args
  unfold initKiiThingIfWithOnboardedThing
  simp only
  split
  · exact hlog
  · cases prvSetAuthor sdk.platform thingId accessToken with
    | none => exact hlog
    | some author => exact hlog

theorem start_log (sdk : Sdk σ) (thing : KiiThingIf σ) :
    ∃ es es', (start sdk thing).2.commandHandler.log = thing.commandHandler.log ++ es ∧
      (start sdk thing).2.stateUpdater.log = thing.stateUpdater.log ++ es' ∧
      .assertion ∉ es ++ es' := by
  unfold start
  simp only
  split
  · exact ⟨[], [], (List.append_nil _).symm, (List.append_nil _).symm, List.not_mem_nil⟩
  · split
    · exact ⟨[_], [], rfl, (List.append_nil _).symm, by simp⟩
    · exact ⟨[_], [_], rfl, rfl, by simp⟩

/-- Calls with an `error` argument leave the log of the updater alone. -/
theorem stateUpdater_log (sdk : Sdk σ) (thing : KiiThingIf σ) (error : ErrorSlot)
    {op : Operation} (hop : op.takesError = true) :
    (op.run sdk thing error).thing.stateUpdater.log = thing.stateUpdater.log := by
  have honboard : ∀ f : Call σ → Bool × Call σ,
      (onboardWith sdk f thing error).thing.stateUpdater.log = thing.stateUpdater.log := by
    intro f
    unfold onboardWith
    simp only
    split
    · rfl
    · split
      · rfl
      · split <;> rfl
  have hproperty : ∀ request : Call σ → Bool × Call σ × Option Bytes,
      (whenOnboarded thing error request).thing.stateUpdater.log = thing.stateUpdater.log := by
    intro request
    unfold whenOnboarded
    cases thing.state <;> rfl
  cases op with
  | init args => cases hop
  | initWithOnboardedThing args thingId accessToken => cases hop
  | start => cases hop
  | onboardWithVendorThingId args => exact honboard _
  | onboardWithThingId args => exact honboard _
  | getFirmwareVersion len => exact hproperty _
  | getThingType len => exact hproperty _
  | updateFirmwareVersion v =>
      simp only [Operation.run, updateFirmwareVersion]
      exact hproperty _
  | updateThingType v =>
      simp only [Operation.run, updateThingType]
      exact hproperty _

/-- Calls without an `error` argument come to no assertion. -/
theorem assertion_of_local (sdk : Sdk σ) (thing : KiiThingIf σ) (error : ErrorSlot)
    {op : Operation} (hop : op.takesError = false) :
    .assertion ∉ newEvents thing.commandHandler (op.run sdk thing error).thing.commandHandler ++
      newEvents thing.stateUpdater (op.run sdk thing error).thing.stateUpdater := by
  have hfresh : ∀ thing' : KiiThingIf σ,
      thing'.commandHandler.log = [] ∧ thing'.stateUpdater.log = [] →
      .assertion ∉ newEvents thing.commandHandler thing'.commandHandler ++
        newEvents thing.stateUpdater thing'.stateUpdater := by
    rintro thing' ⟨hcommand, hupdater⟩
    rw [newEvents_of_fresh hcommand, newEvents_of_fresh hupdater]
    exact List.not_mem_nil
  cases op with
  | init args => exact hfresh _ (prvInitKiiThingIf_log sdk args)
  | initWithOnboardedThing args thingId accessToken =>
      exact hfresh _ (initWithOnboardedThing_log sdk args thingId accessToken)
  | start =>
      obtain ⟨es, es', hlog, hlog', hassert⟩ := start_log sdk thing
      show .assertion ∉ newEvents thing.commandHandler (start sdk thing).2.commandHandler ++
        newEvents thing.stateUpdater (start sdk thing).2.stateUpdater
      rw [newEvents_eq hlog, newEvents_eq hlog']
      exact hassert
  | _ => cases hop

theorem operation_asserts_iff (sdk : Sdk σ) (thing : KiiThingIf σ) (op : Operation)
    (error : ErrorSlot) :
    .assertion ∈ (Activity.operation op error : Activity σ δ).events sdk thing ↔
      (Activity.operation op error : Activity σ δ).Asserts sdk thing := by
  show .assertion ∈ newEvents thing.commandHandler (op.run sdk thing error).thing.commandHandler ++
    newEvents thing.stateUpdater (op.run sdk thing error).thing.stateUpdater ↔ _
  cases hop : op.takesError with
  | false =>
      refine iff_of_false (assertion_of_local sdk thing error hop) ?_
      rintro ⟨hop', -⟩
      rw [hop] at hop'
      cases hop'
  | true =>
      rw [newEvents_of_log_eq (stateUpdater_log sdk thing error hop), List.append_nil]
      unfold Activity.Asserts
      simp only [hop, true_and]
      cases hadmits : op.admits thing.state with
      | false =>
          rw [operation_refused thing error hadmits, newEvents_self]
          simp
      | true =>
          obtain ⟨goesOn, hends, -⟩ := (operation_ends thing error hop hadmits).ends
          rw [assertion_of_callEnds hends]
          simp

/-! ## The tasks -/

theorem sendState_asserts_iff (sdk : Sdk σ) (w : WriterProgram) (kii : Kii σ) :
    .assertion ∈ newEvents kii (prvSendState sdk w kii).2 ↔ StatePathRefused sdk kii := by
  obtain ⟨es, -, hlog, hassert⟩ := prvSendState_log sdk w kii
  rw [newEvents_eq hlog]
  exact hassert

/-- The updater asserts before its first round, or never. -/
theorem updateStatus_asserts_iff (sdk : Sdk σ) (stateUpdatePeriod : Int)
    (handlers : Handlers σ δ) (devices : Nat → δ) (rounds : Nat) (kii : Kii σ) :
    .assertion ∈ newEvents kii
        (prvUpdateStatus sdk stateUpdatePeriod handlers devices rounds kii) ↔
      StatePathRefused sdk kii := by
  unfold prvUpdateStatus StatePathRefused
  cases prvSetStateResourcePath sdk.platform kii.appId kii.author.authorId 256 with
  | none =>
      have hlog : kii.refusePath.log = kii.log ++ [.assertion, .pathTooLong] :=
        List.append_assoc _ _ _
      simp only [newEvents_eq hlog]
      simp
  | some resourcePath =>
      obtain ⟨rs, -, hrs, hlog⟩ := updateStatusRounds_log sdk stateUpdatePeriod resourcePath
        handlers devices kii rounds
      simp only [newEvents_eq hlog]
      simp only [List.mem_flatMap, List.mem_cons, reduceCtorEq, false_or, iff_false, not_exists,
        not_and]
      exact fun es hes => (hrs es hes).2

/-- The end of `handle_command` sends the state only behind a results request. -/
theorem finishCommand_asserts (sdk : Sdk σ) (handlers : Handlers σ δ) (m : Machine σ δ) :
    ∃ es, (finishCommand sdk handlers m).kii.log = m.kii.log ++ es ∧
      (.assertion ∈ es ↔ StatePathRefused sdk m.kii ∧ ∃ e ∈ es, e.hasRun = true) := by
  have hadds := adds_append sdk resultsClosing m.kii
  unfold finishCommand
  simp only
  split
  · exact ⟨_, hadds.log_eq, by simp [Event.hasRun]⟩
  · have hrun := kiiApiCallRun_log sdk (kiiApiCallAppendBody sdk resultsClosing m.kii).2
    rw [hadds.log_eq, List.append_assoc] at hrun
    split
    · rename_i hret
      exact ⟨_, hrun, by simp [Event.hasRun, hret]⟩
    · rename_i hret
      rw [not_not] at hret
      obtain ⟨es, -, hlog, hassert⟩ := prvSendState_log sdk
        (handlers.stateHandlerForCommandReaction m.device)
        (kiiApiCallRun sdk (kiiApiCallAppendBody sdk resultsClosing m.kii).2).2
      rw [hrun, List.append_assoc] at hlog
      have hstate : .assertion ∈ es ↔ StatePathRefused sdk m.kii := hassert
      refine ⟨_, hlog, ?_⟩
      simp [hstate, Event.hasRun, hret]

theorem hasRun_of_no_run {es : List Event} (h : ∀ e ∈ es, e.isRun = false) :
    ¬ ∃ e ∈ es, e.hasRun = true := by
  rintro ⟨e, he, hrun⟩
  cases e with
  | callRun ret httpError responseCode => exact Bool.false_ne_true (h _ he).symm
  | _ => cases hrun

theorem handleCommand_asserts_iff (sdk : Sdk σ) (handlers : Handlers σ δ) (stack : Stack)
    (fuel : Nat) (s : CommandState σ δ) :
    let new := newEvents s.machine.kii (handleCommand sdk handlers stack fuel s).2.machine.kii
    .assertion ∈ new ↔ StatePathRefused sdk s.machine.kii ∧ ∃ e ∈ new, e.hasRun = true := by
  simp only
  cases hopen : openCommand sdk s with
  | none =>
      obtain ⟨es, hadd, hsilent, -, -, hassert, -⟩ :=
        handleCommand_of_not_open hopen handlers stack fuel
      rw [newEvents_eq hadd.log_eq]
      exact iff_of_false hassert fun h =>
        hasRun_of_no_run (fun e he => isRun_of_silent (hsilent e he)) h.2
  | some r =>
      obtain ⟨actions, m⟩ := r
      obtain ⟨-, -, call, hcall⟩ := openCommand_adds hopen
      obtain ⟨hfinished, hother⟩ := handleCommand_of_open hopen handlers stack fuel
      obtain ⟨es, hadd, hrun, -, hassert, -⟩ :=
        perform_adds sdk handlers stack (commandItems sdk.json stack s.buffer fuel actions) m
      have hfront := hcall.trans hadd
      have hnoRun : ∀ e ∈ [.callStart call 0, .appendBody resultsOpening 0] ++ es,
          e.isRun = false := by
        intro e he
        rcases List.mem_append.mp he with he | he
        · simp only [List.mem_cons, List.not_mem_nil, or_false] at he
          rcases he with rfl | rfl <;> rfl
        · exact hrun e he
      have hnoAssert : .assertion ∉ [.callStart call 0, .appendBody resultsOpening 0] ++ es := by
        simp [hassert]
      by_cases hf : (perform sdk handlers stack (commandItems sdk.json stack s.buffer fuel actions)
          m).1.flow = .finished
      -- Only the upload behind the loops can assert; the loops keep its path as it was.
      · rw [(hfinished hf).2.2]
        obtain ⟨tail, htail, htailAssert⟩ := finishCommand_asserts sdk handlers
          (perform sdk handlers stack (commandItems sdk.json stack s.buffer fuel actions) m).2
        rw [hfront.log_eq, List.append_assoc] at htail
        rw [newEvents_eq htail]
        have hsame : StatePathRefused sdk (perform sdk handlers stack
            (commandItems sdk.json stack s.buffer fuel actions) m).2.kii ↔
              StatePathRefused sdk s.machine.kii := by
          unfold StatePathRefused
          rw [hfront.appId_eq, hfront.author_eq]
        rw [hsame] at htailAssert
        rw [List.mem_append, or_iff_right hnoAssert, htailAssert]
        refine and_congr_right fun _ => ⟨?_, ?_⟩
        · rintro ⟨e, he, hhas⟩
          exact ⟨e, List.mem_append_right _ he, hhas⟩
        · rintro ⟨e, he, hhas⟩
          rcases List.mem_append.mp he with he | he
          · exact absurd ⟨e, he, hhas⟩ (hasRun_of_no_run hnoRun)
          · exact ⟨e, he, hhas⟩
      · rw [(hother hf).2.1, newEvents_eq hfront.log_eq]
        exact iff_of_false hnoAssert fun h => hasRun_of_no_run hnoRun h.2

/-- Nothing that is done with an instance comes to an assertion, except from the data
that `Activity.Asserts` names. -/
theorem assertionFree_iff (sdk : Sdk σ) (thing : KiiThingIf σ) (activity : Activity σ δ) :
    .assertion ∉ activity.events sdk thing ↔ ¬ activity.Asserts sdk thing := by
  refine not_congr ?_
  cases activity with
  | operation op error => exact operation_asserts_iff sdk thing op error
  | handleCommand handlers stack fuel device buffer =>
      exact handleCommand_asserts_iff sdk handlers stack fuel
        ⟨⟨thing.commandHandler, device⟩, buffer⟩
  | sendState stateHandler => exact sendState_asserts_iff sdk stateHandler thing.commandHandler
  | updateStatus handlers devices rounds =>
      exact updateStatus_asserts_iff sdk thing.stateUpdatePeriod handlers devices rounds
        thing.stateUpdater

/-! ## The paths among each other -/

/-- An app id from 38 to 41 bytes fits the path of the token request and not that of
the onboarding request. -/
theorem onboardPath_refused {p : Platform} (hbits : 8 ≤ p.sizeBits) {kii : Kii σ} {sdk : Sdk σ}
    (hp : sdk.platform = p) (hlo : 38 ≤ kii.appId.length) (hhi : kii.appId.length ≤ 41) :
    tokenPath sdk kii = some [appPath, kii.appId, oauthPath].flatten ∧
      prvSetOnboardResourcePath p kii.appId 64 = none := by
  subst hp
  have hpow : 2 ^ 8 ≤ 2 ^ sdk.platform.sizeBits := Nat.pow_le_pow_right (by omega) hbits
  have hconst : appPath.length = 9 ∧ oauthPath.length = 13 ∧ thingIfAppPath.length = 14 ∧
      onboardingPath.length = 12 := ⟨rfl, rfl, rfl, rfl⟩
  have htoken : resourcePathLength sdk.platform [appPath, kii.appId, oauthPath] < 64 := by
    rw [resourcePathLength_eq]
    simp only [List.flatten_cons, List.flatten_nil, List.length_append, List.length_nil]
    rw [Nat.mod_eq_of_lt (by omega)]
    omega
  have honboard : 64 ≤ resourcePathLength sdk.platform [thingIfAppPath, kii.appId,
      onboardingPath] := by
    rw [resourcePathLength_eq]
    simp only [List.flatten_cons, List.flatten_nil, List.length_append, List.length_nil]
    rw [Nat.mod_eq_of_lt (by omega)]
    omega
  exact ⟨if_neg (Nat.not_le.mpr htoken), if_pos honboard⟩

/-- An instance that is not onboarded yet, with an app id of 38 letters. -/
def wideAppThing (replies : List Reply) : KiiThingIf (List Reply) where
  commandHandler :=
    { Kii.zeroed steadySdk with
      appId := List.replicate 38 97
      appKey := ascii "key"
      core := replies }
  stateUpdater := Kii.zeroed steadySdk
  stateUpdatePeriod := 60
  state := .initialized

/-- With a good token response, onboarding it asserts. -/
theorem wideApp_asserts :
    .assertion ∈ (Activity.operation (.onboardWithVendorThingId plainArgs) freshError :
      Activity (List Reply) Unit).events steadySdk (wideAppThing [.ok tokenResponse]) := by
  have hlen : (wideAppThing [.ok tokenResponse]).commandHandler.appId.length = 38 :=
    List.length_replicate
  obtain ⟨hpath, hrefused⟩ := @onboardPath_refused _ steadySdk.platform (by decide)
    (wideAppThing [.ok tokenResponse]).commandHandler steadySdk rfl (by omega) (by omega)
  obtain ⟨kii, htoken, happ, -⟩ := token_steady hpath rfl freshError
  obtain ⟨hret, hcall⟩ := token_of_stages htoken
  rw [operation_asserts_iff]
  refine ⟨rfl, rfl, .inl ?_⟩
  show onboardLapse steadySdk (vendorLapse steadySdk)
    ⟨(wideAppThing [.ok tokenResponse]).commandHandler, freshError⟩ = some .pathRefused
  unfold onboardLapse
  simp only [hret, hcall, ne_eq, not_true_eq_false, if_false]
  unfold vendorLapse
  rw [happ, hrefused]
  rfl

end ThingIfSdk
