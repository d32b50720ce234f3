import ThingIfSdk.Command.Transcript
import ThingIfSdk.Requests.State

/-!
# Whole runs of handle_command

`openCommand` is what happens before the loops.  When it succeeds, a run of
`handle_command` is described by the items of the message: `handleCommand_complete`
for the runs that report all of their handler calls, `handleCommand_incomplete`
for those that stop early.
-/

namespace ThingIfSdk

open ByteText JsonText Monitoring

variable {σ δ : Type}

/-! ## Before the loops -/

/-- The request is started and its body opened; the result is the field of the
actions and the machine at the head of the outer loop. -/
def openCommand (sdk : Sdk σ) (s : CommandState σ δ) : Option (JsonFieldOut × Machine σ δ) :=
  let r := prvKiiThingIfJsonReadObject sdk s.buffer commandFields
  if commandGoesOn r = false then none
  else if 256 ≤ resultsPathLength sdk.platform s.machine.kii.appId s.machine.kii.author.authorId
      (r.2 0).start (r.2 0).stop then none
  else
    match slice? s.buffer (r.2 0).start (((r.2 0).stop : Int) - (r.2 0).start) with
    | none => none
    | some commandIdText =>
        let start := resultsStart sdk s.machine.kii commandIdText
        if start.1 ≠ 0 then none
        else
          let opening := kiiApiCallAppendBody sdk resultsOpening start.2
          if opening.1 ≠ 0 then none
          else some (r.2 1, { s.machine with kii := opening.2 })

/-- The actions array as `handle_command` finds it. -/
def commandItems (json : JsonApi) (stack : Stack) (payload : Bytes) (fuel : Nat)
    (actions : JsonFieldOut) : List Item :=
  aliasItems json stack payload actions.start ((actions.stop : Int) - actions.start) fuel fuel 0

theorem adds_resultsStart (sdk : Sdk σ) (kii : Kii σ) (commandId : Bytes) :
    ∃ call, kii.Adds (resultsStart sdk kii commandId).2
      [.callStart call (resultsStart sdk kii commandId).1] :=
  ⟨_, adds_start sdk kii _ _ _ _⟩

theorem openCommand_adds {sdk : Sdk σ} {s : CommandState σ δ} {actions : JsonFieldOut}
    {m : Machine σ δ} (h : openCommand sdk s = some (actions, m)) :
    actions = (prvKiiThingIfJsonReadObject sdk s.buffer commandFields).2 1 ∧
      m.device = s.machine.device ∧
      ∃ call, s.machine.kii.Adds m.kii [.callStart call 0, .appendBody resultsOpening 0] := by
  unfold openCommand at h
  simp only at h
  split at h
  · cases h
  · split at h
    · cases h
    · split at h
      · cases h
      · split at h
        · cases h
        · split at h
          · cases h
          · rename_i text _ hstart hopen
            rw [not_not] at hstart hopen
            simp only [Option.some.injEq, Prod.mk.injEq] at h
            obtain ⟨rfl, rfl⟩ := h
            obtain ⟨call, hcall⟩ := adds_resultsStart sdk s.machine.kii text
            have happend := adds_append sdk resultsOpening
              (resultsStart sdk s.machine.kii text).2
            rw [hstart] at hcall
            rw [hopen] at happend
            exact ⟨rfl, rfl, call, hcall.trans happend⟩

theorem openCommand_path {sdk : Sdk σ} {s : CommandState σ δ}
    {r : JsonFieldOut × Machine σ δ} (h : openCommand sdk s = some r) :
    resultsPathLength sdk.platform s.machine.kii.appId s.machine.kii.author.authorId
      ((prvKiiThingIfJsonReadObject sdk s.buffer commandFields).2 0).start
      ((prvKiiThingIfJsonReadObject sdk s.buffer commandFields).2 0).stop < 256 := by
  unfold openCommand at h
  simp only at h
  split at h
  · cases h
  · split at h
    · cases h
    · rename_i hpath
      exact Nat.lt_of_not_le hpath

/-- A run that does not reach the loops calls no handler, runs no request and
leaves the message alone. -/
theorem handleCommand_of_not_open {sdk : Sdk σ} {s : CommandState σ δ}
    (h : openCommand sdk s = none) (handlers : Handlers σ δ) (stack : Stack) (fuel : Nat) :
    ∃ es, s.machine.kii.Adds (handleCommand sdk handlers stack fuel s).2.machine.kii es ∧
      (∀ e ∈ es, e.isSilent = true) ∧
      (handleCommand sdk handlers stack fuel s).2.machine.device = s.machine.device ∧
      (handleCommand sdk handlers stack fuel s).2.buffer = s.buffer ∧ .assertion ∉ es ∧
      ∀ ret, .stateHandler ret ∉ es := by
  unfold openCommand at h
  unfold handleCommand
  simp only at h ⊢
  split
  · exact ⟨[], .refl _, by simp, rfl, rfl, List.not_mem_nil, by simp⟩
  · rename_i hgo
    rw [if_neg hgo] at h
    split
    · exact ⟨[], .refl _, by simp, rfl, rfl, List.not_mem_nil, by simp⟩
    · rename_i hpath
      rw [if_neg hpath] at h
      cases hslice : slice? s.buffer
        ((prvKiiThingIfJsonReadObject sdk s.buffer commandFields).2 0).start
        ((((prvKiiThingIfJsonReadObject sdk s.buffer commandFields).2 0).stop : Int) -
          ((prvKiiThingIfJsonReadObject sdk s.buffer commandFields).2 0).start) with
      | none => exact ⟨[], .refl _, by simp, rfl, rfl, List.not_mem_nil, by simp⟩
      -- The start that fails is on the log, and so is the opening that is refused.
      | some text =>
          rw [hslice] at h
          simp only at h ⊢
          obtain ⟨call, hcall⟩ := adds_resultsStart sdk s.machine.kii text
          split
          · refine ⟨_, hcall, ?_, rfl, rfl, by simp, by simp⟩
            intro e he
            rw [List.mem_singleton] at he
            rw [he]
            rfl
          · rename_i hstart
            rw [if_neg hstart] at h
            unfold dispatchCommand
            simp only
            split
            · refine ⟨_, hcall.trans (adds_append sdk _ _), ?_, rfl, rfl, by simp, by simp⟩
              intro e he
              simp only [List.cons_append, List.nil_append, List.mem_cons,
                List.not_mem_nil, or_false] at he
              rcases he with rfl | rfl <;> rfl
            · rename_i hopen
              rw [if_neg hopen] at h
              cases h

/-- Such a run does not look at the stack. -/
theorem handleCommand_not_open_machine {sdk : Sdk σ} {s : CommandState σ δ}
    (h : openCommand sdk s = none) (handlers : Handlers σ δ) (stack stack' : Stack) (fuel : Nat) :
    (handleCommand sdk handlers stack fuel s).2.machine =
      (handleCommand sdk handlers stack' fuel s).2.machine := by
  unfold openCommand at h
  unfold handleCommand
  simp only at h ⊢
  split
  · rfl
  · rename_i hgo
    rw [if_neg hgo] at h
    split
    · rfl
    · rename_i hpath
      rw [if_neg hpath] at h
      split
      · rfl
      · rename_i text hslice
        rw [hslice] at h
        simp only at h
        split
        · rfl
        · rename_i hstart
          rw [if_neg hstart] at h
          unfold dispatchCommand
          simp only
          split
          · rfl
          · rename_i hopen
            rw [if_neg hopen] at h
            cases h

/-- A run that reaches the loops, by how they end. -/
theorem handleCommand_loops {sdk : Sdk σ} {s s' : CommandState σ δ} {actions : JsonFieldOut}
    {m : Machine σ δ} (h : openCommand sdk s = some (actions, m)) {handlers : Handlers σ δ}
    {stack : Stack} {fuel : Nat} {flow : Flow}
    (hloops : aliasLoop sdk handlers stack actions.start ((actions.stop : Int) - actions.start)
      fuel fuel 0 { machine := m, buffer := s.buffer } = (flow, s')) :
    handleCommand sdk handlers stack fuel s =
      if flow = .finished then
        (.returned, { s' with machine := finishCommand sdk handlers s'.machine })
      else (flow, s') := by
  unfold openCommand at h
  unfold handleCommand
  simp only at h ⊢
  split at h
  · cases h
  · rename_i hgo
    rw [if_neg hgo]
    split at h
    · cases h
    · rename_i hpath
      rw [if_neg hpath]
      cases hslice : slice? s.buffer
          ((prvKiiThingIfJsonReadObject sdk s.buffer commandFields).2 0).start
          (((prvKiiThingIfJsonReadObject sdk s.buffer commandFields).2 0).stop -
            ((prvKiiThingIfJsonReadObject sdk s.buffer commandFields).2 0).start : Int) with
      | none =>
          simp only [hslice] at h
          cases h
      | some text =>
          simp only [hslice] at h ⊢
          split at h
          · cases h
          · rename_i hstart
            rw [if_neg hstart]
            unfold dispatchCommand
            simp only
            split at h
            · cases h
            · rename_i hopen
              rw [if_neg hopen]
              simp only [Option.some.injEq, Prod.mk.injEq] at h
              obtain ⟨rfl, rfl⟩ := h
              rw [hloops]
              cases flow <;> rfl

/-- A run that reaches the loops, by what the items of the message come to. -/
theorem handleCommand_of_open {sdk : Sdk σ} {s : CommandState σ δ} {actions : JsonFieldOut}
    {m : Machine σ δ} (h : openCommand sdk s = some (actions, m)) (handlers : Handlers σ δ)
    (stack : Stack) (fuel : Nat) :
    let r := perform sdk handlers stack (commandItems sdk.json stack s.buffer fuel actions) m
    let run := handleCommand sdk handlers stack fuel s
    (r.1.flow = .finished → run.1 = .returned ∧ run.2.buffer = s.buffer ∧
      run.2.machine = finishCommand sdk handlers r.2) ∧
    (r.1.flow ≠ .finished → run.1 = r.1.flow ∧ run.2.machine = r.2 ∧
      (r.1.flow = .returned → run.2.buffer = heldBuffer s.buffer r.1.held)) := by
  have hrefines := aliasLoop_refines sdk handlers stack s.buffer actions.start
    ((actions.stop : Int) - actions.start) fuel fuel 0 m
  simp only [commandItems]
  obtain ⟨⟨flow, machine, buffer⟩, hloops⟩ : ∃ r, aliasLoop sdk handlers stack actions.start
      ((actions.stop : Int) - actions.start) fuel fuel 0 { machine := m, buffer := s.buffer } = r :=
    ⟨_, rfl⟩
  rw [hloops] at hrefines
  rw [handleCommand_loops h hloops]
  generalize perform sdk handlers stack (aliasItems sdk.json stack s.buffer actions.start
    ((actions.stop : Int) - actions.start) fuel fuel 0) m = abstract at hrefines ⊢
  obtain ⟨⟨flow', held⟩, m'⟩ := abstract
  obtain ⟨hflow, hmachine, hfinished, hreturned⟩ := hrefines
  simp only at hflow hmachine hfinished hreturned
  subst hflow
  subst hmachine
  cases flow with
  | finished => exact ⟨fun _ => ⟨rfl, hfinished rfl, rfl⟩, fun hne => absurd rfl hne⟩
  | returned => exact ⟨by simp, fun _ => ⟨rfl, rfl, fun _ => hreturned rfl⟩⟩
  | undefined => exact ⟨by simp, fun _ => ⟨rfl, rfl, by simp⟩⟩
  | outOfFuel => exact ⟨by simp, fun _ => ⟨rfl, rfl, by simp⟩⟩

/-! ## Behind the loops -/

theorem length_resultsClosing : resultsClosing.length = 2 := rfl

/-- Behind the loops no handler is called. -/
theorem finishCommand_log (sdk : Sdk σ) (handlers : Handlers σ δ) (m : Machine σ δ) :
    ∃ es, (finishCommand sdk handlers m).kii.log = m.kii.log ++ es ∧ handlerCalls es = [] := by
  have hclosing := (adds_append sdk resultsClosing m.kii).log_eq
  unfold finishCommand
  simp only
  split
  · exact ⟨_, hclosing, rfl⟩
  · have hrun := kiiApiCallRun_log sdk (kiiApiCallAppendBody sdk resultsClosing m.kii).2
    rw [hclosing, List.append_assoc] at hrun
    split
    · exact ⟨_, hrun, rfl⟩
    · obtain ⟨es, hes, hlog, -⟩ := prvSendState_log sdk
        (handlers.stateHandlerForCommandReaction m.device)
        (kiiApiCallRun sdk (kiiApiCallAppendBody sdk resultsClosing m.kii).2).2
      rw [hrun, List.append_assoc] at hlog
      refine ⟨_, hlog, ?_⟩
      rw [handlerCalls_append, StateEvents.handlerCalls_eq (.inr hes)]
      rfl

section FixedBuffer

variable {sdk : Sdk σ} {remaining : σ → Nat}

/-- With room for the closing brackets the results request is run. -/
theorem finishCommand_fits (hbuf : FixedBuffer sdk.api remaining) (handlers : Handlers σ δ)
    {m : Machine σ δ} (hle : 2 ≤ remaining m.kii.core) :
    ∃ ret httpError responseCode es,
      (finishCommand sdk handlers m).kii.log = m.kii.log ++
        (.appendBody resultsClosing 0 :: .callRun ret httpError responseCode :: es) ∧
      (es = [] ∨ StateEvents es) := by
  obtain ⟨hret, -⟩ := hbuf.append_fits m.kii resultsClosing hle
  have hclosing := (adds_append sdk resultsClosing m.kii).log_eq
  rw [hret] at hclosing
  unfold finishCommand
  simp only [hret, ne_eq, not_true_eq_false, if_false]
  generalize kiiApiCallAppendBody sdk resultsClosing m.kii = closing at hclosing
  have hrun : ∃ ret httpError responseCode, (kiiApiCallRun sdk closing.2).2.log =
      closing.2.log ++ [.callRun ret httpError responseCode] := ⟨_, _, _, rfl⟩
  obtain ⟨ret, httpError, responseCode, hrun⟩ := hrun
  rw [hclosing] at hrun
  split
  · exact ⟨ret, httpError, responseCode, [], by rw [hrun]; simp, .inl rfl⟩
  · obtain ⟨es, hes, hlog, -⟩ := prvSendState_log sdk
      (handlers.stateHandlerForCommandReaction m.device) (kiiApiCallRun sdk closing.2).2
    exact ⟨ret, httpError, responseCode, es, by rw [hlog, hrun]; simp, .inr hes⟩

/-- Without room for them it is not. -/
theorem finishCommand_overflows (hbuf : FixedBuffer sdk.api remaining)
    (handlers : Handlers σ δ) {m : Machine σ δ} (hlt : remaining m.kii.core < 2) :
    ∃ ret, m.kii.Adds (finishCommand sdk handlers m).kii [.appendBody resultsClosing ret] := by
  obtain ⟨hret, -⟩ := hbuf.append_refused m.kii resultsClosing hlt
  unfold finishCommand
  simp only
  rw [if_pos hret]
  exact ⟨_, adds_append sdk resultsClosing m.kii⟩

/-! ## The two kinds of runs -/

/-- The body of the results request. -/
def resultsText (es : List Entry) : Bytes :=
  resultsOpening ++ (entriesText es ++ resultsClosing)

theorem handlerCalls_log (es : List Entry) :
    handlerCalls (es.flatMap Entry.log) = es.map Entry.call := by
  induction es with
  | nil => rfl
  | cons e es ih =>
      rw [List.flatMap_cons, handlerCalls_append, ih, List.map_cons]
      have : handlerCalls e.log = [e.call] := by
        rw [Entry.log, ← List.singleton_append, handlerCalls_append, handlerCalls_accepted]
        rfl
      rw [this]
      rfl

theorem isRun_of_mem_log {es : List Entry} {e : Event} (h : e ∈ es.flatMap Entry.log) :
    e.isRun = false := by
  rw [List.mem_flatMap] at h
  obtain ⟨entry, -, he⟩ := h
  rcases List.mem_cons.mp he with rfl | he
  · rfl
  · exact isRun_of_silent (isSilent_of_mem_accepted he)

theorem runFrom_log (body : Bytes) (es : List Entry) :
    bodyMonitor.runFrom body (es.flatMap Entry.log) = body ++ entriesText es := by
  induction es generalizing body with
  | nil => simp
  | cons e es ih =>
      rw [List.flatMap_cons, Monitor.runFrom_append, ih, entriesText_cons, ← List.append_assoc]
      congr 1
      rw [Entry.log, Monitor.runFrom_cons, runFrom_accepted]
      rfl

/-- The body that is sent when a run has closed it. -/
theorem sentBodies_results (call : ApiCall) (es : List Entry) {run : Event}
    (hrun : run.isRun = true) (rest : List Event) :
    sentBodies [] ([.callStart call 0, .appendBody resultsOpening 0] ++
        (es.flatMap Entry.log ++ .appendBody resultsClosing 0 :: run :: rest)) =
      resultsText es :: sentBodies (bodyMonitor.step (resultsText es) run) rest := by
  have hhead : bodyMonitor.runFrom [] [.callStart call 0, .appendBody resultsOpening 0] =
      resultsOpening := rfl
  rw [sentBodies_append, hhead, sentBodies_append, runFrom_log,
    sentBodies_eq_nil fun e he => isRun_of_mem_log he]
  cases run with
  | callRun ret httpError responseCode =>
      simp [sentBodies, Event.isRun, bodyMonitor, resultsText]
  | _ => cases hrun

/-- The log of a run in which the message reads to its end and everything fits. -/
theorem handleCommand_complete_log (hbuf : FixedBuffer sdk.api remaining)
    (handlers : Handlers σ δ) (stack : Stack) (fuel : Nat) {s : CommandState σ δ}
    {actions : JsonFieldOut} {m : Machine σ δ}
    (hopen : openCommand sdk s = some (actions, m)) {items : List Item}
    (hitems : commandItems sdk.json stack s.buffer fuel actions = items)
    (hend : (loopEnd items).flow = .finished)
    (hle : (entriesText (entries handlers stack items m.device).1).length + 2 ≤
      remaining m.kii.core) :
    let run := handleCommand sdk handlers stack fuel s
    run.1 = .returned ∧ run.2.buffer = s.buffer ∧
      ∃ call ret httpError responseCode rest,
        newEvents s.machine.kii run.2.machine.kii =
          [.callStart call 0, .appendBody resultsOpening 0] ++
            ((entries handlers stack items m.device).1.flatMap Entry.log ++
              .appendBody resultsClosing 0 :: .callRun ret httpError responseCode :: rest) ∧
        (rest = [] ∨ StateEvents rest) := by
  subst hitems
  have hfits : (entriesText (entries handlers stack
      (commandItems sdk.json stack s.buffer fuel actions) m.device).1).length ≤
        remaining m.kii.core := by omega
  obtain ⟨hend', hadd, -, hrem⟩ := perform_fits hbuf handlers stack hfits
  obtain ⟨hfinished, -⟩ := handleCommand_of_open hopen handlers stack fuel
  rw [hend'] at hfinished
  obtain ⟨hflow, hbuffer, hmachine⟩ := hfinished hend
  obtain ⟨ret, httpError, responseCode, rest, hlog, hrest⟩ :=
    finishCommand_fits hbuf handlers (by rw [hrem]; omega)
  obtain ⟨-, -, call, hcall⟩ := openCommand_adds hopen
  rw [← hmachine, hadd.log_eq, hcall.log_eq] at hlog
  simp only [List.append_assoc] at hlog
  exact ⟨hflow, hbuffer, call, ret, httpError, responseCode, rest, newEvents_eq hlog, hrest⟩

/-- What such a run has called and sent: every action was handed out, and the
request was run with the results of all of them. -/
theorem handleCommand_complete (hbuf : FixedBuffer sdk.api remaining) (handlers : Handlers σ δ)
    (stack : Stack) (fuel : Nat) {s : CommandState σ δ} {actions : JsonFieldOut}
    {m : Machine σ δ} (hopen : openCommand sdk s = some (actions, m)) {items : List Item}
    (hitems : commandItems sdk.json stack s.buffer fuel actions = items)
    (hend : (loopEnd items).flow = .finished)
    (hle : (entriesText (entries handlers stack items m.device).1).length + 2 ≤
      remaining m.kii.core) :
    let run := handleCommand sdk handlers stack fuel s
    let es := (entries handlers stack items m.device).1
    let new := newEvents s.machine.kii run.2.machine.kii
    run.1 = .returned ∧ run.2.buffer = s.buffer ∧ handlerCalls new = es.map Entry.call ∧
      ∃ later, sentBodies [] new = resultsText es :: later := by
  obtain ⟨hflow, hbuffer, call, ret, httpError, responseCode, rest, hlog, hrest⟩ :=
    handleCommand_complete_log hbuf handlers stack fuel hopen hitems hend hle
  simp only [hlog]
  refine ⟨hflow, hbuffer, ?_, ?_⟩
  · have hhead : handlerCalls [.callStart call 0, .appendBody resultsOpening 0] = [] := rfl
    have htail : handlerCalls (.appendBody resultsClosing 0 ::
        .callRun ret httpError responseCode :: rest) = handlerCalls rest := rfl
    rw [handlerCalls_append, handlerCalls_append, hhead, htail, StateEvents.handlerCalls_eq hrest,
      handlerCalls_log]
    simp
  · rw [sentBodies_results call _ rfl rest]
    exact ⟨_, rfl⟩

theorem finishCommand_device (sdk : Sdk σ) (handlers : Handlers σ δ) (m : Machine σ δ) :
    (finishCommand sdk handlers m).device = m.device := by
  unfold finishCommand
  simp only
  split
  · rfl
  · split <;> rfl

/-- Such a run leaves the device that the calls for all of its items leave. -/
theorem handleCommand_complete_device (hbuf : FixedBuffer sdk.api remaining)
    (handlers : Handlers σ δ) (stack : Stack) (fuel : Nat) {s : CommandState σ δ}
    {actions : JsonFieldOut} {m : Machine σ δ}
    (hopen : openCommand sdk s = some (actions, m)) {items : List Item}
    (hitems : commandItems sdk.json stack s.buffer fuel actions = items)
    (hend : (loopEnd items).flow = .finished)
    (hle : (entriesText (entries handlers stack items m.device).1).length + 2 ≤
      remaining m.kii.core) :
    (handleCommand sdk handlers stack fuel s).2.machine.device =
      (items.filterMap (Item.args stack)).foldl handlers.act m.device := by
  subst hitems
  have hfits : (entriesText (entries handlers stack
      (commandItems sdk.json stack s.buffer fuel actions) m.device).1).length ≤
        remaining m.kii.core := by omega
  obtain ⟨hend', -, hdevice, -⟩ := perform_fits hbuf handlers stack hfits
  obtain ⟨hfinished, -⟩ := handleCommand_of_open hopen handlers stack fuel
  rw [hend'] at hfinished
  obtain ⟨-, -, hmachine⟩ := hfinished hend
  rw [hmachine, finishCommand_device, hdevice, entries_device handlers stack hend]

/-- In every other run no request is run, and the handler is called exactly when
the message starts with an action. -/
theorem handleCommand_incomplete (hbuf : FixedBuffer sdk.api remaining)
    (handlers : Handlers σ δ) (stack : Stack) (fuel : Nat) {s : CommandState σ δ}
    {actions : JsonFieldOut} {m : Machine σ δ}
    (hopen : openCommand sdk s = some (actions, m)) {items : List Item}
    (hitems : commandItems sdk.json stack s.buffer fuel actions = items)
    (hnot : (loopEnd items).flow ≠ .finished ∨ remaining m.kii.core <
      (entriesText (entries handlers stack items m.device).1).length + 2) :
    let run := handleCommand sdk handlers stack fuel s
    let new := newEvents s.machine.kii run.2.machine.kii
    (∀ e ∈ new, e.isRun = false) ∧
      (handlerCalls new = [] ↔ (entries handlers stack items m.device).1 = []) := by
  subst hitems
  obtain ⟨-, -, call, hcall⟩ := openCommand_adds hopen
  obtain ⟨hfinished, hother⟩ := handleCommand_of_open hopen handlers stack fuel
  have hhead : ∀ e ∈ ([.callStart call 0, .appendBody resultsOpening 0] : List Event),
      e.isSilent = true := by
    intro e he
    simp only [List.mem_cons, List.not_mem_nil, or_false] at he
    rcases he with rfl | rfl <;> rfl
  obtain ⟨es, hadd, hrun, hcalls, -⟩ :=
    perform_adds sdk handlers stack (commandItems sdk.json stack s.buffer fuel actions) m
  have hlog := (hcall.trans hadd).log_eq
  by_cases hf : (perform sdk handlers stack (commandItems sdk.json stack s.buffer fuel actions)
    m).1.flow = .finished
  · -- the loops finished, so it is the closing brackets that do not fit
    have hfits : (entriesText (entries handlers stack
        (commandItems sdk.json stack s.buffer fuel actions) m.device).1).length ≤
          remaining m.kii.core := by
      by_contra hgt
      rw [perform_overflows hbuf handlers stack (by omega)] at hf
      cases hf
    obtain ⟨hend, -, -, hrem⟩ := perform_fits hbuf handlers stack hfits
    have hlt := hnot.resolve_left fun hne => hne (hend ▸ hf)
    obtain ⟨ret, hclosing⟩ := finishCommand_overflows hbuf handlers
      (m := (perform sdk handlers stack (commandItems sdk.json stack s.buffer fuel actions) m).2)
      (by omega)
    have hlog' := hclosing.log_eq
    rw [hlog, ← (hfinished hf).2.2, List.append_assoc] at hlog'
    simp only
    rw [newEvents_eq hlog']
    constructor
    · intro e he
      simp only [List.mem_append, List.mem_singleton] at he
      rcases he with (he | he) | rfl
      · exact isRun_of_silent (hhead e he)
      · exact hrun e he
      · rfl
    · rw [handlerCalls_append, handlerCalls_append, handlerCalls_of_silent hhead, ← hcalls]
      have : handlerCalls [.appendBody resultsClosing ret] = [] := rfl
      simp [this]
  · rw [← (hother hf).2.1] at hlog
    simp only
    rw [newEvents_eq hlog]
    constructor
    · intro e he
      rcases List.mem_append.mp he with he | he
      · exact isRun_of_silent (hhead e he)
      · exact hrun e he
    · rw [handlerCalls_append, handlerCalls_of_silent hhead, List.nil_append, hcalls]

end FixedBuffer

end ThingIfSdk
