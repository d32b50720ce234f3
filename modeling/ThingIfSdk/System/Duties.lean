import ThingIfSdk.Command.Dispatch
import ThingIfSdk.Command.Handling
import ThingIfSdk.Lib.Refinement
import ThingIfSdk.System.Ownership

/-!
# The device and what is seen of it

From outside, an instance with its tasks is a device: messages make it perform actions,
and from time to time it tells its state.  `Duty` says this without the instance, the
submodule and the request buffer, and every run of the system refines it.
-/

namespace ThingIfSdk

open ByteText JsonText Staging Running

variable {σ δ : Type}

/-! ## What is seen -/

/-- A move, the calls of the action handler under it, and the bodies of its requests. -/
structure Deed (δ : Type) where
  move : Move δ
  calls : List HandlerCall
  bodies : List Bytes

def deedOf (x : Step (System σ δ) (Move δ) (List Event)) : Deed δ :=
  ⟨x.input, handlerCalls x.output, sentBodies [] x.output⟩

/-- What the custom push handler does with a message: whether it claims it, and the device
that it leaves. -/
def Handlers.screen (handlers : Handlers σ δ) (kii : Kii σ) (device : δ) (message : Bytes) :
    Bool × δ :=
  handlers.customPushHandler.elim (false, device) fun handler =>
    ((handler kii device message).1, (handler kii device message).2.2)

/-- The device as the handlers alone make it behave. -/
inductive Duty (json : JsonApi) (handlers : Handlers σ δ) : δ → Deed δ → δ → Prop where
  | call {device : δ} (invocation : Invocation) (bodies : List Bytes) :
      Duty json handlers device ⟨.call invocation, [], bodies⟩ device
  | sense {device : δ} (device' : δ) : Duty json handlers device ⟨.sense device', [], []⟩ device'
  | enter {device : δ} (task : Nat) : Duty json handlers device ⟨.enter task, [], []⟩ device
  | round {device : δ} (task : Nat) {bodies : List Bytes}
      (h : bodies = [] ∨ bodies = [(handlers.stateHandlerForPeriod device).text]) :
      Duty json handlers device ⟨.round task, [], bodies⟩ device
  | claimed {device : δ} {kii : Kii σ} (stack : Stack) (fuel : Nat) {message : Bytes}
      (h : (handlers.screen kii device message).1 = true) :
      Duty json handlers device ⟨.message stack fuel message, [], []⟩
        (handlers.screen kii device message).2
  | handled {device device' : δ} {kii : Kii σ} {stack : Stack} {fuel : Nat} {message : Bytes}
      {calls : List HandlerCall} {bodies : List Bytes}
      (h : (handlers.screen kii device message).1 = false)
      (hhandling : Handling handlers stack (messageItems json stack fuel message)
        (handlers.screen kii device message).2 device' calls bodies) :
      Duty json handlers device ⟨.message stack fuel message, calls, bodies⟩ device'

/-- Both state handlers give up when a piece is refused. -/
structure Handlers.Honest (handlers : Handlers σ δ) : Prop where
  command : ∀ device, (handlers.stateHandlerForCommandReaction device).Honest
  period : ∀ device, (handlers.stateHandlerForPeriod device).Honest

/-! ## Calls of the application -/

/-- The action handler is not called in between. -/
def Uncalled (before after : Kii σ) : Prop :=
  ∃ es, after.log = before.log ++ es ∧ handlerCalls es = []

theorem Uncalled.newEvents {before after : Kii σ} (h : Uncalled before after) :
    handlerCalls (newEvents before after) = [] := by
  obtain ⟨es, hlog, hcalls⟩ := h
  rw [newEvents_eq hlog, hcalls]

theorem uncalled_emit {before after : Kii σ} {e : Event} (hlog : after.log = before.log ++ [e])
    (he : e.handlerCall = none) : Uncalled before after := by
  refine ⟨[e], hlog, ?_⟩
  rw [handlerCalls, List.filterMap_cons_none he]
  rfl

theorem handlerCall_of_isLocal {e : Event} (h : e.isLocal = true) : e.handlerCall = none := by
  cases e with
  | action => cases h
  | _ => rfl

theorem respects_uncalled (sdk : Sdk σ) :
    RespectsAuthors sdk (fun _ _ => True) (@Uncalled σ) where
  refl kii := ⟨[], (List.append_nil _).symm, rfl⟩
  trans := by
    rintro k₁ k₂ k₃ ⟨es, hlog, hcalls⟩ ⟨es', hlog', hcalls'⟩
    refine ⟨es ++ es', by rw [hlog', hlog, List.append_assoc], ?_⟩
    rw [handlerCalls_append, hcalls, hcalls']
    rfl
  emit _ _ he := uncalled_emit rfl (handlerCall_of_isLocal he)
  append _ _ := uncalled_emit rfl rfl
  write bytes kii := uncalled_emit (prvWriter_result sdk bytes kii).2 rfl
  run _ := uncalled_emit rfl rfl
  start _ _ _ := uncalled_emit rfl rfl
  push _ := uncalled_emit rfl rfl
  task _ := uncalled_emit rfl rfl
  author kii _ := ⟨[], (List.append_nil _).symm, rfl⟩

section

variable {sdk : Sdk σ} {handlers : Handlers σ δ}

theorem call_uncalled (s : System σ δ) (invocation : Invocation) :
    handlerCalls (s.afterCall sdk invocation).1 = [] := by
  obtain ⟨op, error⟩ := invocation
  have hrespects := respects_uncalled sdk
  have hallows : Allows (fun (_ : Kii σ) (_ : Opening) => True) op.kinds := fun _ _ _ => trivial
  have hboth : op.isInit = false →
      Uncalled s.thing.commandHandler (op.run sdk s.thing error).thing.commandHandler ∧
        Uncalled s.thing.stateUpdater (op.run sdk s.thing error).thing.stateUpdater := by
    intro hinit
    cases hop : op.isOnboarding with
    | true => exact hrespects.onboarding hallows hop s.thing error
    | false => exact hrespects.operation hallows hinit hop s.thing error
  show handlerCalls (newEvents _ _ ++ newEvents _ _) = []
  rw [handlerCalls_append]
  cases hinit : op.isInit with
  | true =>
      obtain ⟨hcommand, hupdater⟩ := isInit_log sdk s.thing error hinit
      rw [newEvents_of_fresh hcommand, newEvents_of_fresh hupdater]
      rfl
  | false =>
      obtain ⟨hcommand, hupdater⟩ := hboth hinit
      rw [hcommand.newEvents, hupdater.newEvents]
      rfl

/-! ## Messages and rounds -/

/-- A message is claimed by the custom handler, or handled on the device that it leaves. -/
theorem receivedCallback_screen (hleave : handlers.LeaveInstance) (stack : Stack) (fuel : Nat)
    (m : Machine σ δ) (message : Bytes) :
    let screened := handlers.screen m.kii m.device message
    let run := receivedCallback sdk handlers stack fuel ⟨m, message⟩
    (screened.1 = true → run.2.machine = ⟨m.kii, screened.2⟩) ∧
      (screened.1 = false →
        run = handleCommand sdk handlers stack fuel ⟨⟨m.kii, screened.2⟩, message⟩) := by
  unfold Handlers.screen receivedCallback
  cases hcustom : handlers.customPushHandler with
  | none => exact ⟨nofun, fun _ => rfl⟩
  | some handler =>
      have hkii := hleave handler hcustom m.kii m.device message
      simp only [Option.elim_some]
      constructor
      · intro hclaims
        rw [if_pos hclaims, hkii]
      · intro hclaims
        rw [hclaims, if_neg Bool.false_ne_true, hkii]

/-- What a message comes to: nothing if it is claimed, else what handling it comes to on
the device that the custom handler left. -/
theorem message_handling {remaining : σ → Nat} (hbuf : FixedBuffer sdk.api remaining)
    (hhonest : handlers.Honest) (hleave : handlers.LeaveInstance) (s : System σ δ) (stack : Stack)
    (fuel : Nat) (message : Bytes) :
    let screened := handlers.screen s.thing.commandHandler s.device message
    let r := s.afterMessage sdk handlers stack fuel message
    (screened.1 = true → r.1 = [] ∧ r.2.device = screened.2) ∧
      (screened.1 = false → Handling handlers stack (messageItems sdk.json stack fuel message)
        screened.2 r.2.device (handlerCalls r.1) (sentBodies [] r.1)) := by
  obtain ⟨hclaimed, hhandled⟩ := @receivedCallback_screen _ _ sdk handlers hleave stack fuel
    ⟨s.thing.commandHandler, s.device⟩ message
  let run := receivedCallback sdk handlers stack fuel ⟨⟨s.thing.commandHandler, s.device⟩, message⟩
  constructor
  · intro hscreen
    have hmachine : run.2.machine = ⟨s.thing.commandHandler,
        (handlers.screen s.thing.commandHandler s.device message).2⟩ := hclaimed hscreen
    show newEvents s.thing.commandHandler run.2.machine.kii = [] ∧ run.2.machine.device = _
    rw [hmachine]
    exact ⟨newEvents_self _, rfl⟩
  · intro hscreen
    have hrun : run = handleCommand sdk handlers stack fuel ⟨⟨s.thing.commandHandler,
        (handlers.screen s.thing.commandHandler s.device message).2⟩, message⟩ :=
      hhandled hscreen
    show Handling handlers stack _ _ run.2.machine.device
      (handlerCalls (newEvents s.thing.commandHandler run.2.machine.kii))
      (sentBodies [] (newEvents s.thing.commandHandler run.2.machine.kii))
    rw [hrun]
    exact handleCommand_handling hbuf hhonest.command stack fuel
      ⟨⟨s.thing.commandHandler, (handlers.screen s.thing.commandHandler s.device message).2⟩,
        message⟩

theorem message_duty {remaining : σ → Nat} (hbuf : FixedBuffer sdk.api remaining)
    (hhonest : handlers.Honest) (hleave : handlers.LeaveInstance) (s : System σ δ) (stack : Stack)
    (fuel : Nat) (message : Bytes) :
    Duty sdk.json handlers s.device
      (deedOf ((systemMachine sdk handlers).stepAt s (.message stack fuel message)))
      (s.afterMessage sdk handlers stack fuel message).2.device := by
  obtain ⟨hclaimed, hhandled⟩ := message_handling hbuf hhonest hleave s stack fuel message
  show Duty sdk.json handlers s.device
    ⟨.message stack fuel message,
      handlerCalls (s.afterMessage sdk handlers stack fuel message).1,
      sentBodies [] (s.afterMessage sdk handlers stack fuel message).1⟩ _
  cases hscreen : (handlers.screen s.thing.commandHandler s.device message).1 with
  | true =>
      obtain ⟨hlog, hdevice⟩ := hclaimed hscreen
      rw [hlog, hdevice]
      exact .claimed stack fuel hscreen
  | false => exact .handled hscreen (hhandled hscreen)

theorem round_duty (hhonest : handlers.Honest) (s : System σ δ) (task : Nat) :
    Duty sdk.json handlers s.device
      (deedOf ((systemMachine sdk handlers).stepAt s (.round task)))
      (s.afterRound sdk handlers task).2.device := by
  show Duty sdk.json handlers s.device ⟨.round task, handlerCalls (s.afterRound sdk handlers task).1,
    sentBodies [] (s.afterRound sdk handlers task).1⟩ _
  unfold System.afterRound
  split
  · rename_i resourcePath htask
    obtain ⟨es, huploads, hlog⟩ := updateStatusRound_uploads sdk s.thing.stateUpdatePeriod
      resourcePath (hhonest.period s.device) s.thing.stateUpdater
    obtain ⟨es', hes', -, hlog'⟩ := updateStatusRound_log sdk s.thing.stateUpdatePeriod
      resourcePath (handlers.stateHandlerForPeriod s.device) s.thing.stateUpdater
    rw [hlog, List.append_cancel_left_eq] at hlog'
    have hcalls : handlerCalls es = [] := by
      rw [hlog']
      show handlerCalls es' = []
      exact StateEvents.handlerCalls_eq (.inr hes')
    simp only [newEvents_eq hlog, hcalls]
    exact .round task (huploads [])
  · exact .round task (.inl rfl)

theorem enter_duty (s : System σ δ) (task : Nat) :
    Duty sdk.json handlers s.device
      (deedOf ((systemMachine sdk handlers).stepAt s (.enter task)))
      (s.afterEnter sdk task).2.device := by
  show Duty sdk.json handlers s.device ⟨.enter task, handlerCalls (s.afterEnter sdk task).1,
    sentBodies [] (s.afterEnter sdk task).1⟩ _
  unfold System.afterEnter
  split
  · unfold enterTask
    cases prvSetStateResourcePath sdk.platform s.thing.stateUpdater.appId
        s.thing.stateUpdater.author.authorId 256 with
    | none =>
        have hlog : s.thing.stateUpdater.refusePath.log =
            s.thing.stateUpdater.log ++ [.assertion, .pathTooLong] := by
          rw [Kii.refusePath, Kii.emit_log, Kii.emit_log, List.append_assoc]
          rfl
        simp only [newEvents_eq hlog]
        exact .enter task
    | some resourcePath =>
        simp only [newEvents_self]
        exact .enter task
  · exact .enter task

theorem step_duty {remaining : σ → Nat} (hbuf : FixedBuffer sdk.api remaining)
    (hhonest : handlers.Honest) (hleave : handlers.LeaveInstance)
    {x : Step (System σ δ) (Move δ) (List Event)}
    (hx : x = (systemMachine sdk handlers).stepAt x.before x.input) :
    Duty sdk.json handlers x.before.device (deedOf x) x.after.device := by
  rw [hx]
  cases x.input with
  | call invocation =>
      have hcalls := @call_uncalled _ _ sdk x.before invocation
      show Duty sdk.json handlers x.before.device ⟨.call invocation,
        handlerCalls (x.before.afterCall sdk invocation).1, _⟩ x.before.device
      rw [hcalls]
      exact .call invocation _
  | message stack fuel message =>
      exact message_duty hbuf hhonest hleave x.before stack fuel message
  | enter task => exact enter_duty x.before task
  | round task => exact round_duty hhonest x.before task
  | sense device => exact .sense device

end

/-- Every run of the system is one of the device. -/
theorem system_refines_duty {sdk : Sdk σ} {remaining : σ → Nat}
    (hbuf : FixedBuffer sdk.api remaining) {handlers : Handlers σ δ} (hhonest : handlers.Honest)
    (hleave : handlers.LeaveInstance) (s : System σ δ) (moves : List (Move δ)) :
    Path (Duty sdk.json handlers) s.device
      (((systemMachine sdk handlers).steps s moves).map deedOf)
      ((systemMachine sdk handlers).after s moves).device := by
  let Has : System σ δ → δ → Prop := fun s device => s.device = device
  have hstep : ∀ x ∈ (systemMachine sdk handlers).steps s moves, ∀ device, Has x.before device →
      ∃ device', Duty sdk.json handlers device (deedOf x) device' ∧ Has x.after device' := by
    rintro x hx _ rfl
    exact ⟨_, step_duty hbuf hhonest hleave (Transducer.eq_stepAt_of_mem hx), rfl⟩
  obtain ⟨device, hpath, hend⟩ :=
    @Transducer.refines _ _ _ _ _ _ _ Has deedOf s moves hstep s.device rfl
  rw [show device = _ from hend.symm] at hpath
  exact hpath

/-! ## Commands, each at most once -/

/-- What a move asks of the action handler: a command its actions, a message that
`handle_command` leaves alone nothing. -/
inductive Asks (json : JsonApi) (budget : Nat) : Move δ → List HandlerArgs → Prop where
  | command {d : Doc} {commandId actions : Member} {aliases : List CommandAlias}
      (hcmd : IsCommand d commandId actions aliases) (htok : d.val.tokenCount ≤ budget)
      (stack : Stack) {fuel : Nat} (hfuel : d.val.tokenCount ≤ fuel) :
      Asks json budget (.message stack fuel d.render) (commandArgs stack aliases)
  | foreign {message : Bytes}
      (h : commandGoesOn (json.kiiJsonReadObject message commandFields) = false) (stack : Stack)
      (fuel : Nat) : Asks json budget (.message stack fuel message) []
  | other {move : Move δ} (h : ∀ stack fuel message, move ≠ .message stack fuel message) :
      Asks json budget move []

/-- The device as a move hands it to the action handler. -/
def System.found (handlers : Handlers σ δ) (s : System σ δ) : Move δ → δ
  | .message _ _ message => (handlers.screen s.thing.commandHandler s.device message).2
  | .sense device => device
  | _ => s.device

/-- The handler was called for the first `n` of the actions that were asked for, as the log
and the device show, and for all of them if any request was run. -/
structure Told (handlers : Handlers σ δ) (x : Step (System σ δ) (Move δ) (List Event))
    (asked : List HandlerArgs) (n : Nat) : Prop where
  calls : handlerCalls x.output = (asked.take n).map HandlerArgs.call
  device : x.after.device = (asked.take n).foldl handlers.act (x.before.found handlers x.input)
  whole : sentBodies [] x.output ≠ [] → asked.length ≤ n

theorem Told.front {handlers : Handlers σ δ} {x : Step (System σ δ) (Move δ) (List Event)}
    {asked : List HandlerArgs} {n : Nat} (h : Told handlers x asked n) :
    handlerCalls x.output <+: asked.map HandlerArgs.call := by
  rw [h.calls]
  exact (List.take_prefix n asked).map HandlerArgs.call

/-- The front of items that are all actions comes to calls for the front of what they ask. -/
theorem entries_take (handlers : Handlers σ δ) (stack : Stack) {items : List Item}
    (hend : (loopEnd items).flow = .finished) (n : Nat) (device : δ) :
    let asked := (items.filterMap (Item.args stack)).take n
    (entries handlers stack (items.take n) device).1.map Entry.call =
        asked.map HandlerArgs.call ∧
      (entries handlers stack (items.take n) device).2 = asked.foldl handlers.act device := by
  induction items generalizing n device with
  | nil =>
      rw [List.take_nil, List.filterMap_nil, List.take_nil]
      exact ⟨rfl, rfl⟩
  | cons item items ih =>
      cases n with
      | zero => exact ⟨rfl, rfl⟩
      | succ n =>
          cases item with
          | action i j a b v held =>
              obtain ⟨hcalls, hdevice⟩ :=
                ih hend n (callHandler handlers stack i j a b v device).2
              rw [List.filterMap_cons_some (show Item.args stack _ = some _ from rfl),
                List.take_succ_cons, List.take_succ_cons, entries]
              constructor
              · rw [List.map_cons, List.map_cons, hcalls]
                rfl
              · rw [List.foldl_cons, hdevice]
                rfl
          | fail | undefined | outOfFuel => cases hend

/-- Handling a message that is all actions performs the first of them, or all. -/
theorem Handling.front {handlers : Handlers σ δ} {stack : Stack} {items : List Item}
    {device device' : δ} {calls : List HandlerCall} {bodies : List Bytes}
    (h : Handling handlers stack items device device' calls bodies)
    (hend : (loopEnd items).flow = .finished) {asked : List HandlerArgs}
    (hasked : items.filterMap (Item.args stack) = asked) :
    ∃ n, calls = (asked.take n).map HandlerArgs.call ∧
      device' = (asked.take n).foldl handlers.act device ∧ (bodies ≠ [] → asked.length ≤ n) := by
  subst hasked
  cases h with
  | stopped n =>
      obtain ⟨hcalls, hdevice⟩ := entries_take handlers stack hend n device
      exact ⟨n, hcalls, hdevice, fun h => absurd rfl h⟩
  | reported _ hlater =>
      have hcalls : (entries handlers stack items device).1.map Entry.call =
          (items.filterMap (Item.args stack)).map HandlerArgs.call := by
        rw [entries_calls handlers stack hend, List.map_filterMap]
        simp only [Item.args_call]
      have hdevice := entries_device handlers stack hend device
      refine ⟨(items.filterMap (Item.args stack)).length, ?_, ?_, fun _ => Nat.le_refl _⟩
      · rw [List.take_length, hcalls]
      · rw [List.take_length, hdevice]

theorem Duty.other {json : JsonApi} {handlers : Handlers σ δ} {device device' : δ}
    {deed : Deed δ} (h : Duty json handlers device deed device')
    (hother : ∀ stack fuel message, deed.move ≠ .message stack fuel message) :
    deed.calls = [] ∧ (device' = device ∨ deed.move = .sense device') := by
  cases h with
  | claimed => exact absurd rfl (hother _ _ _)
  | handled => exact absurd rfl (hother _ _ _)
  | sense => exact ⟨rfl, .inr rfl⟩
  | _ => exact ⟨rfl, .inl rfl⟩

theorem messageItems_command {sdk : Sdk σ} {budget : Nat} (hjson : JsonSpec sdk.json budget)
    {d : Doc} {commandId actions : Member} {aliases : List CommandAlias}
    (hcmd : IsCommand d commandId actions aliases) (htok : d.val.tokenCount ≤ budget)
    (stack : Stack) {fuel : Nat} (hfuel : d.val.tokenCount ≤ fuel) :
    messageItems sdk.json stack fuel d.render =
      itemsOfAliases (d.tokenStart actions) 0 aliases := by
  obtain ⟨-, -, -, hstart, hstop⟩ := hjson.command d commandId actions htok hcmd.fields
  rw [messageItems, commandItems_command hjson hcmd htok stack hfuel hstart hstop]

/-- A message that does not go on past its fields leaves everything as it is. -/
theorem handleCommand_foreign {sdk : Sdk σ} {message : Bytes}
    (h : commandGoesOn (sdk.json.kiiJsonReadObject message commandFields) = false)
    (handlers : Handlers σ δ) (stack : Stack) (fuel : Nat) (m : Machine σ δ) :
    handleCommand sdk handlers stack fuel ⟨m, message⟩ = (.returned, ⟨m, message⟩) := by
  unfold handleCommand prvKiiThingIfJsonReadObject
  simp only [h, if_true]

section

variable {sdk : Sdk σ} {handlers : Handlers σ δ}

theorem afterMessage_foreign (hleave : handlers.LeaveInstance) {message : Bytes}
    (h : commandGoesOn (sdk.json.kiiJsonReadObject message commandFields) = false)
    (s : System σ δ) (stack : Stack) (fuel : Nat) :
    let r := s.afterMessage sdk handlers stack fuel message
    r.1 = [] ∧
      r.2.device = (handlers.screen s.thing.commandHandler s.device message).2 := by
  obtain ⟨hclaimed, hhandled⟩ := @receivedCallback_screen _ _ sdk handlers hleave stack fuel
    ⟨s.thing.commandHandler, s.device⟩ message
  have hmachine : (receivedCallback sdk handlers stack fuel
      ⟨⟨s.thing.commandHandler, s.device⟩, message⟩).2.machine = ⟨s.thing.commandHandler,
        (handlers.screen s.thing.commandHandler s.device message).2⟩ := by
    cases hscreen : (handlers.screen s.thing.commandHandler s.device message).1 with
    | true => exact hclaimed hscreen
    | false => rw [hhandled hscreen, handleCommand_foreign h]
  show newEvents _ _ = [] ∧ Machine.device _ = _
  rw [hmachine, newEvents_self]
  exact ⟨rfl, rfl⟩

variable {remaining : σ → Nat} {budget : Nat} (hbuf : FixedBuffer sdk.api remaining)
  (hjson : JsonSpec sdk.json budget) (hhonest : handlers.Honest) (hleave : handlers.LeaveInstance)

include hbuf hhonest hleave

/-- A message whose items are all actions. -/
theorem message_told (s : System σ δ) {stack : Stack} {fuel : Nat} {message : Bytes}
    (hend : (loopEnd (messageItems sdk.json stack fuel message)).flow = .finished)
    {asked : List HandlerArgs}
    (hasked : (messageItems sdk.json stack fuel message).filterMap (Item.args stack) = asked) :
    ∃ n, Told handlers ((systemMachine sdk handlers).stepAt s (.message stack fuel message))
      asked n := by
  obtain ⟨hclaimed, hhandled⟩ := message_handling hbuf hhonest hleave s stack fuel message
  cases hscreen : (handlers.screen s.thing.commandHandler s.device message).1 with
  | true =>
      obtain ⟨hlog, hdevice⟩ := hclaimed hscreen
      refine ⟨0, ⟨?_, hdevice, ?_⟩⟩
      · show handlerCalls (s.afterMessage sdk handlers stack fuel message).1 = []
        rw [hlog]
        rfl
      · show sentBodies [] (s.afterMessage sdk handlers stack fuel message).1 ≠ [] → _
        rw [hlog]
        exact fun h => absurd rfl h
  | false =>
      obtain ⟨n, hcalls, hdevice, hwhole⟩ := (hhandled hscreen).front hend hasked
      exact ⟨n, hcalls, hdevice, hwhole⟩

include hjson

theorem step_told (s : System σ δ) {move : Move δ} {asked : List HandlerArgs}
    (hasks : Asks sdk.json budget move asked) :
    ∃ n, Told handlers ((systemMachine sdk handlers).stepAt s move) asked n := by
  cases hasks with
  | command hcmd htok stack hfuel =>
      have hitems := messageItems_command hjson hcmd htok stack hfuel
      apply message_told hbuf hhonest hleave s
      · rw [hitems]
        exact loopEnd_itemsOfAliases _ _ _
      · rw [hitems, itemsOfAliases_args]
  | @foreign message h stack fuel =>
      obtain ⟨hlog, hdevice⟩ := afterMessage_foreign hleave h s stack fuel
      refine ⟨0, ⟨?_, hdevice, fun _ => Nat.le_refl 0⟩⟩
      show handlerCalls (s.afterMessage sdk handlers stack fuel message).1 = []
      rw [hlog]
      rfl
  | other h =>
      have hduty := step_duty hbuf hhonest hleave
        (show (systemMachine sdk handlers).stepAt s move = _ from rfl)
      obtain ⟨hcalls, hdevice⟩ := hduty.other h
      refine ⟨0, ⟨hcalls, ?_, fun _ => Nat.le_refl 0⟩⟩
      show ((systemMachine sdk handlers).stepAt s move).after.device = s.found handlers move
      cases move with
      | message stack fuel message => exact absurd rfl (h stack fuel message)
      | sense device => rfl
      | call | enter | round =>
          rcases hdevice with hdevice | hmove
          · exact hdevice
          · cases hmove

/-- In every run, commands are handed out in the order in which they came: of each command
the first actions or all of them, all of them if its handling has run a request, and none
twice. -/
theorem commands_handedOut (s : System σ δ) {moves : List (Move δ)}
    {asked : List (List HandlerArgs)} (hmoves : List.Forall₂ (Asks sdk.json budget) moves asked) :
    List.Forall₂ (fun x args => ∃ n, Told handlers x args n)
        ((systemMachine sdk handlers).steps s moves) asked ∧
      (((systemMachine sdk handlers).steps s moves).flatMap fun x => handlerCalls x.output).Sublist
        (asked.flatten.map HandlerArgs.call) := by
  induction hmoves generalizing s with
  | nil => exact ⟨.nil, List.Sublist.refl []⟩
  | @cons move args moves asked hasks _ ih =>
      obtain ⟨n, htold⟩ := step_told hbuf hjson hhonest hleave s hasks
      obtain ⟨hrest, hsublist⟩ := ih ((systemMachine sdk handlers).step s move).2
      rw [Transducer.steps_cons, List.flatMap_cons, List.flatten_cons, List.map_append]
      exact ⟨.cons ⟨n, htold⟩ hrest, htold.front.sublist.append hsublist⟩

end

/-! ## A lamp -/

theorem referenceHandlers_honest : referenceHandlers.Honest :=
  ⟨fun _ => trivial, fun _ => trivial⟩

/-- An onboarded instance with one status task. -/
def lampSystem : System Nat Nat where
  tracked :=
    { thing :=
        { commandHandler := referenceKii
          stateUpdater := referenceKii
          stateUpdatePeriod := 60
          state := .onboarded }
      credential := none }
  app := none
  device := 0
  tasks := [.looping (ascii "states")]

/-- A command, a round of the task, and the command again. -/
def lampMoves : List (Move Nat) :=
  [.message zeroStack 64 lampCommand.render, .round 0, .message zeroStack 64 lampCommand.render]

theorem lampMoves_refines :
    Path (Duty (referenceSdk 1000 64).json referenceHandlers) 0
      (((systemMachine (referenceSdk 1000 64) referenceHandlers).steps lampSystem lampMoves).map
        deedOf)
      ((systemMachine (referenceSdk 1000 64) referenceHandlers).after lampSystem lampMoves).device :=
  system_refines_duty (referenceApi_fixedBuffer 1000) referenceHandlers_honest nofun lampSystem
    lampMoves

/-- What `lampCommand` asks of the handler. -/
def lampHandout : HandlerArgs :=
  ⟨ascii "lamp", ascii "on", ascii "true", zeroStack.error 0 0⟩

theorem lampMoves_handedOut :
    let steps := (systemMachine (referenceSdk 1000 64) referenceHandlers).steps lampSystem lampMoves
    List.Forall₂ (fun x args => ∃ n, Told referenceHandlers x args n) steps
        [[lampHandout], [], [lampHandout]] ∧
      (steps.flatMap fun x => handlerCalls x.output).Sublist [lampHandout.call, lampHandout.call] := by
  have hlamp : Asks (referenceSdk 1000 64).json 64
      (.message zeroStack 64 lampCommand.render : Move Nat) (commandArgs zeroStack lampAliases) :=
    .command isCommand_lamp (by decide) zeroStack (by decide)
  exact commands_handedOut (referenceApi_fixedBuffer 1000)
    (referenceJson_spec 64 : JsonSpec (referenceSdk 1000 64).json 64) referenceHandlers_honest nofun
    lampSystem (.cons hlamp (.cons (.other nofun) (.cons hlamp .nil)))

end ThingIfSdk
