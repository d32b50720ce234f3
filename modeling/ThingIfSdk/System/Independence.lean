import ThingIfSdk.Lib.Unwinding
import ThingIfSdk.System.Duties

/-!
# The two tasks beside each other

The calls and the messages work on one `kii_t`, the status tasks on the other.  In front,
nothing of the status tasks is noticed.  A status task is told of initialisations, of the
author that an onboarding hands over, of the tasks that `start` creates, and finds the
device as it is in each of its rounds; that is all that passes to it, so that a task that is
left alone by these runs `prv_update_status` as if nothing else happened.
-/

namespace ThingIfSdk

open ByteText JsonText Running

variable {σ δ : Type}

/-! ## In front -/

/-- What a call hands back. -/
structure CallResult where
  ret : Bool
  error : ErrorSlot
  out : Option Bytes

def Outcome.result (o : Outcome σ) : CallResult :=
  ⟨o.ret, o.error, o.out⟩

/-- What calls and messages work on. -/
structure Front (σ δ : Type) where
  commandHandler : Kii σ
  state : ThingIfState
  device : δ

def System.front (s : System σ δ) : Front σ δ :=
  ⟨s.thing.commandHandler, s.thing.state, s.device⟩

def Move.ofTasks : Move δ → Bool
  | .enter _ => true
  | .round _ => true
  | _ => false

/-- What is noticed of a step in front: the result of a call, what is done on the command
handler, and how it leaves things. -/
structure Notice (σ δ : Type) where
  result : Option CallResult
  events : List Event
  front : Front σ δ

def System.result (sdk : Sdk σ) (s : System σ δ) : Move δ → Option CallResult
  | .call invocation => some (invocation.operation.run sdk s.thing invocation.error).result
  | _ => none

def noticeOf (sdk : Sdk σ) (x : Step (System σ δ) (Move δ) (List Event)) : Notice σ δ where
  result := x.before.result sdk x.input
  events := newEvents x.before.thing.commandHandler x.after.thing.commandHandler
  front := x.after.front

def frontInput (x : Step (System σ δ) (Move δ) (List Event)) : Option (Move δ) :=
  if x.input.ofTasks then none else some x.input

section

variable {sdk : Sdk σ} {handlers : Handlers σ δ}

/-- The outcomes of two calls agree in all but the state updater. -/
structure SameInFront (o o' : Outcome σ) : Prop where
  result : o.result = o'.result
  commandHandler : o.thing.commandHandler = o'.thing.commandHandler
  state : o.thing.state = o'.thing.state

theorem onboardWith_front (f : Call σ → Bool × Call σ) {thing thing' : KiiThingIf σ}
    (hcommand : thing.commandHandler = thing'.commandHandler) (hstate : thing.state = thing'.state)
    (error : ErrorSlot) :
    SameInFront (onboardWith sdk f thing error) (onboardWith sdk f thing' error) := by
  unfold onboardWith
  simp only [hcommand, hstate]
  split
  · exact ⟨rfl, hcommand, hstate⟩
  · split
    · exact ⟨rfl, rfl, rfl⟩
    · split
      · exact ⟨rfl, rfl, rfl⟩
      · exact ⟨rfl, rfl, rfl⟩

theorem whenOnboarded_front {thing thing' : KiiThingIf σ}
    (hcommand : thing.commandHandler = thing'.commandHandler) (hstate : thing.state = thing'.state)
    (error : ErrorSlot) (request : Call σ → Bool × Call σ × Option Bytes) :
    SameInFront (whenOnboarded thing error request) (whenOnboarded thing' error request) := by
  unfold whenOnboarded
  rw [← hstate, hcommand]
  cases thing.state with
  | initialized => exact ⟨rfl, hcommand, hstate⟩
  | started => exact ⟨rfl, hcommand, hstate⟩
  | onboarded => exact ⟨rfl, rfl, rfl⟩

theorem start_front {thing thing' : KiiThingIf σ}
    (hcommand : thing.commandHandler = thing'.commandHandler)
    (hstate : thing.state = thing'.state) :
    (start sdk thing).1 = (start sdk thing').1 ∧
      (start sdk thing).2.commandHandler = (start sdk thing').2.commandHandler ∧
      (start sdk thing).2.state = (start sdk thing').2.state := by
  unfold start
  simp only [hcommand, hstate]
  split
  · exact ⟨rfl, hcommand, hstate⟩
  · split
    · exact ⟨rfl, rfl, rfl⟩
    · exact ⟨rfl, rfl, rfl⟩

/-- No call looks at the state updater for anything that is noticed in front. -/
theorem run_front (op : Operation) {thing thing' : KiiThingIf σ}
    (hcommand : thing.commandHandler = thing'.commandHandler) (hstate : thing.state = thing'.state)
    (error : ErrorSlot) : SameInFront (op.run sdk thing error) (op.run sdk thing' error) := by
  cases op with
  | init args => exact ⟨rfl, rfl, rfl⟩
  | initWithOnboardedThing args thingId accessToken => exact ⟨rfl, rfl, rfl⟩
  | onboardWithVendorThingId args => exact onboardWith_front _ hcommand hstate error
  | onboardWithThingId args => exact onboardWith_front _ hcommand hstate error
  | start =>
      obtain ⟨hret, hkii, hleft⟩ := @start_front _ sdk _ _ hcommand hstate
      refine ⟨?_, hkii, hleft⟩
      show CallResult.mk (start sdk thing).1 error none =
        CallResult.mk (start sdk thing').1 error none
      rw [hret]
  | getFirmwareVersion len => exact whenOnboarded_front hcommand hstate error _
  | updateFirmwareVersion v =>
      unfold Operation.run updateFirmwareVersion
      exact whenOnboarded_front hcommand hstate error _
  | getThingType len => exact whenOnboarded_front hcommand hstate error _
  | updateThingType v =>
      unfold Operation.run updateThingType
      exact whenOnboarded_front hcommand hstate error _

theorem Front.ext_of {s s' : System σ δ} (h : s.front = s'.front) :
    s.thing.commandHandler = s'.thing.commandHandler ∧ s.thing.state = s'.thing.state ∧
      s.device = s'.device :=
  ⟨congrArg Front.commandHandler h, congrArg Front.state h, congrArg Front.device h⟩

/-- A step of a status task leaves the front as it is. -/
theorem front_of_ofTasks (s : System σ δ) {move : Move δ} (h : move.ofTasks = true) :
    (s.step sdk handlers move).2.front = s.front := by
  cases move with
  | enter task =>
      show (s.afterEnter sdk task).2.front = s.front
      unfold System.afterEnter
      split <;> rfl
  | round task =>
      show (s.afterRound sdk handlers task).2.front = s.front
      unfold System.afterRound
      split <;> rfl
  | _ => cases h

/-- Any other step does the same on the same front. -/
theorem notice_of_front {s s' : System σ δ} (h : s.front = s'.front) {move : Move δ}
    (hmove : move.ofTasks = false) :
    noticeOf sdk ((systemMachine sdk handlers).stepAt s move) =
      noticeOf sdk ((systemMachine sdk handlers).stepAt s' move) := by
  obtain ⟨hcommand, hstate, hdevice⟩ := Front.ext_of h
  -- the events in front are read off the command handler before and behind the step
  have hnotice : ∀ x x' : Step (System σ δ) (Move δ) (List Event),
      x.before.front = x'.before.front →
      x.before.result sdk x.input = x'.before.result sdk x'.input →
      x.after.front = x'.after.front → noticeOf sdk x = noticeOf sdk x' := by
    intro x x' hbefore hresult hafter
    unfold noticeOf
    rw [hresult, hafter, (Front.ext_of hbefore).1, (Front.ext_of hafter).1]
  cases move with
  | call invocation =>
      have hsame : SameInFront (invocation.operation.run sdk s.thing invocation.error)
          (invocation.operation.run sdk s'.thing invocation.error) :=
        run_front _ hcommand hstate _
      refine hnotice _ _ h (congrArg some hsame.result) ?_
      show Front.mk _ _ s.device = Front.mk _ _ s'.device
      rw [hdevice]
      exact congrArg₂ (fun k st => Front.mk k st s'.device) hsame.commandHandler hsame.state
  | message stack fuel buffer =>
      refine hnotice _ _ h rfl ?_
      let left (k : Kii σ) (d : δ) : Machine σ δ :=
        (receivedCallback sdk handlers stack fuel ⟨⟨k, d⟩, buffer⟩).2.machine
      show Front.mk (left s.thing.commandHandler s.device).kii s.thing.state
          (left s.thing.commandHandler s.device).device =
        Front.mk (left s'.thing.commandHandler s'.device).kii s'.thing.state
          (left s'.thing.commandHandler s'.device).device
      rw [hcommand, hstate, hdevice]
  | enter task => cases hmove
  | round task => cases hmove
  | sense device =>
      refine hnotice _ _ h rfl ?_
      show Front.mk s.thing.commandHandler s.thing.state device =
        Front.mk s'.thing.commandHandler s'.thing.state device
      rw [hcommand, hstate]

theorem frontInput_of_ofTasks {x : Step (System σ δ) (Move δ) (List Event)}
    (h : x.input.ofTasks = true) : frontInput x = none :=
  if_pos h

theorem frontInput_of_front {x : Step (System σ δ) (Move δ) (List Event)}
    (h : x.input.ofTasks = false) : frontInput x = some x.input := by
  unfold frontInput
  rw [h, if_neg Bool.false_ne_true]

/-- Of the moves, the front is told of those that are not the tasks'. -/
theorem frontInputs (s : System σ δ) (moves : List (Move δ)) :
    ((systemMachine sdk handlers).steps s moves).filterMap frontInput =
      moves.filter fun move => !move.ofTasks := by
  induction moves generalizing s with
  | nil => rfl
  | cons move moves ih =>
      rw [Transducer.steps_cons]
      cases hmove : move.ofTasks with
      | true =>
          rw [List.filterMap_cons_none (frontInput_of_ofTasks hmove), ih,
            List.filter_cons_of_neg (by rw [hmove]; exact Bool.false_ne_true)]
      | false =>
          rw [List.filterMap_cons_some (frontInput_of_front hmove), ih,
            List.filter_cons_of_pos (by rw [hmove]; rfl)]
          rfl

theorem front_unwinding (sdk : Sdk σ) (handlers : Handlers σ δ) :
    Unwinding (systemMachine sdk handlers) frontInput (noticeOf sdk)
      fun s s' => s.front = s'.front where
  symm h := h.symm
  hidden := by
    intro s s' move h hhidden
    cases hmove : move.ofTasks with
    | true => exact (front_of_ofTasks s hmove).trans h
    | false =>
        rw [frontInput_of_front hmove] at hhidden
        cases hhidden
  shown := by
    intro s s' move move' v h hshown hshown'
    have hinput : ∀ {x : Step (System σ δ) (Move δ) (List Event)}, frontInput x = some v →
        x.input.ofTasks = false ∧ x.input = v := by
      intro x hx
      cases hmove : x.input.ofTasks with
      | true =>
          rw [frontInput_of_ofTasks hmove] at hx
          cases hx
      | false =>
          rw [frontInput_of_front hmove] at hx
          exact ⟨rfl, Option.some.inj hx⟩
    obtain ⟨hfront, hmove⟩ := hinput hshown
    obtain rfl : move = move' := hmove.trans (hinput hshown').2.symm
    have hsees := @notice_of_front _ _ sdk handlers _ _ h _ hfront
    exact ⟨hsees, congrArg Notice.front hsees⟩

/-- Whatever the status tasks do in between, and however many there are: the same calls and
messages on the same front come to the same. -/
theorem front_undisturbed {s s' : System σ δ} (h : s.front = s'.front)
    {moves moves' : List (Move δ)}
    (hmoves : (moves.filter fun move => !move.ofTasks) =
      moves'.filter fun move => !move.ofTasks) :
    (systemMachine sdk handlers).shows frontInput (noticeOf sdk) s moves =
        (systemMachine sdk handlers).shows frontInput (noticeOf sdk) s' moves' ∧
      ((systemMachine sdk handlers).after s moves).front =
        ((systemMachine sdk handlers).after s' moves').front := by
  apply (front_unwinding sdk handlers).shows_eq h
  rw [frontInputs, frontInputs, hmoves]

end

/-! ## Behind -/

/-- What the status tasks work on. -/
structure Back (σ : Type) where
  stateUpdater : Kii σ
  stateUpdatePeriod : Int
  tasks : List StatusTask

def System.back (s : System σ δ) : Back σ :=
  ⟨s.thing.stateUpdater, s.thing.stateUpdatePeriod, s.tasks⟩

/-- What passes to the status tasks. -/
inductive BackInput (σ δ : Type) where
  | initialised (stateUpdater : Kii σ) (stateUpdatePeriod : Int)
  | onboarded (author : Author)
  | created
  | entered (task : Nat)
  | rounds (task : Nat) (device : δ)

/-- What a call passes on, when it returned `ret` and left `thing` behind. -/
def Operation.passes (ret : Bool) (thing : KiiThingIf σ) : Operation → Option (BackInput σ δ)
  | .init _ => some (.initialised thing.stateUpdater thing.stateUpdatePeriod)
  | .initWithOnboardedThing _ _ _ => some (.initialised thing.stateUpdater thing.stateUpdatePeriod)
  | .onboardWithVendorThingId _ => if ret then some (.onboarded thing.stateUpdater.author) else none
  | .onboardWithThingId _ => if ret then some (.onboarded thing.stateUpdater.author) else none
  | .start => if ret then some .created else none
  | _ => none

def backInput (sdk : Sdk σ) (x : Step (System σ δ) (Move δ) (List Event)) :
    Option (BackInput σ δ) :=
  match x.input with
  | .call invocation =>
      invocation.operation.passes
        (invocation.operation.run sdk x.before.thing invocation.error).ret x.after.thing
  | .enter task => some (.entered task)
  | .round task => some (.rounds task x.before.device)
  | _ => none

/-- What the status tasks, and what they work on, make of it. -/
def Back.reacts (sdk : Sdk σ) (handlers : Handlers σ δ) (b : Back σ) : BackInput σ δ → Back σ
  | .initialised stateUpdater stateUpdatePeriod =>
      { b with stateUpdater := stateUpdater, stateUpdatePeriod := stateUpdatePeriod }
  | .onboarded author => { b with stateUpdater := { b.stateUpdater with author := author } }
  | .created =>
      let task := sdk.api.taskCreateCb b.stateUpdater.core (ascii "status_update_task")
      { b with
        stateUpdater := { b.stateUpdater with core := task.2 }.emit (.taskCreate task.1)
        tasks := tasksAfter b.tasks [.taskCreate task.1] }
  | .entered task =>
      if b.tasks[task]? = some .created then
        let r := enterTask sdk b.stateUpdater
        { b with stateUpdater := r.2, tasks := b.tasks.set task r.1 }
      else b
  | .rounds task device =>
      match b.tasks[task]? with
      | some (.looping resourcePath) =>
          { b with
            stateUpdater := updateStatusRound sdk b.stateUpdatePeriod resourcePath
              (handlers.stateHandlerForPeriod device) b.stateUpdater }
      | _ => b

section

variable {sdk : Sdk σ} {handlers : Handlers σ δ}

theorem tasksAfter_nil (tasks : List StatusTask) : tasksAfter tasks [] = tasks :=
  if_neg List.not_mem_nil

theorem onboardWith_back (f : Call σ → Bool × Call σ) (thing : KiiThingIf σ) (error : ErrorSlot) :
    let out := onboardWith sdk f thing error
    out.thing.stateUpdatePeriod = thing.stateUpdatePeriod ∧
      (out.ret = false → out.thing.stateUpdater = thing.stateUpdater) ∧
      (out.ret = true → out.thing.stateUpdater =
        { thing.stateUpdater with author := out.thing.stateUpdater.author }) := by
  unfold onboardWith
  simp only
  split
  · exact ⟨rfl, fun _ => rfl, fun _ => rfl⟩
  · split
    · exact ⟨rfl, fun _ => rfl, fun _ => rfl⟩
    · split
      · exact ⟨rfl, fun _ => rfl, fun _ => rfl⟩
      · refine ⟨rfl, fun hret => ?_, fun _ => rfl⟩
        cases hret

theorem whenOnboarded_back (thing : KiiThingIf σ) (error : ErrorSlot)
    (request : Call σ → Bool × Call σ × Option Bytes) :
    let out := whenOnboarded thing error request
    out.thing.stateUpdatePeriod = thing.stateUpdatePeriod ∧
      out.thing.stateUpdater = thing.stateUpdater := by
  unfold whenOnboarded
  cases thing.state with
  | initialized => exact ⟨rfl, rfl⟩
  | started => exact ⟨rfl, rfl⟩
  | onboarded => exact ⟨rfl, rfl⟩

theorem start_back (s : System σ δ) :
    let r := start sdk s.thing
    Back.mk r.2.stateUpdater r.2.stateUpdatePeriod
        (tasksAfter s.tasks (newEvents s.thing.stateUpdater r.2.stateUpdater)) =
      (if r.1 then some BackInput.created else none).elim s.back (s.back.reacts sdk handlers) := by
  unfold start
  simp only
  split
  · simp only [newEvents_self, tasksAfter_nil]
    rfl
  · split
    · simp only [newEvents_self, tasksAfter_nil]
      rfl
    · let task := sdk.api.taskCreateCb s.thing.stateUpdater.core (ascii "status_update_task")
      have hevents : newEvents s.thing.stateUpdater ({ s.thing.stateUpdater with
          core := task.2 }.emit (.taskCreate task.1)) = [.taskCreate task.1] :=
        newEvents_eq rfl
      exact congrArg (fun es => Back.mk _ _ (tasksAfter s.tasks es)) hevents

/-- What a call leaves behind is what comes of what it passes on. -/
theorem back_afterCall (s : System σ δ) (invocation : Invocation) :
    (s.afterCall sdk invocation).2.back =
      (invocation.operation.passes (invocation.operation.run sdk s.thing invocation.error).ret
        (invocation.operation.run sdk s.thing invocation.error).thing).elim s.back
          (s.back.reacts sdk handlers) := by
  -- every call leaves the back as its updater, its period, and the tasks behind its log
  show Back.mk _ _ (tasksAfter s.tasks (newEvents s.thing.stateUpdater
    (invocation.operation.run sdk s.thing invocation.error).thing.stateUpdater)) = _
  have honboard : ∀ f : Call σ → Bool × Call σ,
      let out := onboardWith sdk f s.thing invocation.error
      Back.mk out.thing.stateUpdater out.thing.stateUpdatePeriod
          (tasksAfter s.tasks (newEvents s.thing.stateUpdater out.thing.stateUpdater)) =
        (if out.ret then some (BackInput.onboarded out.thing.stateUpdater.author) else none).elim
          s.back (s.back.reacts sdk handlers) := by
    intro f out
    obtain ⟨hperiod, hfail, hdone⟩ := @onboardWith_back _ sdk f s.thing invocation.error
    cases hret : out.ret with
    | false =>
        rw [hperiod, hfail hret, newEvents_self, tasksAfter_nil]
        rfl
    | true =>
        have hlog : out.thing.stateUpdater.log = s.thing.stateUpdater.log := by
          rw [hdone hret]
        rw [hperiod, newEvents_of_log_eq hlog, tasksAfter_nil, hdone hret]
        rfl
  have hproperty : ∀ request : Call σ → Bool × Call σ × Option Bytes,
      let out := whenOnboarded s.thing invocation.error request
      Back.mk out.thing.stateUpdater out.thing.stateUpdatePeriod
        (tasksAfter s.tasks (newEvents s.thing.stateUpdater out.thing.stateUpdater)) = s.back := by
    intro request out
    obtain ⟨hperiod, hupdater⟩ := whenOnboarded_back s.thing invocation.error request
    rw [hperiod, hupdater, newEvents_self, tasksAfter_nil]
    rfl
  have hinit : ∀ {thing : KiiThingIf σ}, thing.stateUpdater.log = [] →
      Back.mk thing.stateUpdater thing.stateUpdatePeriod
          (tasksAfter s.tasks (newEvents s.thing.stateUpdater thing.stateUpdater)) =
        s.back.reacts sdk handlers
          (.initialised thing.stateUpdater thing.stateUpdatePeriod) := by
    intro thing hlog
    rw [newEvents_of_fresh hlog, tasksAfter_nil]
    rfl
  obtain ⟨op, error⟩ := invocation
  cases op with
  | init args => exact hinit (prvInitKiiThingIf_log sdk args).2
  | initWithOnboardedThing args thingId accessToken =>
      exact hinit (initWithOnboardedThing_log sdk args thingId accessToken).2
  | onboardWithVendorThingId args => exact honboard _
  | onboardWithThingId args => exact honboard _
  | start => exact start_back s
  | getFirmwareVersion len => exact hproperty _
  | updateFirmwareVersion v =>
      simp only [Operation.run, updateFirmwareVersion]
      exact hproperty _
  | getThingType len => exact hproperty _
  | updateThingType v =>
      simp only [Operation.run, updateThingType]
      exact hproperty _

/-- A step leaves behind what comes of what it passes on. -/
theorem back_step (s : System σ δ) (move : Move δ) :
    (s.step sdk handlers move).2.back =
      (backInput sdk ((systemMachine sdk handlers).stepAt s move)).elim s.back
        (s.back.reacts sdk handlers) := by
  cases move with
  | call invocation => exact back_afterCall s invocation
  | message stack fuel buffer => rfl
  | enter task =>
      show (s.afterEnter sdk task).2.back = s.back.reacts sdk handlers (.entered task)
      unfold System.afterEnter Back.reacts
      show _ = if s.tasks[task]? = some .created then _ else s.back
      split <;> rfl
  | round task =>
      show (s.afterRound sdk handlers task).2.back =
        s.back.reacts sdk handlers (.rounds task s.device)
      have htasks : s.back.tasks[task]? = s.tasks[task]? := rfl
      unfold System.afterRound Back.reacts
      simp only [htasks]
      cases s.tasks[task]? with
      | none => rfl
      | some t => cases t <;> rfl
  | sense device => rfl

theorem back_unwinding (sdk : Sdk σ) (handlers : Handlers σ δ) :
    Unwinding (systemMachine sdk handlers) (backInput sdk) (fun x => x.after.back)
      fun s s' => s.back = s'.back where
  symm h := h.symm
  hidden := by
    intro s s' move h hhidden
    show (s.step sdk handlers move).2.back = s'.back
    rw [back_step, hhidden]
    exact h
  shown := by
    intro s s' move move' v h hshown hshown'
    have hafter : (s.step sdk handlers move).2.back = (s'.step sdk handlers move').2.back := by
      rw [back_step, back_step, hshown, hshown', h]
    exact ⟨hafter, hafter⟩

theorem backInputs_roundMoves (s : System σ δ) (task : Nat) (devices : Nat → δ) (rounds : Nat) :
    ((systemMachine sdk handlers).steps s (roundMoves task devices rounds)).filterMap
        (backInput sdk) = (List.range rounds).map fun i => .rounds task (devices i) := by
  induction rounds with
  | zero => rfl
  | succ rounds ih =>
      rw [roundMoves, Transducer.steps_append, List.filterMap_append, ih, List.range_succ,
        List.map_append]
      rfl

/-- However the calls, the messages and the device go on in between: a task that is created and
that alone something passes to runs `prv_update_status`, on the device as its rounds find it. -/
theorem statusTask_undisturbed {s : System σ δ} {task : Nat} (h : s.tasks[task]? = some .created)
    {moves : List (Move δ)} {devices : Nat → δ} {rounds : Nat}
    (hpasses : ((systemMachine sdk handlers).steps s moves).filterMap (backInput sdk) =
      .entered task :: (List.range rounds).map fun i => .rounds task (devices i)) :
    ((systemMachine sdk handlers).after s moves).thing.stateUpdater =
      prvUpdateStatus sdk s.thing.stateUpdatePeriod handlers devices rounds
        s.thing.stateUpdater := by
  -- the run in which nothing else happens passes the same on
  have halone : ((systemMachine sdk handlers).steps s
      (.enter task :: roundMoves task devices rounds)).filterMap (backInput sdk) =
        .entered task :: (List.range rounds).map fun i => .rounds task (devices i) := by
    have henter : backInput sdk ((systemMachine sdk handlers).stepAt s (.enter task)) =
        some (.entered task) := rfl
    rw [Transducer.steps_cons, List.filterMap_cons_some henter, backInputs_roundMoves]
  obtain ⟨-, hsame⟩ := (back_unwinding sdk handlers).shows_eq rfl (hpasses.trans halone.symm)
  have hupdater := congrArg Back.stateUpdater hsame
  exact hupdater.trans (congrArg KiiThingIf.stateUpdater (after_enter_rounds h devices rounds))

end

end ThingIfSdk
