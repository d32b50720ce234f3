import ThingIfSdk.Requests.Credentials
import ThingIfSdk.System.Vocabulary

/-!
# An instance with its tasks

The calls of the application, the messages of the push routine and the rounds of the
status tasks, one after the other in any order, on one instance and one device.  A status
task builds its path when it is entered, and keeps it for all its rounds.
-/

namespace ThingIfSdk

open ByteText JsonText Staging Running

variable {σ δ : Type}

/-! ## Systems -/

/-- A task that `start` has created with `prv_update_status` as its entry. -/
inductive StatusTask where
  | created
  | looping (resourcePath : Bytes)
  /-- Its path did not fit, and it has returned. -/
  | ended
deriving DecidableEq

/-- The app id and the app key. -/
structure AppIdentity where
  appId : Bytes
  appKey : Bytes
deriving DecidableEq

/-- The instance, the device behind its handlers, and the status tasks.  `app` is what
the last initialisation was given, when it succeeded. -/
structure System (σ δ : Type) where
  tracked : Tracked σ
  app : Option AppIdentity
  device : δ
  tasks : List StatusTask

/-- What can happen next. -/
inductive Move (δ : Type) where
  | call (invocation : Invocation)
  /-- The push routine hands a message over. -/
  | message (stack : Stack) (fuel : Nat) (buffer : Bytes)
  /-- A status task that was created comes to run. -/
  | enter (task : Nat)
  /-- One round of a status task. -/
  | round (task : Nat)
  /-- The device changes on its own. -/
  | sense (device : δ)

def Move.isOnboarding : Move δ → Bool
  | .call invocation => invocation.operation.isOnboarding
  | _ => false

/-- What a call does to the app identity. -/
def appAfter (app : Option AppIdentity) (op : Operation) (ret : Bool) : Option AppIdentity :=
  match op with
  | .init args => if ret then some ⟨args.appId, args.appKey⟩ else none
  | .initWithOnboardedThing args _ _ => if ret then some ⟨args.appId, args.appKey⟩ else none
  | _ => app

/-- The status tasks behind a call. -/
def tasksAfter (tasks : List StatusTask) (events : List Event) : List StatusTask :=
  if .taskCreate true ∈ events then tasks ++ [.created] else tasks

/-- The beginning of `prv_update_status`, up to its loop. -/
def enterTask (sdk : Sdk σ) (kii : Kii σ) : StatusTask × Kii σ :=
  match prvSetStateResourcePath sdk.platform kii.appId kii.author.authorId 256 with
  | none => (.ended, kii.refusePath)
  | some resourcePath => (.looping resourcePath, kii)

namespace System

variable (sdk : Sdk σ) (handlers : Handlers σ δ) (s : System σ δ)

def thing : KiiThingIf σ :=
  s.tracked.thing

def withThing (thing : KiiThingIf σ) : System σ δ :=
  { s with tracked := { s.tracked with thing := thing } }

def afterCall (invocation : Invocation) : List Event × System σ δ :=
  let out := invocation.operation.run sdk s.thing invocation.error
  let updaterEvents := newEvents s.thing.stateUpdater out.thing.stateUpdater
  (newEvents s.thing.commandHandler out.thing.commandHandler ++ updaterEvents,
    { tracked :=
        { thing := out.thing
          credential := credentialAfter sdk s.tracked.credential invocation.operation out }
      app := appAfter s.app invocation.operation out.ret
      device := s.device
      tasks := tasksAfter s.tasks updaterEvents })

def afterMessage (stack : Stack) (fuel : Nat) (buffer : Bytes) : List Event × System σ δ :=
  let r := (receivedCallback sdk handlers stack fuel
    ⟨⟨s.thing.commandHandler, s.device⟩, buffer⟩).2
  (newEvents s.thing.commandHandler r.machine.kii,
    { s.withThing { s.thing with commandHandler := r.machine.kii } with
      device := r.machine.device })

def afterEnter (task : Nat) : List Event × System σ δ :=
  if s.tasks[task]? = some .created then
    let r := enterTask sdk s.thing.stateUpdater
    (newEvents s.thing.stateUpdater r.2,
      { s.withThing { s.thing with stateUpdater := r.2 } with tasks := s.tasks.set task r.1 })
  else ([], s)

def afterRound (task : Nat) : List Event × System σ δ :=
  match s.tasks[task]? with
  | some (.looping resourcePath) =>
      let kii := updateStatusRound sdk s.thing.stateUpdatePeriod resourcePath
        (handlers.stateHandlerForPeriod s.device) s.thing.stateUpdater
      (newEvents s.thing.stateUpdater kii,
        s.withThing { s.thing with stateUpdater := kii })
  | _ => ([], s)

def step : Move δ → List Event × System σ δ
  | .call invocation => s.afterCall sdk invocation
  | .message stack fuel buffer => s.afterMessage sdk handlers stack fuel buffer
  | .enter task => s.afterEnter sdk task
  | .round task => s.afterRound sdk handlers task
  | .sense device => ([], { s with device := device })

end System

/-- Its outputs are the entries that the logs of the instance gain. -/
def systemMachine (sdk : Sdk σ) (handlers : Handlers σ δ) :
    Transducer (System σ δ) (Move δ) (List Event) where
  step s move := s.step sdk handlers move

/-- Memory that was not initialised yet, and nothing running. -/
def System.fresh (thing : KiiThingIf σ) (device : δ) : System σ δ where
  tracked := ⟨thing, none⟩
  app := none
  device := device
  tasks := []

@[simp] theorem System.withThing_thing (s : System σ δ) (thing : KiiThingIf σ) :
    (s.withThing thing).thing = thing := rfl

@[simp] theorem System.withThing_tasks (s : System σ δ) (thing : KiiThingIf σ) :
    (s.withThing thing).tasks = s.tasks := rfl

@[simp] theorem System.withThing_self (s : System σ δ) : s.withThing s.thing = s := rfl

@[simp] theorem System.withThing_withThing (s : System σ δ) (thing thing' : KiiThingIf σ) :
    (s.withThing thing).withThing thing' = s.withThing thing' := rfl

/-! ## A status task on its own -/

/-- Rounds of a task, the device changing before each of them. -/
def roundMoves (task : Nat) (devices : Nat → δ) : Nat → List (Move δ)
  | 0 => []
  | rounds + 1 => roundMoves task devices rounds ++ [.sense (devices rounds), .round task]

section

variable {sdk : Sdk σ} {handlers : Handlers σ δ} {s : System σ δ}

/-- What rounds of a task come to on its `kii_t`. -/
def StatusTask.rounds (sdk : Sdk σ) (stateUpdatePeriod : Int) (handlers : Handlers σ δ)
    (devices : Nat → δ) (rounds : Nat) (kii : Kii σ) : StatusTask → Kii σ
  | .looping resourcePath =>
      updateStatusRounds sdk stateUpdatePeriod resourcePath handlers devices kii rounds
  | _ => kii

theorem prvUpdateStatus_eq (sdk : Sdk σ) (stateUpdatePeriod : Int) (handlers : Handlers σ δ)
    (devices : Nat → δ) (rounds : Nat) (kii : Kii σ) :
    prvUpdateStatus sdk stateUpdatePeriod handlers devices rounds kii =
      (enterTask sdk kii).1.rounds sdk stateUpdatePeriod handlers devices rounds
        (enterTask sdk kii).2 := by
  unfold prvUpdateStatus enterTask
  cases prvSetStateResourcePath sdk.platform kii.appId kii.author.authorId 256 with
  | none => rfl
  | some resourcePath => rfl

/-- One round of a task, as the device is then. -/
theorem afterRound_thing {task : Nat} {t : StatusTask} (h : s.tasks[task]? = some t) :
    (s.afterRound sdk handlers task).2.tasks = s.tasks ∧
      (s.afterRound sdk handlers task).2.thing = { s.thing with
        stateUpdater := t.rounds sdk s.thing.stateUpdatePeriod handlers (fun _ => s.device) 1
          s.thing.stateUpdater } := by
  unfold System.afterRound
  rw [h]
  cases t with
  | created => exact ⟨rfl, rfl⟩
  | looping resourcePath => exact ⟨rfl, rfl⟩
  | ended => exact ⟨rfl, rfl⟩

/-- The rounds of a task are those of `prv_update_status`. -/
theorem after_roundMoves {task : Nat} {t : StatusTask} (h : s.tasks[task]? = some t)
    (devices : Nat → δ) (rounds : Nat) :
    let s' := (systemMachine sdk handlers).after s (roundMoves task devices rounds)
    s'.tasks = s.tasks ∧ s'.thing = { s.thing with
      stateUpdater := t.rounds sdk s.thing.stateUpdatePeriod handlers devices rounds
        s.thing.stateUpdater } := by
  induction rounds with
  | zero => cases t <;> exact ⟨rfl, rfl⟩
  | succ rounds ih =>
      obtain ⟨htasks, hthing⟩ := ih
      rw [roundMoves, Transducer.after_append]
      -- the state behind the earlier rounds
      generalize (systemMachine sdk handlers).after s (roundMoves task devices rounds) = s₁ at *
      let sensed : System σ δ := { s₁ with device := devices rounds }
      have hsensed : sensed.tasks[task]? = some t := by
        show s₁.tasks[task]? = some t
        rw [htasks, h]
      obtain ⟨hsame, hround⟩ := @afterRound_thing _ _ sdk handlers sensed task t hsensed
      refine ⟨hsame.trans htasks, hround.trans ?_⟩
      show { s₁.thing with
        stateUpdater := t.rounds sdk s₁.thing.stateUpdatePeriod handlers (fun _ => devices rounds) 1
          s₁.thing.stateUpdater } = _
      rw [hthing]
      cases t <;> rfl

/-- A task that is entered and left alone runs `prv_update_status` on its instance. -/
theorem after_enter_rounds {task : Nat} (h : s.tasks[task]? = some .created)
    (devices : Nat → δ) (rounds : Nat) :
    ((systemMachine sdk handlers).after s (.enter task :: roundMoves task devices rounds)).thing =
      { s.thing with
        stateUpdater := prvUpdateStatus sdk s.thing.stateUpdatePeriod handlers devices rounds
          s.thing.stateUpdater } := by
  let entered : System σ δ :=
    { s.withThing { s.thing with stateUpdater := (enterTask sdk s.thing.stateUpdater).2 } with
      tasks := s.tasks.set task (enterTask sdk s.thing.stateUpdater).1 }
  have henter : (s.afterEnter sdk task).2 = entered := by
    unfold System.afterEnter
    rw [if_pos h]
  have htask : entered.tasks[task]? = some (enterTask sdk s.thing.stateUpdater).1 :=
    List.getElem?_set_self (List.getElem?_eq_some_iff.mp h).1
  show ((systemMachine sdk handlers).after (s.afterEnter sdk task).2
    (roundMoves task devices rounds)).thing = _
  rw [henter, (@after_roundMoves _ _ sdk handlers entered task _ htask devices rounds).2,
    prvUpdateStatus_eq]
  rfl

end

end ThingIfSdk
