import ThingIfSdk.Command.Dispatch
import ThingIfSdk.Lib.Replica
import ThingIfSdk.Requests.State

/-!
# The two tasks side by side

The push task and the status task send the state of one device, each with a `kii_t`
of its own.  Nothing orders the snapshot of one against the delivery of the other: a
status round that took its snapshot before a command may deliver it behind it.  An
interleaving is a list of tagged log entries whose two projections are logs of the
two functions.
-/

namespace ThingIfSdk

open ByteText JsonText Monitoring Replication Running

variable {σ δ : Type}

/-! ## Interleavings -/

inductive Task where
  /-- It handles the commands, one after the other. -/
  | push
  /-- `prv_update_status`. -/
  | status
deriving DecidableEq

/-- An entry that one of the tasks logs.  An action handler leaves the device in the
given state, and a request that is run is delivered or not. -/
structure Happening (δ : Type) where
  task : Task
  event : Event
  device : δ
  delivered : Bool

/-- What an entry does to the device, the snapshots and the server. -/
def Happening.act (h : Happening δ) : Option (Act δ) :=
  match h.event with
  | .action .. => some (.change h.device)
  | .stateHandler true => some .take
  | .callRun .. => some (.send h.delivered)
  | _ => none

/-- The device and the server's copy of its state, with the requests that are built. -/
abbrev TaskWorld (δ : Type) := World Task δ

def taskMachine (δ : Type) : Transducer (TaskWorld δ) (Happening δ) Unit :=
  machine Happening.task Happening.act

/-- Neither task has a request under way. -/
def restingTasks (device : δ) (server : Option δ) : TaskWorld δ where
  source := device
  replica := server
  held _ := none

/-- What one of the tasks has logged. -/
def taskEvents (task : Task) (hs : List (Happening δ)) : List Event :=
  hs.filterMap fun h => if h.task = task then some h.event else none

/-- A log of the push task: commands that were handled one after the other. -/
inductive PushLog (sdk : Sdk σ) (handlers : Handlers σ δ) : List Event → Prop where
  | nil : PushLog sdk handlers []
  | command {log : List Event} (h : PushLog sdk handlers log) (stack : Stack) (fuel : Nat)
      (s : CommandState σ δ) :
      PushLog sdk handlers
        (log ++ newEvents s.machine.kii (handleCommand sdk handlers stack fuel s).2.machine.kii)

/-- A log of the status task. -/
def StatusLog (sdk : Sdk σ) (handlers : Handlers σ δ) (log : List Event) : Prop :=
  ∃ period devices rounds kii,
    log = newEvents kii (prvUpdateStatus sdk period handlers devices rounds kii)

/-- A run of the two tasks, up to any point. -/
structure Interleaves (sdk : Sdk σ) (handlers : Handlers σ δ) (hs : List (Happening δ)) :
    Prop where
  push : ∃ log, PushLog sdk handlers log ∧ taskEvents .push hs <+: log
  status : ∃ log, StatusLog sdk handlers log ∧ taskEvents .status hs <+: log

/-- The state request of a command is delivered. -/
structure DeliversCommand (x : Step (TaskWorld δ) (Happening δ) Unit) : Prop where
  task : x.input.task = .push
  act : x.input.act = some (.send true)
  held : x.before.held .push ≠ none

/-- The status task delivers a snapshot that is not of the present device. -/
structure DeliversStaleStatus (x : Step (TaskWorld δ) (Happening δ) Unit) : Prop where
  task : x.input.task = .status
  act : x.input.act = some (.send true)
  stale : ∃ snapshot, x.before.held .status = some snapshot ∧ snapshot ≠ x.before.source

/-! ## Requests of the push task -/

def Event.isSnapshot : Event → Bool
  | .stateHandler ret => ret
  | _ => false

/-- Whether the last entry is a snapshot. -/
def snapshotMonitor : Monitor Event Bool where
  start := false
  step _ e := e.isSnapshot

/-- Behind a snapshot the request is run at once. -/
def runsSnapshot (holds : Bool) (e : Event) : Prop :=
  holds = true → e.isRun = true

/-- Every snapshot of the log is run at once, the last one included. -/
structure Orderly (log : List Event) : Prop where
  safe : snapshotMonitor.SafeFrom runsSnapshot false log
  rests : snapshotMonitor.runFrom false log = false

theorem Orderly.nil : Orderly [] :=
  ⟨trivial, rfl⟩

theorem Orderly.append {log log' : List Event} (h : Orderly log) (h' : Orderly log') :
    Orderly (log ++ log') := by
  constructor
  · rw [Monitor.safeFrom_append, h.rests]
    exact ⟨h.safe, h'.safe⟩
  · rw [Monitor.runFrom_append, h.rests]
    exact h'.rests

theorem orderly_of_no_snapshot {log : List Event} (h : ∀ e ∈ log, e.isSnapshot = false) :
    Orderly log := by
  induction log with
  | nil => exact .nil
  | cons e log ih =>
      have hone : Orderly [e] := ⟨⟨nofun, trivial⟩, h e List.mem_cons_self⟩
      exact hone.append (ih fun e' he' => h e' (List.mem_cons_of_mem e he'))

theorem isSnapshot_of_not_stateHandler {e : Event} (h : ∀ ret, e ≠ .stateHandler ret) :
    e.isSnapshot = false := by
  cases e with
  | stateHandler ret => exact absurd rfl (h ret)
  | _ => rfl

theorem isSnapshot_of_isWrite {e : Event} (h : e.isWrite = true) : e.isSnapshot = false := by
  cases e with
  | write buff ret => rfl
  | _ => cases h

theorem StateEvents.orderly {es : List Event} (h : StateEvents es) : Orderly es := by
  have hwrites : ∀ {writes : List Event} (call : ApiCall), (∀ e ∈ writes, e.isWrite = true) →
      Orderly (.callStart call 0 :: writes) := by
    intro writes call hw
    refine orderly_of_no_snapshot fun e he => ?_
    rcases List.mem_cons.mp he with rfl | he
    · rfl
    · exact isSnapshot_of_isWrite (hw e he)
  cases h with
  | refused => exact orderly_of_no_snapshot (by simp [Event.isSnapshot])
  | notStarted call h => exact orderly_of_no_snapshot (by simp [Event.isSnapshot])
  | notWritten call h =>
      have hlast : Orderly [.stateHandler false] := orderly_of_no_snapshot (by simp [Event.isSnapshot])
      exact (hwrites call h).append hlast
  | run call h ret httpError responseCode =>
      have hlast : Orderly [.stateHandler true, .callRun ret httpError responseCode] :=
        ⟨⟨nofun, fun _ => rfl, trivial⟩, rfl⟩
      exact (hwrites call h).append hlast

theorem finishCommand_orderly (sdk : Sdk σ) (handlers : Handlers σ δ) (m : Machine σ δ) :
    ∃ es, (finishCommand sdk handlers m).kii.log = m.kii.log ++ es ∧ Orderly es := by
  have hclosing := (adds_append sdk resultsClosing m.kii).log_eq
  unfold finishCommand
  simp only
  split
  · exact ⟨_, hclosing, orderly_of_no_snapshot (by simp [Event.isSnapshot])⟩
  · have hrun := kiiApiCallRun_log sdk (kiiApiCallAppendBody sdk resultsClosing m.kii).2
    rw [hclosing, List.append_assoc] at hrun
    split
    · exact ⟨_, hrun, orderly_of_no_snapshot (by simp [Event.isSnapshot])⟩
    · obtain ⟨es, hes, hlog, -⟩ := prvSendState_log sdk
        (handlers.stateHandlerForCommandReaction m.device)
        (kiiApiCallRun sdk (kiiApiCallAppendBody sdk resultsClosing m.kii).2).2
      rw [hrun, List.append_assoc] at hlog
      exact ⟨_, hlog,
        (orderly_of_no_snapshot (by simp [Event.isSnapshot])).append hes.orderly⟩

theorem handleCommand_orderly (sdk : Sdk σ) (handlers : Handlers σ δ) (stack : Stack)
    (fuel : Nat) (s : CommandState σ δ) :
    Orderly (newEvents s.machine.kii (handleCommand sdk handlers stack fuel s).2.machine.kii) := by
  have hquiet : ∀ {es : List Event}, (∀ ret, .stateHandler ret ∉ es) → Orderly es := by
    intro es hes
    refine orderly_of_no_snapshot fun e he => isSnapshot_of_not_stateHandler ?_
    rintro ret rfl
    exact hes ret he
  cases hopen : openCommand sdk s with
  | none =>
      obtain ⟨es, hadd, -, -, -, -, hstate⟩ := handleCommand_of_not_open hopen handlers stack fuel
      rw [newEvents_eq hadd.log_eq]
      exact hquiet hstate
  | some r =>
      obtain ⟨actions, m⟩ := r
      obtain ⟨-, -, call, hcall⟩ := openCommand_adds hopen
      obtain ⟨hfinished, hother⟩ := handleCommand_of_open hopen handlers stack fuel
      obtain ⟨es, hadd, -, -, -, hstate⟩ :=
        perform_adds sdk handlers stack (commandItems sdk.json stack s.buffer fuel actions) m
      have hfront := (hcall.trans hadd).log_eq
      have horderly : Orderly ([.callStart call 0, .appendBody resultsOpening 0] ++ es) :=
        (orderly_of_no_snapshot (by simp [Event.isSnapshot])).append (hquiet hstate)
      by_cases hf : (perform sdk handlers stack (commandItems sdk.json stack s.buffer fuel actions)
          m).1.flow = .finished
      · rw [(hfinished hf).2.2]
        obtain ⟨tail, htail, htailOrderly⟩ := finishCommand_orderly sdk handlers
          (perform sdk handlers stack (commandItems sdk.json stack s.buffer fuel actions) m).2
        rw [hfront, List.append_assoc] at htail
        rw [newEvents_eq htail]
        exact horderly.append htailOrderly
      · rw [(hother hf).2.1, newEvents_eq hfront]
        exact horderly

theorem PushLog.orderly {sdk : Sdk σ} {handlers : Handlers σ δ} {log : List Event}
    (h : PushLog sdk handlers log) : Orderly log := by
  induction h with
  | nil => exact .nil
  | command _ stack fuel s ih => exact ih.append (handleCommand_orderly sdk handlers stack fuel s)

/-! ## Requests of the status task -/

/-- The status task does not act on the device. -/
theorem StatusLog.handlerCalls_eq {sdk : Sdk σ} {handlers : Handlers σ δ} {log : List Event}
    (h : StatusLog sdk handlers log) : handlerCalls log = [] := by
  obtain ⟨period, devices, rounds, kii, rfl⟩ := h
  unfold prvUpdateStatus
  cases prvSetStateResourcePath sdk.platform kii.appId kii.author.authorId 256 with
  | none =>
      have hlog : kii.refusePath.log = kii.log ++ [.assertion, .pathTooLong] :=
        List.append_assoc _ _ _
      simp only [newEvents_eq hlog]
      rfl
  | some resourcePath =>
      obtain ⟨rs, -, hrs, hlog⟩ := updateStatusRounds_log sdk period resourcePath handlers devices
        kii rounds
      simp only [newEvents_eq hlog]
      rw [handlerCalls, List.filterMap_flatMap, List.flatMap_eq_nil_iff]
      intro es hes
      show handlerCalls es = []
      exact StateEvents.handlerCalls_eq (.inr (hrs es hes).1)

/-! ## The projections of an interleaving -/

theorem taskEvents_cons_self {h : Happening δ} {hs : List (Happening δ)} {task : Task}
    (htask : h.task = task) : taskEvents task (h :: hs) = h.event :: taskEvents task hs := by
  unfold taskEvents
  rw [List.filterMap_cons, if_pos htask]

theorem taskEvents_cons_of_ne {h : Happening δ} {hs : List (Happening δ)} {task : Task}
    (htask : h.task ≠ task) : taskEvents task (h :: hs) = taskEvents task hs := by
  unfold taskEvents
  rw [List.filterMap_cons, if_neg htask]

theorem Interleaves.safe {sdk : Sdk σ} {handlers : Handlers σ δ} {hs : List (Happening δ)}
    (h : Interleaves sdk handlers hs) :
    snapshotMonitor.SafeFrom runsSnapshot false (taskEvents .push hs) := by
  obtain ⟨log, hlog, rest, hrest⟩ := h.push
  have hsafe := hlog.orderly.safe
  rw [← hrest, Monitor.safeFrom_append] at hsafe
  exact hsafe.1

theorem Interleaves.status_quiet {sdk : Sdk σ} {handlers : Handlers σ δ}
    {hs : List (Happening δ)} (h : Interleaves sdk handlers hs) :
    ∀ y ∈ hs, y.task = .status → y.event.handlerCall = none := by
  intro y hy htask
  obtain ⟨log, hlog, hprefix⟩ := h.status
  have hmem : y.event ∈ log := by
    refine hprefix.subset ?_
    unfold taskEvents
    rw [List.mem_filterMap]
    exact ⟨y, hy, if_pos htask⟩
  have hnone := hlog.handlerCalls_eq
  rw [handlerCalls, List.filterMap_eq_nil_iff] at hnone
  exact hnone y.event hmem

/-- Only a call of the action handler changes the device. -/
theorem action_of_changes {h : Happening δ} {a : Act δ} (hact : h.act = some a)
    (hkeeps : a.keeps = false) :
    ∃ aliasName actionName actionParams errorMessage,
      h.event = .action aliasName actionName actionParams errorMessage := by
  unfold Happening.act at hact
  split at hact
  · exact ⟨_, _, _, _, by assumption⟩
  all_goals
    cases hact
    try cases hkeeps

/-- The next entry of the push task does what the monitor says: what the task holds
behind it is a snapshot that was taken just then. -/
theorem holds_of_push {w : TaskWorld δ} {h : Happening δ} (htask : h.task = .push)
    (hallowed : runsSnapshot (w.held .push).isSome h.event) :
    (((taskMachine δ).step w h).2.held .push).isSome = h.event.isSnapshot := by
  -- Behind a snapshot the monitor lets nothing but the run pass.
  have hkept : h.event.isRun = false → w.held .push = none := by
    intro hrun
    cases hheld : w.held .push with
    | none => rfl
    | some snapshot =>
        have hruns := hallowed (by rw [hheld]; rfl)
        rw [hrun] at hruns
        cases hruns
  unfold taskMachine machine Happening.act
  simp only [htask]
  cases hevent : h.event with
  | callRun ret httpError responseCode =>
      simp only [Option.elim_some, send_held]
      rfl
  | stateHandler ret =>
      rw [hevent] at hkept
      cases ret with
      | true =>
          simp only [Option.elim_some, take_held]
          rfl
      | false =>
          simp only [Option.elim_none, hkept rfl]
          rfl
  | action a n v message =>
      rw [hevent] at hkept
      simp only [Option.elim_some, World.step, hkept rfl]
      rfl
  | _ =>
      rw [hevent] at hkept
      simp only [Option.elim_none, hkept rfl]
      rfl

/-- Where the device changes, the push task holds no snapshot. -/
theorem push_holds_none {hs : List (Happening δ)} {w : TaskWorld δ}
    (hsafe : snapshotMonitor.SafeFrom runsSnapshot (w.held .push).isSome (taskEvents .push hs))
    (hquiet : ∀ y ∈ hs, y.task = .status → y.event.handlerCall = none) :
    ∀ x ∈ (taskMachine δ).steps w hs, ∀ a, x.input.act = some a → a.keeps = false →
      x.before.held .push = none := by
  induction hs generalizing w with
  | nil =>
      intro x hx
      cases hx
  | cons h hs ih =>
      have hrest := fun y hy => hquiet y (List.mem_cons_of_mem h hy)
      intro x hx a hact hkeeps
      cases htask : h.task with
      | push =>
          rw [taskEvents_cons_self htask] at hsafe
          obtain ⟨hallowed, hsafe⟩ := hsafe
          have hbehind : snapshotMonitor.SafeFrom runsSnapshot
              (((taskMachine δ).step w h).2.held .push).isSome (taskEvents .push hs) := by
            rw [holds_of_push htask hallowed]
            exact hsafe
          rcases List.mem_cons.mp hx with rfl | hx
          · obtain ⟨aliasName, actionName, actionParams, message, hevent⟩ :=
              action_of_changes hact hkeeps
            cases hheld : w.held .push with
            | none => exact hheld
            | some snapshot =>
                rw [hheld] at hallowed
                have hruns : h.event.isRun = true := hallowed rfl
                rw [show h.event = _ from hevent] at hruns
                cases hruns
          · exact ih hbehind hrest x hx a hact hkeeps
      | status =>
          have hne : h.task ≠ .push := by
            rw [htask]
            decide
          rw [taskEvents_cons_of_ne hne] at hsafe
          -- The status task changes neither what the push task holds nor the device.
          have hsame : ((taskMachine δ).step w h).2.held .push = w.held .push := by
            show (h.act.elim w (w.step h.task)).held .push = _
            cases h.act with
            | none => rfl
            | some b => exact step_held_of_ne hne.symm
          rcases List.mem_cons.mp hx with rfl | hx
          · obtain ⟨aliasName, actionName, actionParams, message, hevent⟩ :=
              action_of_changes hact hkeeps
            have hnone := hquiet h List.mem_cons_self htask
            rw [show h.event = _ from hevent] at hnone
            cases hnone
          · rw [← hsame] at hsafe
            exact ih hsafe hrest x hx a hact hkeeps

/-! ## What the server has -/

/-- The push task holds no snapshot but of the present device. -/
theorem push_fresh {sdk : Sdk σ} {handlers : Handlers σ δ} {hs : List (Happening δ)}
    (hs_runs : Interleaves sdk handlers hs) (device : δ) (server : Option δ) :
    ∀ x ∈ (taskMachine δ).steps (restingTasks device server) hs,
      x.before.Fresh .push ∧ x.after.Fresh .push := by
  have hfresh : (restingTasks device server).Fresh .push := nofun
  exact fresh_run hfresh (push_holds_none hs_runs.safe hs_runs.status_quiet)

/-- In every interleaving, the delivery of a command's state puts the present device on
the server; and until the device changes the copy stays as it is, exactly if no status
round delivers a snapshot of another device, which it then had taken before that. -/
theorem server_keeps_command (sdk : Sdk σ) (handlers : Handlers σ δ) {hs : List (Happening δ)}
    (hruns : Interleaves sdk handlers hs) (device : δ) (server : Option δ)
    {front rest : List (Step (TaskWorld δ) (Happening δ) Unit)}
    {x : Step (TaskWorld δ) (Happening δ) Unit}
    (hsteps : (taskMachine δ).steps (restingTasks device server) hs = front ++ x :: rest)
    (hdelivers : DeliversCommand x)
    (hkeeps : ∀ y ∈ rest, ∀ a, y.input.act = some a → a.keeps = true) :
    x.after.Current ∧
      ((∀ y ∈ rest, y.after.Current) ↔ ∀ y ∈ rest, ¬ DeliversStaleStatus y) ∧
      ∀ y ∈ rest, DeliversStaleStatus y → y.before.held .status = x.before.held .status := by
  have hfresh := push_fresh hruns device server
  rw [hsteps] at hfresh
  have hx : x ∈ (taskMachine δ).steps (restingTasks device server) hs := by
    rw [hsteps]
    simp
  have hafter : x.after = x.before.step .push (.send true) := by
    have h := after_of_mem hx
    rw [hdelivers.act, hdelivers.task] at h
    exact h
  obtain ⟨snapshot, hheld⟩ := Option.ne_none_iff_exists'.mp hdelivers.held
  have hcurrent : x.after.Current := by
    rw [hafter]
    exact current_of_send hheld (hfresh x (by simp)).1
  obtain ⟨inputs, rfl⟩ := Transducer.steps_behind hsteps
  -- Only the status task can send a stale snapshot, as the push task holds fresh ones.
  have hstale : ∀ y ∈ (taskMachine δ).steps x.after inputs,
      (∀ a, y.input.act = some a → ¬ y.before.SendsStale y.input.task a) ↔
        ¬ DeliversStaleStatus y := by
    intro y hy
    constructor
    · rintro hnot ⟨htask, hact, hstale⟩
      refine hnot _ hact ⟨rfl, ?_⟩
      rw [htask]
      exact hstale
    · rintro hnot a hact ⟨rfl, snapshot, hheld, hne⟩
      cases htask : y.input.task with
      | push =>
          rw [htask] at hheld
          exact hne ((hfresh y (by simp [hy])).1 snapshot hheld)
      | status =>
          rw [htask] at hheld
          exact hnot ⟨htask, hact, snapshot, hheld, hne⟩
  refine ⟨hcurrent, ?_, ?_⟩
  · exact (current_run_iff hcurrent hkeeps).trans (forall₂_congr hstale)
  · rintro y hy ⟨-, -, snapshot, hheld, hne⟩
    rcases held_or_fresh_run .status hkeeps y hy with hfresh | hsame
    · exact absurd (hfresh snapshot hheld) hne
    · rw [hsame, hafter]
      exact step_held_of_ne nofun

/-! ## A round that is late -/

/-- An entry of a run in which every request is delivered and the lamp goes on. -/
def delivered (task : Task) (e : Event) : Happening Nat where
  task := task
  event := e
  device := 1
  delivered := true

theorem taskEvents_append (task : Task) (hs hs' : List (Happening δ)) :
    taskEvents task (hs ++ hs') = taskEvents task hs ++ taskEvents task hs' :=
  List.filterMap_append

theorem taskEvents_delivered (task task' : Task) (log : List Event) :
    taskEvents task (log.map (delivered task')) = if task' = task then log else [] := by
  unfold taskEvents
  rw [List.filterMap_map]
  by_cases htask : task' = task
  · rw [if_pos htask]
    refine (List.filterMap_congr fun e _ => ?_).trans List.filterMap_some
    exact if_pos htask
  · rw [if_neg htask, List.filterMap_eq_nil_iff]
    intro e _
    exact if_neg htask

/-- What the push task logs for the command that puts the lamp on. -/
def lampLog : List Event :=
  newEvents referenceMachine.kii (handleCommand (referenceSdk 1000 64) referenceHandlers zeroStack
    64 ⟨referenceMachine, lampCommand.render⟩).2.machine.kii

/-- What the status task logs in one round. -/
def roundLog : List Event :=
  newEvents referenceKii
    (prvUpdateStatus (referenceSdk 1000 64) 60 referenceHandlers (fun _ => 0) 1 referenceKii)

theorem pushLog_lamp : PushLog (referenceSdk 1000 64) referenceHandlers lampLog := by
  have hlog : PushLog (referenceSdk 1000 64) referenceHandlers _ :=
    .command .nil zeroStack 64 ⟨referenceMachine, lampCommand.render⟩
  rw [List.nil_append] at hlog
  unfold lampLog
  exact hlog

theorem statusLog_round : StatusLog (referenceSdk 1000 64) referenceHandlers roundLog := by
  unfold roundLog
  exact ⟨60, fun _ => 0, 1, referenceKii, rfl⟩

def lastRun : Event := .callRun 0 .none 204

theorem lampLog_eq : lampLog = lampLog.dropLast ++ [lastRun] := by
  decide +kernel

theorem roundLog_eq : roundLog = roundLog.dropLast ++ [lastRun] := by
  decide +kernel

/-- The round runs behind the command. -/
def promptRound : List (Happening Nat) :=
  lampLog.map (delivered .push) ++ roundLog.map (delivered .status)

/-- The round takes its snapshot before the command, and runs its request behind it. -/
def lateRound : List (Happening Nat) :=
  roundLog.dropLast.map (delivered .status) ++
    (lampLog.map (delivered .push) ++ [lastRun].map (delivered .status))

theorem promptRound_interleaves :
    Interleaves (referenceSdk 1000 64) referenceHandlers promptRound := by
  have hpush : taskEvents .push promptRound = lampLog := by
    simp [promptRound, taskEvents_append, taskEvents_delivered]
  have hstatus : taskEvents .status promptRound = roundLog := by
    simp [promptRound, taskEvents_append, taskEvents_delivered]
  exact ⟨⟨lampLog, pushLog_lamp, by rw [hpush]⟩, ⟨roundLog, statusLog_round, by rw [hstatus]⟩⟩

theorem lateRound_interleaves :
    Interleaves (referenceSdk 1000 64) referenceHandlers lateRound := by
  have hpush : taskEvents .push lateRound = lampLog := by
    simp only [lateRound, taskEvents_append, taskEvents_delivered, reduceCtorEq, if_false, if_true,
      List.nil_append, List.append_nil]
  have hstatus : taskEvents .status lateRound = roundLog := by
    simp only [lateRound, taskEvents_append, taskEvents_delivered, reduceCtorEq, if_false, if_true,
      List.nil_append]
    exact roundLog_eq.symm
  exact ⟨⟨lampLog, pushLog_lamp, by rw [hpush]⟩, ⟨roundLog, statusLog_round, by rw [hstatus]⟩⟩

/-- Where the run of its state request comes in a run of the command alone. -/
def lampFront : TaskWorld Nat :=
  (taskMachine Nat).after (restingTasks 0 none) (lampLog.dropLast.map (delivered .push))

/-- The same behind a round that has not run its request. -/
def lateFront : TaskWorld Nat :=
  (taskMachine Nat).after (restingTasks 0 none)
    (roundLog.dropLast.map (delivered .status) ++ lampLog.dropLast.map (delivered .push))

theorem lampFront_held : lampFront.held .push = some 1 := by
  decide +kernel

theorem lateFront_eq : lateFront.source = 1 ∧ lateFront.held .push = some 1 ∧
    lateFront.held .status = some 0 := by
  decide +kernel

/-- The run of the command's state request. -/
def lampDelivery (w : TaskWorld Nat) : Step (TaskWorld Nat) (Happening Nat) Unit :=
  (taskMachine Nat).stepAt w (delivered .push lastRun)

theorem lampDelivery_delivers {w : TaskWorld Nat} {snapshot : Nat}
    (hheld : w.held .push = some snapshot) : DeliversCommand (lampDelivery w) := by
  refine ⟨rfl, rfl, ?_⟩
  show w.held .push ≠ none
  rw [hheld]
  exact Option.some_ne_none snapshot

theorem promptRound_steps :
    (taskMachine Nat).steps (restingTasks 0 none) promptRound =
      (taskMachine Nat).steps (restingTasks 0 none) (lampLog.dropLast.map (delivered .push)) ++
        lampDelivery lampFront ::
          (taskMachine Nat).steps (lampDelivery lampFront).after
            (roundLog.map (delivered .status)) := by
  have hround : promptRound = lampLog.dropLast.map (delivered .push) ++
      delivered .push lastRun :: roundLog.map (delivered .status) := by
    unfold promptRound
    conv_lhs => rw [lampLog_eq]
    rw [List.map_append, List.append_assoc]
    rfl
  rw [hround, Transducer.steps_append, Transducer.steps_from]
  unfold lampDelivery lampFront
  rfl

/-- The rounds of the status task leave the device alone. -/
theorem keeps_of_round {w : TaskWorld Nat} :
    ∀ y ∈ (taskMachine Nat).steps w (roundLog.map (delivered .status)), ∀ a,
      y.input.act = some a → a.keeps = true := by
  intro y hy a hact
  obtain ⟨e, he, hinput⟩ := List.mem_map.mp (Transducer.input_mem hy)
  by_contra hchanges
  obtain ⟨_, _, _, _, hevent⟩ := action_of_changes hact (eq_false_of_ne_true hchanges)
  have hnone := statusLog_round.handlerCalls_eq
  rw [handlerCalls, List.filterMap_eq_nil_iff] at hnone
  have hcall := hnone e he
  rw [← hinput] at hevent
  rw [show e = _ from hevent] at hcall
  cases hcall

theorem server_keeps_command_prompt :
    let x := lampDelivery lampFront
    let rest := (taskMachine Nat).steps x.after (roundLog.map (delivered .status))
    x.after.Current ∧
      ((∀ y ∈ rest, y.after.Current) ↔ ∀ y ∈ rest, ¬ DeliversStaleStatus y) ∧
      ∀ y ∈ rest, DeliversStaleStatus y → y.before.held .status = x.before.held .status :=
  server_keeps_command (referenceSdk 1000 64) referenceHandlers promptRound_interleaves 0 none
    promptRound_steps (lampDelivery_delivers lampFront_held) keeps_of_round

theorem late_steps {w : TaskWorld Nat} (hdevice : w.source = 1) (hpush : w.held .push = some 1)
    (hstatus : w.held .status = some 0) :
    let y := (taskMachine Nat).stepAt (lampDelivery w).after (delivered .status lastRun)
    (lampDelivery w).after.replica = some 1 ∧ y.after.source = 1 ∧ y.after.replica = some 0 := by
  have hother : (w.step .push (.send true)).held .status = some 0 := by
    have hne : Task.status ≠ Task.push := by decide
    rw [step_held_of_ne hne]
    exact hstatus
  refine ⟨?_, hdevice, ?_⟩
  · show (w.held .push).or w.replica = some 1
    rw [hpush]
    rfl
  · show ((w.step .push (.send true)).held .status).or _ = some 0
    rw [hother]
    rfl

/-- The command puts the lamp on and the server has that; then the round that began
before it puts the old state back, with no request that fails. -/
theorem lateRound_state_lost :
    Interleaves (referenceSdk 1000 64) referenceHandlers lateRound ∧
      ∃ front x y, (taskMachine Nat).steps (restingTasks 0 none) lateRound = front ++ [x, y] ∧
        DeliversCommand x ∧ x.after.replica = some 1 ∧
        (∀ a, y.input.act = some a → a.keeps = true) ∧
        y.after.source = 1 ∧ y.after.replica = some 0 := by
  have hround : lateRound = (roundLog.dropLast.map (delivered .status) ++
      lampLog.dropLast.map (delivered .push)) ++
        [delivered .push lastRun, delivered .status lastRun] := by
    unfold lateRound
    conv_lhs => rw [lampLog_eq]
    simp only [List.map_append, List.append_assoc]
    rfl
  obtain ⟨hdevice, hpush, hstatus⟩ := lateFront_eq
  obtain ⟨hcommand, hsource, hlost⟩ := late_steps hdevice hpush hstatus
  refine ⟨lateRound_interleaves, (taskMachine Nat).steps (restingTasks 0 none)
      (roundLog.dropLast.map (delivered .status) ++ lampLog.dropLast.map (delivered .push)),
    lampDelivery lateFront,
    (taskMachine Nat).stepAt (lampDelivery lateFront).after (delivered .status lastRun), ?_,
    lampDelivery_delivers hpush, hcommand, ?_, hsource, hlost⟩
  · rw [hround, Transducer.steps_append, Transducer.steps_from, Transducer.steps_from]
    unfold lampDelivery lateFront
    rfl
  · intro a hact
    rw [← Option.some.inj (show some (Act.send true) = some a from hact)]
    rfl

end ThingIfSdk
