import ThingIfSdk.Model.Log
import ThingIfSdk.Model.Updater

/-!
# Requests that send the state

`prv_send_state` and each round of `prv_update_status` make one request whose body
a state handler writes.  `StateEvents` lists what such a request can log.
-/

namespace ThingIfSdk

open ByteText JsonText

variable {σ δ : Type}

/-- A piece of the body that a state handler wrote. -/
def Event.isWrite : Event → Bool
  | .write .. => true
  | _ => false

/-- What a request that sends the state logs. -/
inductive StateEvents : List Event → Prop where
  | refused : StateEvents [.assertion, .pathTooLong]
  | notStarted (call : ApiCall) {ret : Int} (h : ret ≠ 0) : StateEvents [.callStart call ret]
  | notWritten (call : ApiCall) {writes : List Event} (h : ∀ e ∈ writes, e.isWrite = true) :
      StateEvents (.callStart call 0 :: (writes ++ [.stateHandler false]))
  | run (call : ApiCall) {writes : List Event} (h : ∀ e ∈ writes, e.isWrite = true)
      (ret : Int) (httpError : HttpError) (responseCode : Int) :
      StateEvents (.callStart call 0 ::
        (writes ++ [.stateHandler true, .callRun ret httpError responseCode]))

/-- A state handler writes, and then returns. -/
theorem runWriter_log (sdk : Sdk σ) (w : WriterProgram) (kii : Kii σ) :
    ∃ writes, (∀ e ∈ writes, e.isWrite = true) ∧
      (runWriter sdk w kii).2.log =
        kii.log ++ (writes ++ [.stateHandler (runWriter sdk w kii).1]) := by
  induction w generalizing kii with
  | done ret => exact ⟨[], nofun, rfl⟩
  | write buff next ih =>
      obtain ⟨writes, hwrites, hlog⟩ := ih (prvWriter sdk buff kii).1 (prvWriter sdk buff kii).2
      have hwrite : (prvWriter sdk buff kii).2.log =
          kii.log ++ [.write buff (sdk.api.kiiApiCallAppendBody kii.core buff).1] := by
        unfold prvWriter
        simp only
        split <;> rfl
      refine ⟨.write buff (sdk.api.kiiApiCallAppendBody kii.core buff).1 :: writes, ?_, ?_⟩
      · intro e he
        rcases List.mem_cons.mp he with rfl | he
        · rfl
        · exact hwrites e he
      · rw [runWriter, hlog, hwrite, List.append_assoc]
        rfl

/-- A state handler's pieces come to no assertion. -/
theorem assertion_not_mem_of_writes {writes : List Event} (h : ∀ e ∈ writes, e.isWrite = true) :
    .assertion ∉ writes :=
  fun he => Bool.false_ne_true (h _ he)

/-- The part of a state request behind its path, which the two functions share. -/
theorem stateRequest_log (sdk : Sdk σ) (w : WriterProgram) (kii : Kii σ)
    (resourcePath : Bytes) :
    let start := kiiApiCallStart sdk kii (ascii "PUT") resourcePath (some contentUpdateState) true
    let written := runWriter sdk w start.2
    ∃ es, StateEvents es ∧ .assertion ∉ es ∧
      (if start.1 ≠ 0 then start.2
        else if written.1 = false then written.2
        else (kiiApiCallRun sdk written.2).2).log = kii.log ++ es := by
  have hstart := (adds_start sdk kii (ascii "PUT") resourcePath (some contentUpdateState)
    true).log_eq
  obtain ⟨writes, hwrites, hwritten⟩ := runWriter_log sdk w
    (kiiApiCallStart sdk kii (ascii "PUT") resourcePath (some contentUpdateState) true).2
  simp only
  split
  · rename_i hret
    exact ⟨_, .notStarted _ hret, by simp, hstart⟩
  · rename_i hret
    rw [not_not.mp hret] at hstart
    rw [hstart, List.append_assoc] at hwritten
    split
    · rename_i hw
      rw [hw] at hwritten
      refine ⟨_, .notWritten _ hwrites, ?_, hwritten⟩
      simp [assertion_not_mem_of_writes hwrites]
    · rename_i hw
      rw [eq_true_of_ne_false hw] at hwritten
      have hrun := kiiApiCallRun_log sdk (runWriter sdk w (kiiApiCallStart sdk kii (ascii "PUT")
        resourcePath (some contentUpdateState) true).2).2
      rw [hwritten] at hrun
      simp only [List.append_assoc, List.cons_append, List.nil_append] at hrun
      refine ⟨_, .run _ hwrites _ _ _, ?_, hrun⟩
      simp [assertion_not_mem_of_writes hwrites]

theorem prvSendState_log (sdk : Sdk σ) (w : WriterProgram) (kii : Kii σ) :
    ∃ es, StateEvents es ∧ (prvSendState sdk w kii).2.log = kii.log ++ es ∧
      (.assertion ∈ es ↔
        prvSetStateResourcePath sdk.platform kii.appId kii.author.authorId 256 = none) := by
  unfold prvSendState
  cases prvSetStateResourcePath sdk.platform kii.appId kii.author.authorId 256 with
  | none => exact ⟨_, .refused, List.append_assoc _ _ _, by simp⟩
  | some resourcePath =>
      obtain ⟨es, hes, hassert, hlog⟩ := stateRequest_log sdk w kii resourcePath
      refine ⟨es, hes, ?_, by simp [hassert]⟩
      rw [← hlog]
      simp only
      split
      · rfl
      · split
        · rfl
        · split <;> rfl

theorem updateStatusRound_log (sdk : Sdk σ) (stateUpdatePeriod : Int) (resourcePath : Bytes)
    (w : WriterProgram) (kii : Kii σ) :
    ∃ es, StateEvents es ∧ .assertion ∉ es ∧
      (updateStatusRound sdk stateUpdatePeriod resourcePath w kii).log =
        kii.log ++ .delayMs (delayArgument sdk.platform stateUpdatePeriod) :: es := by
  obtain ⟨es, hes, hassert, hlog⟩ := stateRequest_log sdk w
    (kii.emit (.delayMs (delayArgument sdk.platform stateUpdatePeriod))) resourcePath
  refine ⟨es, hes, hassert, ?_⟩
  rw [Kii.emit_log, List.append_assoc] at hlog
  exact hlog

/-- The rounds of the status task, one after the other. -/
theorem updateStatusRounds_log (sdk : Sdk σ) (stateUpdatePeriod : Int) (resourcePath : Bytes)
    (handlers : Handlers σ δ) (devices : Nat → δ) (kii : Kii σ) (rounds : Nat) :
    ∃ rs : List (List Event), rs.length = rounds ∧
      (∀ es ∈ rs, StateEvents es ∧ .assertion ∉ es) ∧
      (updateStatusRounds sdk stateUpdatePeriod resourcePath handlers devices kii rounds).log =
        kii.log ++
          rs.flatMap (.delayMs (delayArgument sdk.platform stateUpdatePeriod) :: ·) := by
  induction rounds with
  | zero => exact ⟨[], rfl, by simp, by simp [updateStatusRounds]⟩
  | succ rounds ih =>
      obtain ⟨rs, hlen, hrs, hlog⟩ := ih
      obtain ⟨es, hes, hassert, hround⟩ := updateStatusRound_log sdk stateUpdatePeriod resourcePath
        (handlers.stateHandlerForPeriod (devices rounds))
        (updateStatusRounds sdk stateUpdatePeriod resourcePath handlers devices kii rounds)
      refine ⟨rs ++ [es], by rw [List.length_append, hlen, List.length_singleton], ?_, ?_⟩
      · intro es' hes'
        rcases List.mem_append.mp hes' with hes' | hes'
        · exact hrs es' hes'
        · rw [List.mem_singleton] at hes'
          rw [hes']
          exact ⟨hes, hassert⟩
      · rw [updateStatusRounds, hround, hlog, List.append_assoc, List.flatMap_append,
          List.flatMap_singleton]

/-- Sending the state calls no action handler. -/
theorem StateEvents.handlerCalls_eq {es : List Event} (h : es = [] ∨ StateEvents es) :
    handlerCalls es = [] := by
  have hwrites : ∀ {writes : List Event}, (∀ e ∈ writes, e.isWrite = true) →
      handlerCalls writes = [] := by
    intro writes hw
    apply handlerCalls_of_silent
    intro e he
    have := hw e he
    cases e with
    | write => rfl
    | _ => cases this
  rcases h with rfl | h
  · rfl
  cases h with
  | refused => rfl
  | notStarted call h => rfl
  | notWritten call h =>
      rw [← List.singleton_append, handlerCalls_append, handlerCalls_append, hwrites h]
      rfl
  | run call h ret httpError responseCode =>
      rw [← List.singleton_append, handlerCalls_append, handlerCalls_append, hwrites h]
      rfl

end ThingIfSdk
