import ThingIfSdk.Requests.Credentials
import ThingIfSdk.Requests.Starting

/-!
# The state of an instance and its history

Whoever sees the results of the calls knows the state of the instance: it is onboarded
when, since the last initialisation, the thing was handed over as onboarded or an
onboarding succeeded, and initialised otherwise.  The calls that need an onboarded thing
are refused exactly when the history has none, and no other call is ever refused for the
state.
-/

namespace ThingIfSdk

open ByteText JsonText Staging Running

variable {σ : Type}

/-! ## Histories -/

/-- What the result of a call says about the thing being onboarded. -/
def onboardedAfter (onboarded : Bool) (op : Operation) (ret : Bool) : Bool :=
  match op with
  | .init _ => false
  | .initWithOnboardedThing .. => ret
  | .onboardWithVendorThingId _ => onboarded || ret
  | .onboardWithThingId _ => onboarded || ret
  | _ => onboarded

/-- The observer of a run. -/
def seeResult (onboarded : Bool) (x : Step (KiiThingIf σ) Invocation (Outcome σ)) : Bool :=
  onboardedAfter onboarded x.input.operation x.output.ret

/-- What the result of the initialisation says. -/
def Initialisation.onboards (sdk : Sdk σ) : Initialisation → Bool
  | .plain _ => false
  | .withOnboardedThing args thingId accessToken =>
      (initKiiThingIfWithOnboardedThing sdk args thingId accessToken).1

/-- The state that goes with a history. -/
def stateOf (onboarded : Bool) : ThingIfState :=
  if onboarded then .onboarded else .initialized

/-- `start` and the property functions. -/
def Operation.needsOnboarding : Operation → Bool
  | .start => true
  | .getFirmwareVersion _ => true
  | .updateFirmwareVersion _ => true
  | .getThingType _ => true
  | .updateThingType _ => true
  | _ => false

/-- The codes that a call stores in the record of its caller. -/
def storedCodes (before after : ErrorSlot) : List ErrorCode :=
  after.codes.drop before.codes.length

/-- What a call does for the state of the instance, as its history has it. -/
structure FollowsHistory (onboarded : Bool)
    (x : Step (KiiThingIf σ) Invocation (Outcome σ)) : Prop where
  state : x.before.state = stateOf onboarded
  refused : x.input.operation.needsOnboarding = true → onboarded = false → Refuses x
  invalidState : .invalidState ∈ storedCodes x.input.error x.output.error ↔
    x.input.error.record ≠ none ∧ x.input.operation.takesError = true ∧
      x.input.operation.needsOnboarding = true ∧ onboarded = false

/-! ## States -/

theorem initWithOnboardedThing_state (sdk : Sdk σ) (args : InitArgs)
    (thingId accessToken : Bytes) :
    let r := initKiiThingIfWithOnboardedThing sdk args thingId accessToken
    r.2.state = stateOf r.1 := by
  have hinit := prvInitKiiThingIf_state sdk args
  unfold initKiiThingIfWithOnboardedThing
  simp only
  cases (prvInitKiiThingIf sdk args).1 with
  | false => exact hinit
  | true =>
      cases prvSetAuthor sdk.platform thingId accessToken with
      | none => exact hinit
      | some author => rfl

theorem Initialisation.thing_state (sdk : Sdk σ) (init : Initialisation) :
    (init.thing sdk).state = stateOf (init.onboards sdk) := by
  cases init with
  | plain args => exact prvInitKiiThingIf_state sdk args
  | withOnboardedThing args thingId accessToken =>
      exact initWithOnboardedThing_state sdk args thingId accessToken

/-- An onboarding that is not refused ends onboarded, or as it began. -/
theorem onboardWith_state (sdk : Sdk σ) (f : Call σ → Bool × Call σ) {thing : KiiThingIf σ}
    {onboarded : Bool} (h : thing.state = stateOf onboarded) (error : ErrorSlot) :
    (onboardWith sdk f thing error).thing.state =
      stateOf (onboarded || (onboardWith sdk f thing error).ret) := by
  have hstate : thing.state ≠ .started := by
    rw [h]
    cases onboarded <;> exact nofun
  unfold onboardWith
  rw [if_neg hstate]
  simp only
  cases (f ⟨thing.commandHandler, error⟩).1 with
  | false =>
      rw [if_pos rfl, Bool.or_false]
      exact h
  | true =>
      rw [if_neg nofun]
      cases prvSetAuthor sdk.platform
          (f ⟨thing.commandHandler, error⟩).2.kii.author.authorId
          (f ⟨thing.commandHandler, error⟩).2.kii.author.accessToken with
      | none =>
          simp only [Bool.or_false]
          exact h
      | some author =>
          simp only [Bool.or_true]
          rfl

/-- One step: the observer keeps up with the state. -/
theorem state_step (sdk : Sdk σ) {thing : KiiThingIf σ} {onboarded : Bool}
    (h : thing.state = stateOf onboarded) (op : Operation) (error : ErrorSlot) :
    (op.run sdk thing error).thing.state =
      stateOf (onboardedAfter onboarded op (op.run sdk thing error).ret) := by
  -- the calls that are no onboarding keep the state
  have hkeeps : op.isInit = false → op.isOnboarding = false →
      (op.run sdk thing error).thing.state = stateOf onboarded :=
    fun hinit hop => (run_keepsCredentials sdk thing error hinit hop).state.trans h
  cases op with
  | init args => exact prvInitKiiThingIf_state sdk args
  | initWithOnboardedThing args thingId accessToken =>
      exact initWithOnboardedThing_state sdk args thingId accessToken
  | onboardWithVendorThingId args => exact onboardWith_state sdk _ h error
  | onboardWithThingId args => exact onboardWith_state sdk _ h error
  | _ => exact hkeeps rfl rfl

/-! ## Codes -/

theorem invalidState_not_failureClass {e : Event} : e.failureClass ≠ some .invalidState := by
  intro h
  cases e with
  | callStart call ret =>
      simp only [Event.failureClass] at h
      split_ifs at h
      cases h
  | appendBody bytes ret =>
      simp only [Event.failureClass] at h
      split_ifs at h
      cases h
  | callRun ret httpError responseCode =>
      simp only [Event.failureClass] at h
      split_ifs at h
      · cases h
      · cases httpError <;> cases h
  | readAuthor result written =>
      simp only [Event.failureClass] at h
      split_ifs at h
      cases h
  | readProperty result copyFailed =>
      simp only [Event.failureClass] at h
      split_ifs at h <;> cases h
  | _ => cases h

/-- No code that was added is the one for the state. -/
def StoresNoState (before after : ErrorSlot) : Prop :=
  ∃ codes, after.codes = before.codes ++ codes ∧ .invalidState ∉ codes

theorem StoresNoState.refl (e : ErrorSlot) : StoresNoState e e :=
  ⟨[], (List.append_nil _).symm, List.not_mem_nil⟩

theorem storesNoState_setCode (e : ErrorSlot) {code : ErrorCode} (h : code ≠ .invalidState) :
    StoresNoState e (e.setCode code) := by
  unfold ErrorSlot.setCode
  cases e.record with
  | none => exact .refl e
  | some r => exact ⟨[code], rfl, fun hmem => h (List.mem_singleton.mp hmem).symm⟩

theorem storesNoState_rejected (sdk : Sdk σ) (c : Call σ) :
    StoresNoState c.error (sessionRejected sdk c).error := by
  unfold sessionRejected
  cases c.error.record with
  | none => exact .refl c.error
  | some r => exact ⟨[.http], rfl, by simp⟩

theorem storesNoState_of_ending {sdk : Sdk σ} {kii : Kii σ} {error error' : ErrorSlot}
    {last : List Event} (h : Ending sdk kii error last error') : StoresNoState error error' := by
  cases h with
  | @coded e code hclass hcode hvalid =>
      refine storesNoState_setCode error fun hstate => ?_
      rw [hstate] at hclass
      exact invalidState_not_failureClass hclass
  | rejected httpError h => exact storesNoState_rejected sdk ⟨kii, error⟩
  | invalidResponse h responseCode => exact .refl _

theorem storesNoState_of_gaveUp {sdk : Sdk σ} {before c : Call σ} (h : GaveUp sdk before c) :
    StoresNoState before.error c.error := by
  obtain ⟨es, last, -, -, hend⟩ := h.ending
  exact storesNoState_of_ending hend

theorem storesNoState_of_going {before c : Call σ} (h : Going before c) :
    StoresNoState before.error c.error := by
  rw [h.error]
  exact .refl before.error

theorem storesNoState_of_callEnds {sdk : Sdk σ} {before after : Call σ} {lapse : Option Lapse}
    {ret : Bool} (h : CallEnds sdk before lapse ret after) :
    StoresNoState before.error after.error := by
  cases h with
  | goesOn h => exact storesNoState_of_going h
  | givesUp h => exact storesNoState_of_gaveUp h
  | pathRefused h =>
      show StoresNoState before.error _
      rw [← h.error]
      exact .refl _
  | bodyRefused h hlogs =>
      show StoresNoState before.error _
      rw [← h.error]
      exact .refl _
  | @startIgnored c _ h call startRet hret pieces kii hlogs goesOn hon hup =>
      rw [← h.error]
      cases ret with
      | true => exact @storesNoState_of_going _ ⟨kii, c.error⟩ _ (hon rfl)
      | false => exact @storesNoState_of_gaveUp _ sdk ⟨kii, c.error⟩ _ (hup rfl)

theorem invalidState_not_stored {before after : ErrorSlot} (h : StoresNoState before after) :
    .invalidState ∉ storedCodes before after := by
  obtain ⟨codes, hcodes, hnone⟩ := h
  unfold storedCodes
  rw [hcodes, List.drop_left]
  exact hnone

/-- A refused call stores the code if there is a record to store it in. -/
theorem invalidState_stored_iff (e : ErrorSlot) :
    .invalidState ∈ storedCodes e (e.setCode .invalidState) ↔ e.record ≠ none := by
  unfold storedCodes ErrorSlot.setCode
  cases hrecord : e.record with
  | none =>
      rw [List.drop_length]
      simp
  | some r =>
      rw [List.drop_left]
      simp

/-! ## One call -/

theorem admits_stateOf (op : Operation) (onboarded : Bool) (hop : op.takesError = true) :
    op.admits (stateOf onboarded) = (!op.needsOnboarding || onboarded) := by
  cases op with
  | init args => cases hop
  | initWithOnboardedThing args thingId accessToken => cases hop
  | start => cases hop
  | _ => cases onboarded <;> rfl

/-- The calls without an `error` argument leave it alone. -/
theorem run_error_eq (sdk : Sdk σ) (thing : KiiThingIf σ) (error : ErrorSlot) {op : Operation}
    (hop : op.takesError = false) : (op.run sdk thing error).error = error := by
  cases op with
  | init args => rfl
  | initWithOnboardedThing args thingId accessToken => rfl
  | start => rfl
  | _ => cases hop

/-- Of the functions without an `error` argument only `start` needs an onboarded thing. -/
theorem Operation.eq_start {op : Operation} (htakes : op.takesError = false)
    (hop : op.needsOnboarding = true) : op = .start := by
  cases op with
  | init args => cases hop
  | initWithOnboardedThing args thingId accessToken => cases hop
  | start => rfl
  | _ => cases htakes

theorem refuses_of_run {sdk : Sdk σ} {x : Step (KiiThingIf σ) Invocation (Outcome σ)}
    (hout : x.output = x.input.operation.run sdk x.before x.input.error)
    (hafter : x.after = x.output.thing) (hstate : x.before.state = stateOf false)
    (hop : x.input.operation.needsOnboarding = true) : Refuses x := by
  cases htakes : x.input.operation.takesError with
  | false =>
      have hstart := Operation.eq_start htakes hop
      have hne : x.before.state ≠ .onboarded := by
        rw [hstate]
        exact nofun
      have hrun : start sdk x.before = (false, x.before) := if_pos hne
      rw [hstart] at hout
      have hret : x.output.ret = (start sdk x.before).1 := by
        rw [hout]
        rfl
      have hthing : x.output.thing = (start sdk x.before).2 := by
        rw [hout]
        rfl
      refine ⟨by rw [hret, hrun], fun h => ?_, by rw [hafter, hthing, hrun]⟩
      rw [htakes] at h
      cases h
  | true =>
      have hadmits : x.input.operation.admits x.before.state = false := by
        rw [hstate, admits_stateOf _ _ htakes, hop]
        rfl
      rw [operation_refused x.before x.input.error hadmits] at hout
      refine ⟨by rw [hout], fun _ r hr => ?_, by rw [hafter, hout]⟩
      rw [hout] at hr
      show r.code = .invalidState
      unfold ErrorSlot.setCode at hr
      cases hrecord : x.input.error.record with
      | none =>
          simp only [hrecord] at hr
          cases hr
      | some r' =>
          simp only [hrecord, Option.some.injEq] at hr
          rw [← hr]

theorem followsHistory_of_state {sdk : Sdk σ} {x : Step (KiiThingIf σ) Invocation (Outcome σ)}
    (hout : x.output = x.input.operation.run sdk x.before x.input.error)
    (hafter : x.after = x.output.thing) {onboarded : Bool}
    (hstate : x.before.state = stateOf onboarded) : FollowsHistory onboarded x := by
  refine ⟨hstate, fun hop hnot => refuses_of_run hout hafter (hnot ▸ hstate) hop, ?_⟩
  cases htakes : x.input.operation.takesError with
  | false =>
      rw [hout, run_error_eq sdk _ _ htakes]
      exact iff_of_false (invalidState_not_stored (.refl _)) fun h => by cases h.2.1
  | true =>
      have hadmits := admits_stateOf x.input.operation onboarded htakes
      cases hrefused : x.input.operation.admits x.before.state with
      | false =>
          rw [hstate, hadmits, Bool.or_eq_false_iff, Bool.not_eq_false'] at hrefused
          rw [hout, operation_refused x.before x.input.error (by
            rw [hstate, hadmits, hrefused.1, hrefused.2]; rfl), invalidState_stored_iff]
          exact ⟨fun h => ⟨h, rfl, hrefused⟩, fun h => h.1⟩
      | true =>
          obtain ⟨goesOn, hends, -⟩ :=
            (@operation_ends _ sdk x.before x.input.error _ htakes hrefused).ends
          rw [hout]
          refine iff_of_false (invalidState_not_stored (storesNoState_of_callEnds hends)) ?_
          rintro ⟨-, -, hop, hnot⟩
          rw [hstate, hadmits, hop, hnot] at hrefused
          cases hrefused

/-! ## Runs -/

/-- In every run the state of the instance is that of its history, and a call is refused
for the state exactly when it needs an onboarded thing and the history has none. -/
theorem instance_followsHistory (sdk : Sdk σ) (init : Initialisation) (calls : List Invocation)
    {front rest : List (Step (KiiThingIf σ) Invocation (Outcome σ))}
    {x : Step (KiiThingIf σ) Invocation (Outcome σ)}
    (h : apiSteps sdk init calls = front ++ x :: rest) :
    FollowsHistory (front.foldl seeResult (init.onboards sdk)) x ∧
      x.after.state = stateOf (seeResult (front.foldl seeResult (init.onboards sdk)) x) := by
  have hx : x ∈ apiSteps sdk init calls := by
    rw [h]
    simp
  obtain ⟨hout, hafter⟩ := after_eq_of_mem hx
  obtain ⟨hbefore, hbehind⟩ :=
    @Transducer.observed _ _ _ (apiMachine sdk) (init.thing sdk) calls _
      (fun thing onboarded => thing.state = stateOf onboarded) seeResult _ (init.thing_state sdk)
      (fun y hy onboarded hstate => by
        obtain ⟨hout, hafter⟩ := after_eq_of_mem hy
        rw [hafter, seeResult, hout]
        exact state_step sdk hstate _ _) _ _ _ h
  exact ⟨followsHistory_of_state hout hafter hbefore, hbehind⟩

/-- An update that comes too early, and an onboarding. -/
def earlyCalls : List Invocation :=
  [⟨.updateThingType (ascii "lamp"), freshError⟩, ⟨.onboardWithVendorThingId plainArgs, freshError⟩]

/-- The replies to the onboarding, and to what is asked for behind it. -/
def earlyReplies : List Reply :=
  [.ok tokenResponse, .ok onboardResponse, notFound]

/-- Behind an early update and an onboarding, the history has an onboarded thing. -/
theorem early_history {thing : KiiThingIf (List Reply)} {replies rest : List Reply}
    (hstate : thing.state = .initialized) (happ : thing.commandHandler.appId = ascii "app")
    (hcore : thing.commandHandler.core = .ok tokenResponse :: .ok onboardResponse :: rest) :
    ((apiMachine (answeringSdk replies)).steps thing earlyCalls).foldl seeResult false = true := by
  -- the update is refused and leaves the instance alone
  have hrefused : (Operation.updateThingType (ascii "lamp")).run (answeringSdk replies) thing
      freshError = { ret := false
                     thing := thing
                     error := freshError.setCode .invalidState
                     out := none } :=
    operation_refused thing freshError (by rw [hstate]; rfl)
  obtain ⟨token, kii₁, kii₂, htoken, hpath, hanswered, hyields, -⟩ :=
    @requests_answering replies _ _ happ hcore
  have hne : thing.state ≠ .started := by
    rw [hstate]
    nofun
  obtain ⟨hret, -⟩ := onboardWithVendorThingId_completed hne freshError
    ⟨token, kii₁, kii₂, htoken, hpath, hanswered, hyields⟩
  show (false || ((Operation.onboardWithVendorThingId plainArgs).run (answeringSdk replies)
    ((Operation.updateThingType (ascii "lamp")).run (answeringSdk replies) thing
      freshError).thing freshError).ret) = true
  rw [hrefused]
  exact hret

/-- A request behind an early update and an onboarding. -/
theorem early_followsHistory :
    let t := apiMachine (answeringSdk earlyReplies)
    let thing := (Initialisation.plain sampleInit).thing (answeringSdk earlyReplies)
    let x := t.stepAt (t.after thing earlyCalls) ⟨.getThingType 16, freshError⟩
    FollowsHistory true x ∧ x.after.state = stateOf (seeResult true x) := by
  intro t thing x
  have hsteps : apiSteps (answeringSdk earlyReplies) (.plain sampleInit)
      (earlyCalls ++ [(⟨.getThingType 16, freshError⟩ : Invocation)]) =
        t.steps thing earlyCalls ++ x :: [] :=
    Transducer.steps_append t thing earlyCalls [⟨.getThingType 16, freshError⟩]
  have h := instance_followsHistory (answeringSdk earlyReplies) (.plain sampleInit) _ hsteps
  have hhistory : (t.steps thing earlyCalls).foldl seeResult false = true :=
    early_history rfl rfl rfl
  rw [show (Initialisation.plain sampleInit).onboards (answeringSdk earlyReplies) = false from rfl,
    hhistory] at h
  exact h

end ThingIfSdk
