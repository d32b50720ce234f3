import ThingIfSdk.System.Identity

/-!
# Runs of a system and the credentials in them

`Named` and `Bound` say that the instance has the app and the pair of its history; every
move keeps the first, and the second unless an onboarding is cut off.
-/

namespace ThingIfSdk

open ByteText JsonText Staging Running

variable {σ δ : Type}

/-! ## What is tracked -/

/-- Both identities have the app of the last initialisation. -/
def System.Named (s : System σ δ) : Prop :=
  ∀ app, s.app = some app →
    (s.thing.commandHandler.appId = app.appId ∧ s.thing.commandHandler.appKey = app.appKey) ∧
      s.thing.stateUpdater.appId = app.appId ∧ s.thing.stateUpdater.appKey = app.appKey

/-- Both authors are the pair of the last onboarding that succeeded. -/
def Tracked.Bound (t : Tracked σ) : Prop :=
  ∀ author, t.credential = some author →
    t.thing.commandHandler.author = author ∧ t.thing.stateUpdater.author = author

/-- The move is an onboarding that is cut off behind its token. -/
def Cuts (sdk : Sdk σ) (s : System σ δ) (move : Move δ) : Prop :=
  ∃ invocation, move = .call invocation ∧
    Interrupted sdk ((trackedMachine sdk).stepAt s.tracked invocation)

/-- The call is an initialisation, or an onboarding that succeeds. -/
def Invocation.Restores (sdk : Sdk σ) (thing : KiiThingIf σ) (invocation : Invocation) : Prop :=
  invocation.operation.isInit = true ∨ invocation.operation.isOnboarding = true ∧
    (invocation.operation.run sdk thing invocation.error).ret = true

/-- The move is such a call. -/
def Restores (sdk : Sdk σ) (s : System σ δ) (move : Move δ) : Prop :=
  ∃ invocation, move = .call invocation ∧ invocation.Restores sdk s.thing

/-- What a move may request. -/
def Move.Requests (s : System σ δ) (call : ApiCall) : Move δ → Prop
  | .call invocation => invocation.operation.Requests call
  | .message .. => CommandRequests call
  | .round task => ∃ resourcePath, s.tasks[task]? = some (.looping resourcePath) ∧
      RoundRequests resourcePath call
  | _ => False

/-- The request has the name of the `kii_t`, and its author too if the move is no onboarding. -/
structure MadeBy (kii : Kii σ) (move : Move δ) (call : ApiCall) : Prop where
  appId : call.appId = kii.appId
  appKey : call.appKey = kii.appKey
  author : move.isOnboarding = false → call.author = kii.author

/-- Every request of the step is one of its move, in the name of the app and, but for an
onboarding, of the onboarded thing. -/
structure Authorised (x : Step (System σ δ) (Move δ) (List Event)) : Prop where
  request : ∀ call ret, .callStart call ret ∈ x.output → x.input.Requests x.before call
  app : ∀ call ret, .callStart call ret ∈ x.output → ∀ app, x.before.app = some app →
    call.appId = app.appId ∧ call.appKey = app.appKey
  author : ∀ call ret, .callStart call ret ∈ x.output → x.input.isOnboarding = false →
    ∀ author, x.before.tracked.credential = some author → call.author = author

/-! ## Requests of one move -/

theorem Branded.made {P : ApiCall → Prop} {before after : Kii σ} (h : Branded P before after)
    {call : ApiCall} {ret : Int} (hmem : .callStart call ret ∈ newEvents before after) :
    call.appId = before.appId ∧ call.appKey = before.appKey ∧ P call := by
  obtain ⟨es, hlog, hes⟩ := h.log
  rw [newEvents_eq hlog] at hmem
  exact hes call ret hmem

theorem Signed.made {P : ApiCall → Prop} {before after : Kii σ} (h : Signed P before after)
    {call : ApiCall} {ret : Int} (hmem : .callStart call ret ∈ newEvents before after)
    (move : Move δ) : P call ∧ MadeBy before move call := by
  obtain ⟨happ, hkey, hauthor, hcall⟩ := h.branded.made hmem
  exact ⟨hcall, happ, hkey, fun _ => hauthor⟩

section

variable {sdk : Sdk σ} {handlers : Handlers σ δ}

theorem call_requests (s : System σ δ) (invocation : Invocation) {call : ApiCall} {ret : Int}
    (hmem : .callStart call ret ∈ (s.afterCall sdk invocation).1) :
    invocation.operation.Requests call ∧
      (MadeBy s.thing.commandHandler (.call invocation : Move δ) call ∨
        MadeBy s.thing.stateUpdater (.call invocation : Move δ) call) := by
  obtain ⟨op, error⟩ := invocation
  rcases List.mem_append.mp hmem with hmem | hmem
  · cases hinit : op.isInit with
    | true =>
        rw [newEvents_of_fresh (isInit_log sdk s.thing error hinit).1] at hmem
        cases hmem
    | false =>
        cases hop : op.isOnboarding with
        | true =>
            obtain ⟨happ, hkey, hcall⟩ := (onboarding_brands sdk s.thing error hop).made hmem
            refine ⟨hcall, .inl ⟨happ, hkey, fun hnot => ?_⟩⟩
            rw [Move.isOnboarding, hop] at hnot
            cases hnot
        | false =>
            obtain ⟨hcall, hmade⟩ := (operation_signs sdk s.thing error hinit hop).made hmem
              (.call ⟨op, error⟩ : Move δ)
            exact ⟨hcall, .inl hmade⟩
  · rcases op.cases_kind with hinit | rfl | herror
    · rw [newEvents_of_fresh (isInit_log sdk s.thing error hinit).2] at hmem
      cases hmem
    · obtain ⟨hcall, hmade⟩ := (start_signs sdk Operation.start.Requests s.thing).2.made hmem
        (.call ⟨.start, error⟩ : Move δ)
      exact ⟨hcall, .inr hmade⟩
    · rw [newEvents_of_log_eq (stateUpdater_log sdk s.thing error herror)] at hmem
      cases hmem

theorem step_requests (hhandlers : handlers.LeaveInstance) (s : System σ δ) (move : Move δ)
    {call : ApiCall} {ret : Int} (hmem : .callStart call ret ∈ (s.step sdk handlers move).1) :
    move.Requests s call ∧
      (MadeBy s.thing.commandHandler move call ∨ MadeBy s.thing.stateUpdater move call) := by
  cases move with
  | call invocation => exact call_requests s invocation hmem
  | message stack fuel buffer =>
      obtain ⟨hcall, hmade⟩ := (receivedCallback_signs sdk hhandlers stack fuel
        ⟨⟨s.thing.commandHandler, s.device⟩, buffer⟩).made hmem (.message stack fuel buffer : Move δ)
      exact ⟨hcall, .inl hmade⟩
  | enter task =>
      unfold System.step System.afterEnter at hmem
      simp only at hmem
      split at hmem
      · obtain ⟨hcall, -⟩ := (enterTask_signs sdk (fun _ => False) s.thing.stateUpdater).made hmem
          (.enter task : Move δ)
        exact absurd hcall not_false
      · cases hmem
  | round task =>
      unfold System.step System.afterRound at hmem
      simp only at hmem
      split at hmem
      · rename_i resourcePath htask
        obtain ⟨hcall, hmade⟩ := (round_signs sdk s.thing.stateUpdatePeriod resourcePath
          (handlers.stateHandlerForPeriod s.device) s.thing.stateUpdater).made hmem
          (.round task : Move δ)
        exact ⟨⟨resourcePath, htask, hcall⟩, .inr hmade⟩
      · cases hmem
  | sense device => cases hmem

/-! ## The app -/

theorem initKii_named (sdk : Sdk σ) (args : InitArgs) (bufferSize : Nat)
    (h : (initKii sdk args bufferSize).1 = 0) :
    (initKii sdk args bufferSize).2.appId = args.appId ∧
      (initKii sdk args bufferSize).2.appKey = args.appKey := by
  unfold initKii at h ⊢
  simp only at h ⊢
  split at h
  · rename_i hret
    exact absurd h hret
  · rename_i hret
    rw [if_neg hret]
    exact ⟨rfl, rfl⟩

/-- An instance that was initialised has the app in both its identities. -/
def NamedApp (thing : KiiThingIf σ) (args : InitArgs) : Prop :=
  (thing.commandHandler.appId = args.appId ∧ thing.commandHandler.appKey = args.appKey) ∧
    thing.stateUpdater.appId = args.appId ∧ thing.stateUpdater.appKey = args.appKey

theorem prvInitKiiThingIf_named (sdk : Sdk σ) (args : InitArgs)
    (h : (prvInitKiiThingIf sdk args).1 = true) : NamedApp (prvInitKiiThingIf sdk args).2 args := by
  unfold prvInitKiiThingIf at h ⊢
  simp only at h ⊢
  split at h
  · cases h
  · split at h
    · cases h
    · rename_i hcommand hupdater
      rw [if_neg hcommand, if_neg hupdater]
      exact ⟨initKii_named sdk args _ (not_not.mp hcommand),
        initKii_named sdk args _ (not_not.mp hupdater)⟩

theorem initWithOnboardedThing_named (sdk : Sdk σ) (args : InitArgs) (thingId accessToken : Bytes)
    (h : (initKiiThingIfWithOnboardedThing sdk args thingId accessToken).1 = true) :
    NamedApp (initKiiThingIfWithOnboardedThing sdk args thingId accessToken).2 args := by
  unfold initKiiThingIfWithOnboardedThing at h ⊢
  simp only at h ⊢
  cases hinit : (prvInitKiiThingIf sdk args).1 with
  | false =>
      rw [hinit] at h
      cases h
  | true =>
      have hnamed := prvInitKiiThingIf_named sdk args hinit
      rw [hinit] at h
      cases hset : prvSetAuthor sdk.platform thingId accessToken with
      | none =>
          rw [hset] at h
          cases h
      | some author => exact hnamed

/-- Calls with an `error` argument change at most the author of the updater. -/
theorem stateUpdater_eq (sdk : Sdk σ) (thing : KiiThingIf σ) (error : ErrorSlot)
    {op : Operation} (hop : op.takesError = true) :
    ∃ author, (op.run sdk thing error).thing.stateUpdater =
      { thing.stateUpdater with author := author } := by
  have honboard : ∀ f : Call σ → Bool × Call σ, ∃ author,
      (onboardWith sdk f thing error).thing.stateUpdater =
        { thing.stateUpdater with author := author } := by
    intro f
    unfold onboardWith
    simp only
    split
    · exact ⟨_, rfl⟩
    · split
      · exact ⟨_, rfl⟩
      · split <;> exact ⟨_, rfl⟩
  have hproperty : ∀ request : Call σ → Bool × Call σ × Option Bytes, ∃ author,
      (whenOnboarded thing error request).thing.stateUpdater =
        { thing.stateUpdater with author := author } := by
    intro request
    unfold whenOnboarded
    cases thing.state <;> exact ⟨_, rfl⟩
  cases op with
  | init args => cases hop
  | initWithOnboardedThing args thingId accessToken => cases hop
  | start => cases hop
  | onboardWithVendorThingId args => exact honboard _
  | onboardWithThingId args => exact honboard _
  | getFirmwareVersion len => exact hproperty _
  | getThingType len => exact hproperty _
  | updateFirmwareVersion v => exact hproperty _
  | updateThingType v => exact hproperty _

/-- A call that is no initialisation keeps the app in both identities. -/
theorem run_app (sdk : Sdk σ) (thing : KiiThingIf σ) (error : ErrorSlot) {op : Operation}
    (hinit : op.isInit = false) :
    let thing' := (op.run sdk thing error).thing
    (thing'.commandHandler.appId = thing.commandHandler.appId ∧
        thing'.commandHandler.appKey = thing.commandHandler.appKey) ∧
      thing'.stateUpdater.appId = thing.stateUpdater.appId ∧
        thing'.stateUpdater.appKey = thing.stateUpdater.appKey := by
  have hcommand : (op.run sdk thing error).thing.commandHandler.appId =
        thing.commandHandler.appId ∧
      (op.run sdk thing error).thing.commandHandler.appKey = thing.commandHandler.appKey := by
    cases hop : op.isOnboarding with
    | true =>
        have hbranded := onboarding_brands sdk thing error hop
        exact ⟨hbranded.appId, hbranded.appKey⟩
    | false =>
        have hsigned := (operation_signs sdk thing error hinit hop).branded
        exact ⟨hsigned.appId, hsigned.appKey⟩
  refine ⟨hcommand, ?_⟩
  rcases op.cases_kind with hinit' | rfl | herror
  · rw [hinit] at hinit'
    cases hinit'
  · have hsigned := (start_signs sdk (fun _ => True) thing).2.branded
    exact ⟨hsigned.appId, hsigned.appKey⟩
  · obtain ⟨author, hupdater⟩ := stateUpdater_eq sdk thing error herror
    rw [hupdater]
    exact ⟨rfl, rfl⟩

theorem named_of_kept {s s' : System σ δ} (h : s.Named) (happ : s'.app = s.app)
    (hcommand : s'.thing.commandHandler.appId = s.thing.commandHandler.appId ∧
      s'.thing.commandHandler.appKey = s.thing.commandHandler.appKey)
    (hupdater : s'.thing.stateUpdater.appId = s.thing.stateUpdater.appId ∧
      s'.thing.stateUpdater.appKey = s.thing.stateUpdater.appKey) : s'.Named := by
  intro app hsome
  rw [happ] at hsome
  rw [hcommand.1, hcommand.2, hupdater.1, hupdater.2]
  exact h app hsome

/-- An initialisation that succeeds has the new app in both identities, and one that fails
leaves nothing to have. -/
theorem init_named (sdk : Sdk σ) (thing : KiiThingIf σ) (error : ErrorSlot) {op : Operation}
    (hinit : op.isInit = true) {before : Option AppIdentity} {app : AppIdentity}
    (h : appAfter before op (op.run sdk thing error).ret = some app) :
    let thing' := (op.run sdk thing error).thing
    (thing'.commandHandler.appId = app.appId ∧ thing'.commandHandler.appKey = app.appKey) ∧
      thing'.stateUpdater.appId = app.appId ∧ thing'.stateUpdater.appKey = app.appKey := by
  cases op with
  | init args =>
      obtain ⟨hret, hsome⟩ := Option.ite_none_right_eq_some.mp h
      rw [← Option.some.inj hsome]
      exact prvInitKiiThingIf_named sdk args hret
  | initWithOnboardedThing args thingId accessToken =>
      obtain ⟨hret, hsome⟩ := Option.ite_none_right_eq_some.mp h
      rw [← Option.some.inj hsome]
      exact initWithOnboardedThing_named sdk args thingId accessToken hret
  | _ => cases hinit

/-- Every move keeps the app in both identities. -/
theorem named_step (hhandlers : handlers.LeaveInstance) {s : System σ δ} (h : s.Named)
    (move : Move δ) : (s.step sdk handlers move).2.Named := by
  cases move with
  | call invocation =>
      obtain ⟨op, error⟩ := invocation
      cases hinit : op.isInit with
      | true =>
          intro app hsome
          exact init_named sdk s.thing error hinit hsome
      | false =>
          obtain ⟨hcommand, hupdater⟩ := run_app sdk s.thing error hinit
          refine named_of_kept h ?_ hcommand hupdater
          cases op with
          | init args => cases hinit
          | initWithOnboardedThing args thingId accessToken => cases hinit
          | _ => rfl
  | message stack fuel buffer =>
      have hsigned := (receivedCallback_signs sdk hhandlers stack fuel
        ⟨⟨s.thing.commandHandler, s.device⟩, buffer⟩).branded
      exact named_of_kept h rfl ⟨hsigned.appId, hsigned.appKey⟩ ⟨rfl, rfl⟩
  | enter task =>
      have hsigned := (enterTask_signs sdk (fun _ => True) s.thing.stateUpdater).branded
      unfold System.step System.afterEnter
      simp only
      split
      · exact named_of_kept h rfl ⟨rfl, rfl⟩ ⟨hsigned.appId, hsigned.appKey⟩
      · exact h
  | round task =>
      unfold System.step System.afterRound
      simp only
      split
      · rename_i resourcePath htask
        have hsigned := (round_signs sdk s.thing.stateUpdatePeriod resourcePath
          (handlers.stateHandlerForPeriod s.device) s.thing.stateUpdater).branded
        exact named_of_kept h rfl ⟨rfl, rfl⟩ ⟨hsigned.appId, hsigned.appKey⟩
      · exact h
  | sense device => exact h

/-! ## The pair -/

/-- The step of the instance that a call is. -/
theorem trackedStep_mem (t : Tracked σ) (invocation : Invocation) :
    (trackedMachine sdk).stepAt t invocation ∈ (trackedMachine sdk).steps t [invocation] :=
  List.mem_singleton_self _

theorem afterCall_tracked (s : System σ δ) (invocation : Invocation) :
    (s.afterCall sdk invocation).2.tracked =
      ((trackedMachine sdk).stepAt s.tracked invocation).after := rfl

theorem bound_of_kept {t t' : Tracked σ} (h : t.Bound) (hcredential : t'.credential = t.credential)
    (hcommand : t'.thing.commandHandler.author = t.thing.commandHandler.author)
    (hupdater : t'.thing.stateUpdater.author = t.thing.stateUpdater.author) : t'.Bound := by
  intro author hsome
  rw [hcredential] at hsome
  rw [hcommand, hupdater]
  exact h author hsome

/-- An initialisation, or an onboarding that succeeds, leaves the pair in both authors,
whatever stood there before. -/
theorem bound_of_restores (hjson : CopiesFields sdk.json) {s : System σ δ}
    {invocation : Invocation} (h : invocation.Restores sdk s.thing) :
    (s.afterCall sdk invocation).2.tracked.Bound := by
  -- An initialisation names an author only when it succeeds.
  rcases h with hinit | ⟨hop, hret⟩
  · have hmem := @trackedStep_mem _ sdk s.tracked invocation
    have hconsistent := @consistent_of_isInit _ sdk _ _ _ hinit hmem
    rw [afterCall_tracked]
    intro author hsome
    obtain ⟨op, error⟩ := invocation
    cases op with
    | init args => cases hsome
    | initWithOnboardedThing args thingId accessToken =>
        have hret : (initKiiThingIfWithOnboardedThing sdk args thingId accessToken).1 = true :=
          (Option.ite_none_right_eq_some.mp hsome).1
        have hstate := initWithOnboardedThing_state sdk args thingId accessToken
        have hpast : (initKiiThingIfWithOnboardedThing sdk args thingId accessToken).2.state ≠
            .initialized := by
          rw [hstate, hret]
          exact nofun
        obtain ⟨author', hsome', hcommand, hupdater⟩ := hconsistent hpast
        have heq : author' = author := Option.some.inj (hsome'.symm.trans hsome)
        rw [← heq]
        exact ⟨hcommand, hupdater⟩
    | _ => cases hinit
  · obtain ⟨op, error⟩ := invocation
    obtain ⟨author', hresponse, hcommand, hupdater⟩ :=
      (onboarding_ends hjson s.thing error hop).succeeded hret
    intro author hsome
    have hcredential : credentialAfter sdk s.tracked.credential op (op.run sdk s.thing error) =
        responseAuthor sdk (op.run sdk s.thing error).thing.commandHandler.responseBody := by
      cases op with
      | onboardWithVendorThingId args => exact if_pos ⟨rfl, hret⟩
      | onboardWithThingId args => exact if_pos ⟨rfl, hret⟩
      | _ => cases hop
    have heq : author' = author :=
      Option.some.inj (hresponse.symm.trans (hcredential.symm.trans hsome))
    rw [← heq]
    exact ⟨hcommand, hupdater⟩

/-- A call that is not cut off keeps the pair in both authors. -/
theorem bound_call (hjson : CopiesFields sdk.json) {s : System σ δ} (h : s.tracked.Bound)
    (invocation : Invocation) (hnot : ¬ Cuts sdk s (.call invocation)) :
    (s.afterCall sdk invocation).2.tracked.Bound := by
  by_cases hrestores : invocation.Restores sdk s.thing
  · exact bound_of_restores hjson hrestores
  · have hmem := @trackedStep_mem _ sdk s.tracked invocation
    obtain ⟨op, error⟩ := invocation
    have hinit : op.isInit = false := by
      cases hinit : op.isInit with
      | false => rfl
      | true => exact absurd (.inl hinit) hrestores
    cases hop : op.isOnboarding with
    | false =>
        have hkeeps := run_keepsCredentials sdk s.thing error hinit hop
        refine bound_of_kept h ?_ hkeeps.command hkeeps.updater
        cases op with
        | init args => cases hinit
        | initWithOnboardedThing args thingId accessToken => cases hinit
        | onboardWithVendorThingId args => cases hop
        | onboardWithThingId args => cases hop
        | _ => rfl
    | true =>
        -- An onboarding that fails uncut leaves both authors as they were.
        have hret : (op.run sdk s.thing error).ret = false := by
          cases hret : (op.run sdk s.thing error).ret with
          | false => rfl
          | true => exact absurd (.inr ⟨hop, hret⟩) hrestores
        obtain ⟨hcommand, hupdater, -⟩ := @atomic_of_not_interrupted _ sdk _ _ _ hjson hmem
          (fun hcut => hnot ⟨_, rfl, hcut⟩) hop hret
        refine bound_of_kept h ?_ hcommand hupdater
        have hfalse : ¬ (op.isOnboarding = true ∧ (op.run sdk s.thing error).ret = true) := by
          rw [hret]
          exact fun hboth => Bool.false_ne_true hboth.2
        cases op with
        | onboardWithVendorThingId args => exact if_neg hfalse
        | onboardWithThingId args => exact if_neg hfalse
        | _ => cases hop

/-- One move: the pair stays in both authors unless an onboarding is cut off. -/
theorem bound_step (hjson : CopiesFields sdk.json) (hhandlers : handlers.LeaveInstance)
    {s : System σ δ} (h : s.tracked.Bound) {move : Move δ} (hnot : ¬ Cuts sdk s move) :
    (s.step sdk handlers move).2.tracked.Bound := by
  cases move with
  | call invocation => exact bound_call hjson h invocation hnot
  | message stack fuel buffer =>
      have hsigned := receivedCallback_signs sdk hhandlers stack fuel
        ⟨⟨s.thing.commandHandler, s.device⟩, buffer⟩
      exact bound_of_kept h rfl hsigned.author rfl
  | enter task =>
      have hsigned := enterTask_signs sdk (fun _ => True) s.thing.stateUpdater
      unfold System.step System.afterEnter
      simp only
      split
      · exact bound_of_kept h rfl rfl hsigned.author
      · exact h
  | round task =>
      unfold System.step System.afterRound
      simp only
      split
      · rename_i resourcePath htask
        have hsigned := round_signs sdk s.thing.stateUpdatePeriod resourcePath
          (handlers.stateHandlerForPeriod s.device) s.thing.stateUpdater
        exact bound_of_kept h rfl rfl hsigned.author
      · exact h
  | sense device => exact h

theorem authorised_of_bound (hhandlers : handlers.LeaveInstance)
    {x : Step (System σ δ) (Move δ) (List Event)}
    (hout : x.output = (x.before.step sdk handlers x.input).1) (hnamed : x.before.Named)
    (hbound : x.before.tracked.Bound) : Authorised x := by
  have hcalls : ∀ call ret, .callStart call ret ∈ x.output → x.input.Requests x.before call ∧
      (MadeBy x.before.thing.commandHandler x.input call ∨
        MadeBy x.before.thing.stateUpdater x.input call) := by
    intro call ret hmem
    rw [hout] at hmem
    exact step_requests hhandlers x.before x.input hmem
  refine ⟨fun call ret hmem => (hcalls call ret hmem).1, fun call ret hmem app happ => ?_,
    fun call ret hmem hop author hauthor => ?_⟩
  · obtain ⟨hcommand, hupdater⟩ := hnamed app happ
    rcases (hcalls call ret hmem).2 with hmade | hmade
    · exact ⟨hmade.appId.trans hcommand.1, hmade.appKey.trans hcommand.2⟩
    · exact ⟨hmade.appId.trans hupdater.1, hmade.appKey.trans hupdater.2⟩
  · obtain ⟨hcommand, hupdater⟩ := hbound author hauthor
    rcases (hcalls call ret hmem).2 with hmade | hmade
    · exact (hmade.author hop).trans hcommand
    · exact (hmade.author hop).trans hupdater

end

/-! ## Runs -/

/-- In every run, behind an initialisation or an onboarding that succeeded, and up to the
next onboarding that is cut off, every request is authorised. -/
theorem requests_authorised {sdk : Sdk σ} (hjson : CopiesFields sdk.json)
    {handlers : Handlers σ δ} (hhandlers : handlers.LeaveInstance) (thing : KiiThingIf σ)
    (device : δ) (moves : List (Move δ))
    {front mid rest : List (Step (System σ δ) (Move δ) (List Event))}
    {y x : Step (System σ δ) (Move δ) (List Event)}
    (hrun : (systemMachine sdk handlers).steps (.fresh thing device) moves =
      front ++ y :: (mid ++ x :: rest))
    (hy : Restores sdk y.before y.input) (hmid : ∀ z ∈ mid, ¬ Cuts sdk z.before z.input) :
    Authorised x := by
  have hsteps : ∀ z ∈ (systemMachine sdk handlers).steps (.fresh thing device) moves,
      z.output = (z.before.step sdk handlers z.input).1 ∧
        z.after = (z.before.step sdk handlers z.input).2 := by
    intro z hz
    have hz' := Transducer.eq_stepAt_of_mem hz
    rw [hz']
    exact ⟨rfl, rfl⟩
  have hmem : ∀ z ∈ y :: (mid ++ x :: rest),
      z ∈ (systemMachine sdk handlers).steps (.fresh thing device) moves := by
    intro z hz
    rw [hrun]
    exact List.mem_append_right front hz
  have hx := hmem x (by simp)
  -- the app is kept from the beginning of the run on
  have hnamed : x.before.Named :=
    (@Transducer.invariant _ _ _ (systemMachine sdk handlers) _ _ System.Named
      (fun _ happ => by cases happ) (fun z hz h => by
        rw [(hsteps z hz).2]
        exact named_step hhandlers h z.input) x hx).1
  -- the pair is kept from `y` on
  obtain ⟨moves', hrest⟩ := Transducer.steps_behind hrun
  have hstart : y.after.tracked.Bound := by
    rw [(hsteps y (hmem y List.mem_cons_self)).2]
    obtain ⟨invocation, hinput, hrestores⟩ := hy
    rw [hinput]
    exact bound_of_restores hjson hrestores
  have hbound : x.before.tracked.Bound :=
    @Transducer.invariant_until _ _ _ _ _ _ (fun s : System σ δ => s.tracked.Bound) hstart _ _ _
      hrest.symm fun z hz hz' h => by
        rw [hz']
        exact bound_step hjson hhandlers h (hmid z hz)
  exact authorised_of_bound hhandlers (hsteps x hx).1 hnamed hbound

/-! ## A round behind an initialisation -/

/-- Handlers that do nothing. -/
def idleHandlers : Handlers (List Reply) Nat where
  actionHandler device _ _ _ error := { succeeded := true, error := error, device := device }
  stateHandlerForCommandReaction _ := .done true
  stateHandlerForPeriod _ := .done true
  customPushHandler := none

def idleMachine : Transducer (System (List Reply) Nat) (Move Nat) (List Event) :=
  systemMachine steadySdk idleHandlers

/-- An onboarded thing is initialised and started, and its task is entered. -/
def onboardedInit : Move Nat :=
  .call ⟨.initWithOnboardedThing sampleInit (ascii "th.1") (ascii "token"), freshError⟩

def startMove : Move Nat :=
  .call ⟨.start, freshError⟩

/-- The instance behind the first of these moves. -/
def startedFrom (moves : List (Move Nat)) : System (List Reply) Nat :=
  idleMachine.after (.fresh (steadyThing []) 0) moves

theorem startedRound_authorised :
    Authorised (idleMachine.stepAt (startedFrom [onboardedInit, startMove, .enter 0])
      (.round 0)) := by
  refine @requests_authorised _ _ steadySdk (referenceJson_copiesFields 64) idleHandlers nofun
    (steadyThing []) 0 [onboardedInit, startMove, .enter 0, .round 0] []
    [idleMachine.stepAt (startedFrom [onboardedInit]) startMove,
      idleMachine.stepAt (startedFrom [onboardedInit, startMove]) (.enter 0)] []
    (idleMachine.stepAt (.fresh (steadyThing []) 0) onboardedInit) _ rfl ⟨_, rfl, .inl rfl⟩ ?_
  rintro z hz ⟨invocation, hinput, -, honboarding, -⟩
  rcases List.mem_cons.mp hz with rfl | hz
  · -- `start` is no onboarding
    obtain rfl : (⟨.start, freshError⟩ : Invocation) = invocation := Move.call.inj hinput
    cases honboarding
  · rw [List.mem_singleton.mp hz] at hinput
    cases hinput

end ThingIfSdk
