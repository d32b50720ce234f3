import ThingIfSdk.Requests.Interruption

/-!
# Credentials over runs

The anonymous token and the fields of the onboarding response are read straight into
the author of the command handler, before it is known whether the call succeeds.  The
credentials are consistent in every state of a run in which no onboarding call fails
behind the first of these writes.
-/

namespace ThingIfSdk

open ByteText JsonText Staging Running

variable {σ : Type}

/-- The thing id and the access token in a response to an onboarding request. -/
def responseAuthor (sdk : Sdk σ) (body : Bytes) : Option Author :=
  let r := prvKiiThingIfJsonReadObject sdk body
    [thingIdField sdk.platform, accessTokenField sdk.platform]
  if r.1 = .success then
    (r.2 0).copied.bind fun authorId =>
      (r.2 1).copied.map fun accessToken => { authorId := authorId, accessToken := accessToken }
  else none

/-- An instance, and the pair that its last successful onboarding was about. -/
structure Tracked (σ : Type) where
  thing : KiiThingIf σ
  credential : Option Author

/-- What a call does to that pair: an init function starts afresh, with the pair it
is given if it is given one, and a successful onboarding has the pair of its response. -/
def credentialAfter (sdk : Sdk σ) (credential : Option Author) (op : Operation)
    (out : Outcome σ) : Option Author :=
  match op with
  | .init _ => none
  | .initWithOnboardedThing _ thingId accessToken =>
      if out.ret then some { authorId := thingId, accessToken := accessToken } else none
  | _ =>
      if op.isOnboarding = true ∧ out.ret = true then
        responseAuthor sdk out.thing.commandHandler.responseBody
      else credential

def trackedMachine (sdk : Sdk σ) : Transducer (Tracked σ) Invocation (Outcome σ) where
  step t call :=
    let out := call.operation.run sdk t.thing call.error
    (out,
      { thing := out.thing, credential := credentialAfter sdk t.credential call.operation out })

/-- The instance behind an initialisation. -/
def Initialisation.tracked (sdk : Sdk σ) : Initialisation → Tracked σ
  | .plain args => ⟨(initKiiThingIf sdk args).2, none⟩
  | .withOnboardedThing args thingId accessToken =>
      let r := initKiiThingIfWithOnboardedThing sdk args thingId accessToken
      ⟨r.2, if r.1 then some { authorId := thingId, accessToken := accessToken } else none⟩

/-- An instance that is past its initialisation has the pair in both its authors. -/
def Tracked.Consistent (t : Tracked σ) : Prop :=
  t.thing.state ≠ .initialized → ∃ author, t.credential = some author ∧
    t.thing.commandHandler.author = author ∧ t.thing.stateUpdater.author = author

/-- An onboarding call that fails leaves both authors and the state as they were. -/
def Atomic (x : Step (Tracked σ) Invocation (Outcome σ)) : Prop :=
  x.input.operation.isOnboarding = true → x.output.ret = false →
    x.after.thing.commandHandler.author = x.before.thing.commandHandler.author ∧
      x.after.thing.stateUpdater.author = x.before.thing.stateUpdater.author ∧
      x.after.thing.state = x.before.thing.state

/-- The call is an onboarding that is cut off behind its token. -/
def Interrupted (sdk : Sdk σ) (x : Step (Tracked σ) Invocation (Outcome σ)) : Prop :=
  x.before.thing.state ≠ .started ∧ x.input.operation.isOnboarding = true ∧
    CutOff sdk x.input.operation x.before.thing.commandHandler

/-! ## The pair of a response -/

/-- Where the stage goes on, the author is the pair of the response. -/
def HoldsResponse (sdk : Sdk σ) (f : Stage (Call σ)) : Prop :=
  f.Ensures fun c => responseAuthor sdk c.kii.responseBody = some c.kii.author

theorem responseAuthor_of_yields {sdk : Sdk σ} {body : Bytes} {author : Author}
    (h : YieldsAuthor sdk body author) : responseAuthor sdk body = some author := by
  unfold responseAuthor prvKiiThingIfJsonReadObject
  simp only [h.success, if_true, h.authorId, h.accessToken]
  rfl

section

variable {sdk : Sdk σ}

theorem holdsResponse_readResponse (hjson : CopiesFields sdk.json) :
    HoldsResponse sdk (intStage (prvThingIfParseOnboardingResponse sdk)) := by
  intro c hend
  have hsuccess : (sdk.json.kiiJsonReadObject c.kii.responseBody
      [thingIdField sdk.platform, accessTokenField sdk.platform]).1 = .success := by
    by_contra hne
    unfold intStage prvThingIfParseOnboardingResponse prvKiiThingIfJsonReadObject at hend
    simp [hne] at hend
  obtain ⟨author, hyields⟩ := exists_yieldsAuthor hjson hsuccess
  rw [intStage_parseOnboardingResponse sdk c hyields]
  exact responseAuthor_of_yields hyields

theorem holdsResponse_onboardStages (hjson : CopiesFields sdk.json) (args : OnboardArgs)
    (idKey contentType : Bytes) (startFailed : Stage (Call σ)) (bodyFailed : Call σ → Call σ) :
    HoldsResponse sdk (onboardStages sdk args idKey contentType startFailed bodyFailed) := by
  have hresponse := holdsResponse_readResponse hjson
  unfold HoldsResponse at hresponse ⊢
  exact hresponse.andThen.andThen.andThen.andThen

/-! ## One call -/

/-- What a call does to the credentials when it is one of the onboarding functions. -/
structure OnboardingEnds (sdk : Sdk σ) (thing : KiiThingIf σ) (out : Outcome σ) : Prop where
  failed : out.ret = false → out.thing.stateUpdater.author = thing.stateUpdater.author ∧
    out.thing.state = thing.state
  succeeded : out.ret = true → ∃ author,
    responseAuthor sdk out.thing.commandHandler.responseBody = some author ∧
      out.thing.commandHandler.author = author ∧ out.thing.stateUpdater.author = author

theorem onboardingEnds_refused (thing : KiiThingIf σ) (error : ErrorSlot) :
    OnboardingEnds sdk thing { ret := false, thing := thing, error := error, out := none } :=
  ⟨fun _ => ⟨rfl, rfl⟩, nofun⟩

theorem prvSetAuthor_eq {p : Platform} {thingId accessToken : Bytes} {author : Author}
    (h : prvSetAuthor p thingId accessToken = some author) :
    author = { authorId := thingId, accessToken := accessToken } := by
  unfold prvSetAuthor at h
  split at h
  · cases h
  · split at h
    · cases h
    · exact (Option.some.inj h).symm

theorem onboardingEnds_onboardWith {f : Call σ → Bool × Call σ} {thing : KiiThingIf σ}
    (hholds : HoldsResponse sdk f) (error : ErrorSlot) :
    OnboardingEnds sdk thing (onboardWith sdk f thing error) := by
  by_cases hstate : thing.state = .started
  · rw [onboardWith_started sdk f hstate error]
    exact onboardingEnds_refused thing _
  · obtain ⟨-, hkii⟩ := onboardWith_passes sdk f hstate error
    refine ⟨?_, ?_⟩
    · unfold onboardWith
      rw [if_neg hstate]
      simp only
      split
      · exact fun _ => ⟨rfl, rfl⟩
      · split
        · exact fun _ => ⟨rfl, rfl⟩
        · nofun
    -- A call that succeeds has read the author and copied it to the updater.
    · intro hret
      rw [hkii]
      unfold onboardWith at hret ⊢
      rw [if_neg hstate] at hret ⊢
      simp only at hret ⊢
      cases hend : (f ⟨thing.commandHandler, error⟩).1 with
      | false =>
          rw [hend] at hret
          cases hret
      | true =>
          have hresponse := hholds _ hend
          rw [hend] at hret
          cases hset : prvSetAuthor sdk.platform
              (f ⟨thing.commandHandler, error⟩).2.kii.author.authorId
              (f ⟨thing.commandHandler, error⟩).2.kii.author.accessToken with
          | none =>
              rw [hset] at hret
              cases hret
          | some author =>
              refine ⟨_, hresponse, rfl, ?_⟩
              exact prvSetAuthor_eq hset

theorem onboarding_ends (hjson : CopiesFields sdk.json) (thing : KiiThingIf σ) (error : ErrorSlot)
    {op : Operation} (hop : op.isOnboarding = true) :
    OnboardingEnds sdk thing (op.run sdk thing error) := by
  cases op with
  | onboardWithVendorThingId args =>
      apply onboardingEnds_onboardWith
      rw [prvOnboardWithVendorThingId_eq]
      exact holdsResponse_onboardStages hjson args _ _ _ _
  | onboardWithThingId args =>
      apply onboardingEnds_onboardWith
      rw [prvOnboardWithThingId_eq]
      exact holdsResponse_onboardStages hjson args _ _ _ _
  | _ => cases hop

/-- With its author left for the other one, the public function returns what the private
one does. -/
theorem onboardWith_ret {f : Stage (Call σ)} {thing : KiiThingIf σ}
    (hstate : thing.state ≠ .started) (hleaves : LeavesAuthor sdk f) (error : ErrorSlot) :
    (onboardWith sdk f thing error).ret = (f ⟨thing.commandHandler, error⟩).1 := by
  unfold onboardWith
  rw [if_neg hstate]
  simp only
  cases hend : (f ⟨thing.commandHandler, error⟩).1 with
  | false => rfl
  | true =>
      cases hset : prvSetAuthor sdk.platform (f ⟨thing.commandHandler, error⟩).2.kii.author.authorId
          (f ⟨thing.commandHandler, error⟩).2.kii.author.accessToken with
      | none => exact absurd hset (hleaves _ hend)
      | some author => rfl

/-- A failing call that is not interrupted leaves the author of the command handler alone. -/
theorem commandAuthor_of_not_interrupted (hjson : CopiesFields sdk.json)
    {x : Step (Tracked σ) Invocation (Outcome σ)}
    (hout : x.output = x.input.operation.run sdk x.before.thing x.input.error)
    (hnot : ¬ Interrupted sdk x) (hop : x.input.operation.isOnboarding = true)
    (hret : x.output.ret = false) :
    x.output.thing.commandHandler.author = x.before.thing.commandHandler.author := by
  obtain ⟨request, hrequest⟩ := exists_requestStage sdk hop
  obtain ⟨hrun, hleaves⟩ := onboarding_run sdk hrequest
  rw [hrun] at hout
  by_cases hstate : x.before.thing.state = .started
  · rw [hout, onboardWith_started sdk _ hstate]
  · have hgaveUp := onboardWith_ret hstate (hleaves hjson) x.input.error
    rw [← hout, hret] at hgaveUp
    obtain ⟨-, hkii⟩ := onboardWith_passes sdk ((tokenStages sdk).andThen request) hstate
      x.input.error
    rw [hout, hkii]
    exact author_of_not_cutOff (c := ⟨x.before.thing.commandHandler, x.input.error⟩) hjson hrequest
      (fun hcut => hnot ⟨hstate, hop, hcut⟩) hgaveUp.symm

/-! ## Calls that are no onboarding -/

/-- The author of both identities and the state are as they were. -/
structure KeepsCredentials (thing thing' : KiiThingIf σ) : Prop where
  command : thing'.commandHandler.author = thing.commandHandler.author
  updater : thing'.stateUpdater.author = thing.stateUpdater.author
  state : thing'.state = thing.state

theorem start_keepsCredentials (thing : KiiThingIf σ) :
    KeepsCredentials thing (start sdk thing).2 := by
  unfold start
  simp only
  split
  · exact ⟨rfl, rfl, rfl⟩
  · split <;> exact ⟨rfl, rfl, rfl⟩

theorem whenOnboarded_keepsCredentials (thing : KiiThingIf σ) (error : ErrorSlot)
    {request : Call σ → Bool × Call σ × Option Bytes} (h : LogsOnly (outStage request)) :
    KeepsCredentials thing (whenOnboarded thing error request).thing := by
  unfold whenOnboarded
  cases hstate : thing.state with
  | initialized => exact ⟨rfl, rfl, rfl⟩
  | started => exact ⟨rfl, rfl, rfl⟩
  | onboarded =>
      obtain ⟨es, hlogs⟩ := h ⟨thing.commandHandler, error⟩
      exact ⟨hlogs.author_eq, rfl, hstate.symm⟩

theorem run_keepsCredentials (sdk : Sdk σ) (thing : KiiThingIf σ) (error : ErrorSlot) {op : Operation}
    (hinit : op.isInit = false) (hop : op.isOnboarding = false) :
    KeepsCredentials thing (op.run sdk thing error).thing := by
  cases op with
  | init args => cases hinit
  | initWithOnboardedThing args thingId accessToken => cases hinit
  | onboardWithVendorThingId args => cases hop
  | onboardWithThingId args => cases hop
  | start => exact start_keepsCredentials thing
  | getFirmwareVersion len =>
      exact whenOnboarded_keepsCredentials thing error (logsOnly_requestProperty _ _ len)
  | updateFirmwareVersion v =>
      exact whenOnboarded_keepsCredentials thing error (logsOnly_updateProperty _ _ _ v)
  | getThingType len =>
      exact whenOnboarded_keepsCredentials thing error (logsOnly_requestProperty _ _ len)
  | updateThingType v =>
      exact whenOnboarded_keepsCredentials thing error (logsOnly_updateProperty _ _ _ v)

theorem prvInitKiiThingIf_state (sdk : Sdk σ) (args : InitArgs) :
    (prvInitKiiThingIf sdk args).2.state = .initialized := by
  unfold prvInitKiiThingIf
  simp only
  split
  · rfl
  · split <;> rfl

/-- An initialisation leads to a consistent instance, whether it succeeds or not. -/
theorem Initialisation.consistent (sdk : Sdk σ) (init : Initialisation) :
    (init.tracked sdk).Consistent := by
  cases init with
  | plain args =>
      intro hstate
      exact absurd (prvInitKiiThingIf_state sdk args) hstate
  | withOnboardedThing args thingId accessToken =>
      intro hstate
      have hinit := prvInitKiiThingIf_state sdk args
      unfold Initialisation.tracked initKiiThingIfWithOnboardedThing at hstate ⊢
      simp only at hstate ⊢
      cases hret : (prvInitKiiThingIf sdk args).1 with
      | false =>
          rw [hret] at hstate
          exact absurd hinit hstate
      | true =>
          rw [hret] at hstate
          cases hset : prvSetAuthor sdk.platform thingId accessToken with
          | none =>
              rw [hset] at hstate
              exact absurd hinit hstate
          | some author =>
              refine ⟨_, rfl, ?_, ?_⟩
              · exact prvSetAuthor_eq hset
              · exact prvSetAuthor_eq hset

/-! ## Runs -/

variable {x : Step (Tracked σ) Invocation (Outcome σ)} {t : Tracked σ} {calls : List Invocation}

theorem tracked_of_mem (h : x ∈ (trackedMachine sdk).steps t calls) :
    x.output = x.input.operation.run sdk x.before.thing x.input.error ∧
      x.after.thing = x.output.thing ∧
      x.after.credential = credentialAfter sdk x.before.credential x.input.operation x.output := by
  have hx := Transducer.eq_stepAt_of_mem h
  rw [hx]
  exact ⟨rfl, rfl, rfl⟩

/-- An init function leads to a consistent instance from any state. -/
theorem consistent_of_isInit (hinit : x.input.operation.isInit = true)
    (hx : x ∈ (trackedMachine sdk).steps t calls) : x.after.Consistent := by
  obtain ⟨hout, hthing, hcredential⟩ := tracked_of_mem hx
  have hafter : ∀ init : Initialisation,
      x.after.thing = (init.tracked sdk).thing → x.after.credential = (init.tracked sdk).credential →
        x.after.Consistent := by
    intro init h h'
    have hconsistent := init.consistent sdk
    unfold Tracked.Consistent at hconsistent ⊢
    rw [h, h']
    exact hconsistent
  rw [hout] at hthing hcredential
  cases hop : x.input.operation with
  | init args =>
      rw [hop] at hthing hcredential
      exact hafter (.plain args) hthing hcredential
  | initWithOnboardedThing args thingId accessToken =>
      rw [hop] at hthing hcredential
      exact hafter (.withOnboardedThing args thingId accessToken) hthing hcredential
  | _ =>
      rw [hop] at hinit
      cases hinit

theorem atomic_of_not_interrupted (hjson : CopiesFields sdk.json)
    (hx : x ∈ (trackedMachine sdk).steps t calls) (hnot : ¬ Interrupted sdk x) : Atomic x := by
  intro hop hret
  obtain ⟨hout, hthing, -⟩ := tracked_of_mem hx
  have hends := onboarding_ends hjson x.before.thing x.input.error hop
  rw [← hout] at hends
  obtain ⟨hupdater, hstate⟩ := hends.failed hret
  rw [hthing]
  exact ⟨commandAuthor_of_not_interrupted hjson hout hnot hop hret, hupdater, hstate⟩

/-- One step: what a call that is not interrupted keeps. -/
theorem consistent_step (hjson : CopiesFields sdk.json)
    (hx : x ∈ (trackedMachine sdk).steps t calls) (hnot : ¬ Interrupted sdk x)
    (h : x.before.Consistent) : x.after.Consistent := by
  obtain ⟨hout, hthing, hcredential⟩ := tracked_of_mem hx
  cases hinit : x.input.operation.isInit with
  | true => exact consistent_of_isInit hinit hx
  | false =>
      have hrest : credentialAfter sdk x.before.credential x.input.operation x.output =
          if x.input.operation.isOnboarding = true ∧ x.output.ret = true then
            responseAuthor sdk x.output.thing.commandHandler.responseBody
          else x.before.credential := by
        cases hop : x.input.operation with
        | init args =>
            rw [hop] at hinit
            cases hinit
        | initWithOnboardedThing args thingId accessToken =>
            rw [hop] at hinit
            cases hinit
        | _ => rfl
      rw [hrest] at hcredential
      -- with the pair as it was, it is enough that the instance is
      have hsame : KeepsCredentials x.before.thing x.after.thing →
          x.after.credential = x.before.credential → x.after.Consistent := by
        intro hkeeps hpair hstate
        rw [hkeeps.state] at hstate
        rw [hkeeps.command, hkeeps.updater, hpair]
        exact h hstate
      cases hop : x.input.operation.isOnboarding with
      | false =>
          rw [if_neg fun hboth => by rw [hop] at hboth; exact Bool.false_ne_true hboth.1]
            at hcredential
          have hkeeps := run_keepsCredentials sdk x.before.thing x.input.error hinit hop
          rw [← hout, ← hthing] at hkeeps
          exact hsame hkeeps hcredential
      | true =>
          cases hret : x.output.ret with
          | false =>
              rw [if_neg fun hboth => by rw [hret] at hboth; exact Bool.false_ne_true hboth.2]
                at hcredential
              obtain ⟨hcommand, hupdater, hstate⟩ := atomic_of_not_interrupted hjson hx hnot hop hret
              exact hsame ⟨hcommand, hupdater, hstate⟩ hcredential
          | true =>
              rw [if_pos ⟨hop, hret⟩] at hcredential
              have hends := onboarding_ends hjson x.before.thing x.input.error hop
              rw [← hout] at hends
              obtain ⟨author, hresponse, hcommand, hupdater⟩ := hends.succeeded hret
              intro _
              refine ⟨author, hcredential.trans hresponse, ?_, ?_⟩
              · rw [hthing]
                exact hcommand
              · rw [hthing]
                exact hupdater

end

/-- In every run without an interrupted onboarding, the credentials are consistent
before and behind every call, and an onboarding that fails leaves them alone. -/
theorem credentials_consistent {sdk : Sdk σ} (hjson : CopiesFields sdk.json)
    (init : Initialisation) (calls : List Invocation)
    (hnone : ∀ x ∈ (trackedMachine sdk).steps (init.tracked sdk) calls, ¬ Interrupted sdk x) :
    (init.tracked sdk).Consistent ∧
      ∀ x ∈ (trackedMachine sdk).steps (init.tracked sdk) calls,
        x.before.Consistent ∧ x.after.Consistent ∧ Atomic x := by
  have hruns : ∀ x ∈ (trackedMachine sdk).steps (init.tracked sdk) calls,
      x.before.Consistent ∧ x.after.Consistent :=
    Transducer.invariant (init.consistent sdk) fun x hx => consistent_step hjson hx (hnone x hx)
  refine ⟨init.consistent sdk, fun x hx => ?_⟩
  obtain ⟨hbefore, hafter⟩ := hruns x hx
  exact ⟨hbefore, hafter, atomic_of_not_interrupted hjson hx (hnone x hx)⟩

/-! ## Onboarding once more -/

theorem answering_tokenStages (replies : List Reply) :
    tokenStages (answeringSdk replies) = tokenStages steadySdk := rfl

/-- An instance of an onboarded thing, onboarded twice more. -/
def reonboarding (replies : List Reply) :
    List (Step (Tracked (List Reply)) Invocation (Outcome (List Reply))) :=
  (trackedMachine (answeringSdk replies)).steps
    ((Initialisation.withOnboardedThing sampleInit (ascii "th.1") (ascii "token")).tracked
      (answeringSdk replies))
    [⟨.onboardWithVendorThingId plainArgs, freshError⟩, ⟨.onboardWithThingId plainArgs, freshError⟩]

section

variable {replies rest : List Reply} {before : Kii (List Reply)}
  (happ : before.appId = ascii "app")

include happ

theorem not_cutOff_of_good
    (hcore : before.core = .ok tokenResponse :: .ok onboardResponse :: rest) :
    ¬ CutOff (answeringSdk replies) (.onboardWithVendorThingId plainArgs) before := by
  obtain ⟨token, kii₁, kii₂, htoken, hpath, hanswered, hyields, -⟩ :=
    @requests_answering replies _ _ happ hcore
  rintro (⟨htoken', hnot⟩ | ⟨-, kii', hanswered', hread, -⟩)
  · obtain rfl := htoken.unique htoken'
    exact hnot (.vendorThingId hpath hanswered hyields.success)
  · obtain ⟨-, kii, hanswered₁, hyields₁, -⟩ := htoken
    obtain rfl := hanswered₁.unique hanswered'
    exact hread hyields₁.success

omit happ in
/-- A token request that is rejected writes nothing. -/
theorem not_cutOff_of_rejected (hcore : before.core = notFound :: rest) (op : Operation) :
    ¬ CutOff (answeringSdk replies) op before := by
  rintro (⟨⟨-, kii, hanswered, -⟩, -⟩ | ⟨-, kii, hanswered, -⟩)
  · exact not_answered_answering hcore rfl hanswered
  · exact not_answered_answering hcore rfl hanswered

end

/-- An onboarding with two good replies to come uses them up. -/
theorem reonboarded_core {t : Tracked (List Reply)} {replies rest : List Reply}
    (hstate : t.thing.state ≠ .started) (happ : t.thing.commandHandler.appId = ascii "app")
    (hcore : t.thing.commandHandler.core = .ok tokenResponse :: .ok onboardResponse :: rest) :
    ((trackedMachine (answeringSdk replies)).step t
      ⟨.onboardWithVendorThingId plainArgs, freshError⟩).2.thing.commandHandler.core = rest := by
  obtain ⟨token, kii₁, kii₂, htoken, hpath, hanswered, hyields, hrest⟩ :=
    @requests_answering replies _ _ happ hcore
  obtain ⟨-, hkii⟩ := onboardWith_passes (answeringSdk replies)
    (prvOnboardWithVendorThingId (answeringSdk replies) plainArgs) hstate freshError
  rw [vendor_of_requests (c := ⟨t.thing.commandHandler, freshError⟩) htoken hpath hanswered
    hyields] at hkii
  show (onboardWith (answeringSdk replies) (prvOnboardWithVendorThingId (answeringSdk replies)
    plainArgs) t.thing freshError).thing.commandHandler.core = rest
  rw [hkii]
  exact hrest

/-- A run whose second call is an onboarding with a good token and a good response, and whose
third is one whose token request is rejected. -/
theorem not_interrupted_of_replies {t : Tracked (List Reply)} {replies rest : List Reply}
    (hstate : t.thing.state ≠ .started) (happ : t.thing.commandHandler.appId = ascii "app")
    (hcore : t.thing.commandHandler.core =
      .ok tokenResponse :: .ok onboardResponse :: notFound :: rest) :
    ∀ x ∈ (trackedMachine (answeringSdk replies)).steps t
        [⟨.onboardWithVendorThingId plainArgs, freshError⟩,
          ⟨.onboardWithThingId plainArgs, freshError⟩],
      ¬ Interrupted (answeringSdk replies) x := by
  intro x hx
  rw [Transducer.steps_cons, Transducer.steps_cons, Transducer.steps_nil, List.mem_cons,
    List.mem_singleton] at hx
  rcases hx with rfl | rfl
  · rintro ⟨-, -, hcut⟩
    exact not_cutOff_of_good happ hcore hcut
  · rintro ⟨-, -, hcut⟩
    exact not_cutOff_of_rejected (reonboarded_core hstate happ hcore) _ hcut

/-- The second onboarding goes through, the token request of the third is rejected. -/
theorem reonboarded_credentials_consistent :
    let replies : List Reply := [.ok tokenResponse, .ok onboardResponse, notFound]
    ((Initialisation.withOnboardedThing sampleInit (ascii "th.1") (ascii "token")).tracked
        (answeringSdk replies)).Consistent ∧
      ∀ x ∈ reonboarding replies, x.before.Consistent ∧ x.after.Consistent ∧ Atomic x :=
  credentials_consistent (referenceJson_copiesFields 64) _ _
    (not_interrupted_of_replies (by decide) rfl rfl)

/-- With no replies to come, the request of an onboarding does not start. -/
theorem vendorStage_exhausted {kii : Kii (List Reply)} (hcore : kii.core = []) {resourcePath : Bytes}
    (hpath : prvSetOnboardResourcePath steadySdk.platform kii.appId 64 = some resourcePath)
    (replies : List Reply) (error : ErrorSlot) :
    ∃ kii', vendorStage (answeringSdk replies) plainArgs ⟨kii, error⟩ =
        (false, { kii := kii', error := error.setCode .insufficientBuffer }) ∧
      kii'.author = kii.author := by
  have hstart : (kiiApiCallStart (answeringSdk replies) kii (ascii "POST") resourcePath
      (some contentTypeVendorThingId) true).1 ≠ 0 := by
    show ((kii.core.map Reply.startRet).headD (-1)) ≠ 0
    rw [hcore]
    decide
  unfold vendorStage Stage.andThen
  rw [@openStage_of_path _ (answeringSdk replies)
    (fun kii => prvSetOnboardResourcePath (answeringSdk replies).platform kii.appId 64) refusedPath
    _ _ _ _ ⟨kii, error⟩ resourcePath hpath]
  simp only [if_pos hstart]
  exact ⟨_, rfl, rfl⟩

/-- With a token to come and nothing behind it, the onboarding fails and the token stays. -/
theorem onboarding_cutOff {thing : KiiThingIf (List Reply)} (hstate : thing.state ≠ .started)
    (happId : thing.commandHandler.appId = ascii "app")
    (hcore : thing.commandHandler.core = [.ok tokenResponse]) (replies : List Reply)
    (error : ErrorSlot) :
    let out := onboardWithVendorThingId (answeringSdk replies) plainArgs thing error
    out.ret = false ∧ out.thing.commandHandler.author.accessToken = ascii "t" ∧
      out.thing.state = thing.state ∧ out.thing.stateUpdater = thing.stateUpdater := by
  have htokenPath : tokenPath steadySdk thing.commandHandler =
      some (tokenRequest thing.commandHandler).resourcePath := by
    refine if_neg ?_
    rw [happId]
    decide
  obtain ⟨kii, htoken, happ, hnone, hcopied⟩ := token_steady htokenPath hcore error
  rw [← answering_tokenStages replies] at htoken
  have hpath : prvSetOnboardResourcePath steadySdk.platform kii.appId 64 =
      some [thingIfAppPath, ascii "app", onboardingPath].flatten := by
    rw [happ, happId]
    rfl
  obtain ⟨kii', hrequest, hauthor⟩ := vendorStage_exhausted hnone hpath replies error
  have hprivate : prvOnboardWithVendorThingId (answeringSdk replies) plainArgs
      ⟨thing.commandHandler, error⟩ =
        (false, { kii := kii', error := error.setCode .insufficientBuffer }) := by
    rw [prvOnboardWithVendorThingId_of_token (congrArg Prod.fst htoken), htoken]
    exact hrequest
  unfold onboardWithVendorThingId onboardWith
  simp only [if_neg hstate, hprivate, if_true]
  refine ⟨trivial, ?_, trivial, trivial⟩
  rw [hauthor]
  exact hcopied

/-- The same as a step of a run. -/
theorem cutOff_step {t : Tracked (List Reply)} (hstate : t.thing.state = .onboarded)
    (happId : t.thing.commandHandler.appId = ascii "app")
    (hcore : t.thing.commandHandler.core = [.ok tokenResponse])
    (hcommand : t.thing.commandHandler.author.accessToken = ascii "token")
    (hupdater : t.thing.stateUpdater.author.accessToken = ascii "token") (replies : List Reply) :
    let x := (trackedMachine (answeringSdk replies)).stepAt t
      ⟨.onboardWithVendorThingId plainArgs, freshError⟩
    x.output.ret = false ∧ ¬ Atomic x ∧ ¬ x.after.Consistent := by
  intro x
  obtain ⟨hret, htoken, hstate', hupdater'⟩ :
      x.output.ret = false ∧ x.after.thing.commandHandler.author.accessToken = ascii "t" ∧
        x.after.thing.state = t.thing.state ∧
        x.after.thing.stateUpdater = t.thing.stateUpdater :=
    onboarding_cutOff (by rw [hstate]; nofun) happId hcore replies freshError
  have hne : ascii "token" ≠ ascii "t" := by decide
  refine ⟨hret, fun h => ?_, fun h => ?_⟩
  · obtain ⟨hsame, -, -⟩ := h rfl hret
    rw [hsame] at htoken
    exact hne (hcommand.symm.trans htoken)
  · obtain ⟨author, -, hauthor, hother⟩ := h (by rw [hstate', hstate]; nofun)
    rw [hupdater', ← hauthor] at hother
    rw [hother] at hupdater
    exact hne (hupdater.symm.trans htoken)

/-- The onboarding of an onboarded thing is cut off behind its token request. -/
theorem cutOff_not_consistent :
    ∃ x ∈ reonboarding [.ok tokenResponse],
      x.output.ret = false ∧ ¬ Atomic x ∧ ¬ x.after.Consistent :=
  ⟨_, List.mem_cons_self, cutOff_step rfl rfl rfl rfl rfl _⟩

end ThingIfSdk
