import ThingIfSdk.Command.Transcript
import ThingIfSdk.Model.Updater
import ThingIfSdk.Requests.Credentials

/-!
# The requests of the SDK

Nine kinds of requests is all that the SDK ever makes.  `Respects` collects what single
steps do to a `kii_t`; a relation that they respect is kept by every function, whatever
its loops come to, so that a fact about all requests is shown for one start.
-/

namespace ThingIfSdk

open ByteText JsonText Staging

variable {σ δ : Type}

/-! ## Kinds of requests -/

/-- What a request is about. -/
inductive RequestKind where
  | anonymousToken
  | onboardWithVendorThingId
  | onboardWithThingId
  | commandResults (commandId : Bytes)
  | thingState
  | getFirmwareVersion
  | updateFirmwareVersion
  | getThingType
  | updateThingType
deriving DecidableEq

/-- The arguments of a start call that are not taken from the `kii_t`. -/
structure Opening where
  httpMethod : Bytes
  resourcePath : Bytes
  contentType : Option Bytes
  setAuthenticationHeader : Bool

namespace RequestKind

def httpMethod : RequestKind → Bytes
  | anonymousToken => ascii "POST"
  | onboardWithVendorThingId => ascii "POST"
  | onboardWithThingId => ascii "POST"
  | commandResults _ => ascii "PUT"
  | thingState => ascii "PUT"
  | getFirmwareVersion => ascii "GET"
  | updateFirmwareVersion => ascii "PUT"
  | getThingType => ascii "GET"
  | updateThingType => ascii "PUT"

def pathParts (appId authorId : Bytes) : RequestKind → List Bytes
  | anonymousToken => [appPath, appId, oauthPath]
  | onboardWithVendorThingId => [thingIfAppPath, appId, onboardingPath]
  | onboardWithThingId => [thingIfAppPath, appId, onboardingPath]
  | commandResults commandId =>
      [thingIfAppPath, appId, targetPart, authorId, commandPart, commandId, resultsPart]
  | thingState => [thingIfAppPath, appId, targetPart, authorId, statesPart]
  | getFirmwareVersion => [thingIfAppPath, appId, thingsPart, authorId, firmwareVersionPart]
  | updateFirmwareVersion => [thingIfAppPath, appId, thingsPart, authorId, firmwareVersionPart]
  | getThingType => [thingIfAppPath, appId, thingsPart, authorId, thingTypePart]
  | updateThingType => [thingIfAppPath, appId, thingsPart, authorId, thingTypePart]

def resourcePath (kind : RequestKind) (appId authorId : Bytes) : Bytes :=
  (kind.pathParts appId authorId).flatten

def contentType : RequestKind → Option Bytes
  | anonymousToken => some contentTypeJson
  | onboardWithVendorThingId => some contentTypeVendorThingId
  | onboardWithThingId => some contentTypeThingId
  | commandResults _ => some contentTypeJson
  | thingState => some contentUpdateState
  | getFirmwareVersion => none
  | updateFirmwareVersion => some contentUpdateFirmwareVersion
  | getThingType => none
  | updateThingType => some contentUpdateThingType

/-- Every request but the one for the token carries the access token. -/
def authenticated : RequestKind → Bool
  | anonymousToken => false
  | _ => true

def opening (kind : RequestKind) (kii : Kii σ) : Opening where
  httpMethod := kind.httpMethod
  resourcePath := kind.resourcePath kii.appId kii.author.authorId
  contentType := kind.contentType
  setAuthenticationHeader := kind.authenticated

/-- The request of this kind in the name of a `kii_t`. -/
def call (kind : RequestKind) (kii : Kii σ) : ApiCall :=
  kii.apiCall kind.httpMethod (kind.resourcePath kii.appId kii.author.authorId) kind.contentType
    kind.authenticated

end RequestKind

def Opening.start (o : Opening) (sdk : Sdk σ) (kii : Kii σ) : Int × Kii σ :=
  kiiApiCallStart sdk kii o.httpMethod o.resourcePath o.contentType o.setAuthenticationHeader

theorem resourcePath_of_set {p : Platform} {parts : List Bytes} {size : Nat} {path : Bytes}
    (h : prvSetResourcePath p parts size = some path) : path = parts.flatten := by
  unfold prvSetResourcePath at h
  split at h
  · cases h
  · exact (Option.some.inj h).symm

/-! ## What single steps respect -/

/-- The entry is not one of a call into the submodule or of the action handler. -/
def Event.isLocal : Event → Bool
  | .callStart .. => false
  | .appendBody .. => false
  | .write .. => false
  | .callRun .. => false
  | .action .. => false
  | .pushStartRoutine _ => false
  | .taskCreate _ => false
  | _ => true

/-- `kii_push_start_routine` and `task_create_cb` as `start` calls them. -/
def Kii.pushStart (sdk : Sdk σ) (kii : Kii σ) : Kii σ :=
  { kii with core := (sdk.api.kiiPushStartRoutine kii.core).2 }.emit
    (.pushStartRoutine (sdk.api.kiiPushStartRoutine kii.core).1)

def Kii.taskCreate (sdk : Sdk σ) (kii : Kii σ) : Kii σ :=
  let task := sdk.api.taskCreateCb kii.core (ascii "status_update_task")
  { kii with core := task.2 }.emit (.taskCreate task.1)

/-- A relation between an earlier and a later state of a `kii_t` that the single steps of
the SDK keep, the starts of the requests that are allowed among them. -/
structure Respects (sdk : Sdk σ) (allowed : Kii σ → Opening → Prop)
    (R : Kii σ → Kii σ → Prop) : Prop where
  refl : ∀ kii, R kii kii
  trans : ∀ {k₁ k₂ k₃}, R k₁ k₂ → R k₂ k₃ → R k₁ k₃
  emit : ∀ kii e, e.isLocal = true → R kii (kii.emit e)
  append : ∀ bytes kii, R kii (kiiApiCallAppendBody sdk bytes kii).2
  write : ∀ bytes kii, R kii (prvWriter sdk bytes kii).2
  run : ∀ kii, R kii (kiiApiCallRun sdk kii).2
  start : ∀ (o : Opening) kii, allowed kii o → R kii (o.start sdk kii).2
  push : ∀ kii, R kii (kii.pushStart sdk)
  task : ∀ kii, R kii (kii.taskCreate sdk)

/-- The relation also bears a new author. -/
structure RespectsAuthors (sdk : Sdk σ) (allowed : Kii σ → Opening → Prop)
    (R : Kii σ → Kii σ → Prop) : Prop extends Respects sdk allowed R where
  author : ∀ kii author, R kii { kii with author := author }

/-- The relation also bears calls of the action handler. -/
structure RespectsActions (sdk : Sdk σ) (allowed : Kii σ → Opening → Prop)
    (R : Kii σ → Kii σ → Prop) : Prop extends Respects sdk allowed R where
  action : ∀ kii aliasName actionName actionParams errorMessage,
    R kii (kii.emit (.action aliasName actionName actionParams errorMessage))

/-- Every request of the kinds is allowed. -/
def Allows (allowed : Kii σ → Opening → Prop) (kinds : List RequestKind) : Prop :=
  ∀ kind ∈ kinds, ∀ kii, allowed kii (kind.opening kii)

section

variable {sdk : Sdk σ} {allowed : Kii σ → Opening → Prop} {R : Kii σ → Kii σ → Prop}

namespace Respects

theorem refusePath (h : Respects sdk allowed R) (kii : Kii σ) : R kii kii.refusePath :=
  h.trans (h.emit kii .assertion rfl) (h.emit _ .pathTooLong rfl)

theorem startKind (h : Respects sdk allowed R) {kinds : List RequestKind}
    (hkinds : Allows allowed kinds) {kind : RequestKind} (hmem : kind ∈ kinds) (kii : Kii σ) :
    R kii (kiiApiCallStart sdk kii kind.httpMethod (kind.resourcePath kii.appId
      kii.author.authorId) kind.contentType kind.authenticated).2 :=
  h.start (kind.opening kii) kii (hkinds kind hmem kii)

theorem pieces (h : Respects sdk allowed R) (ps : List Bytes) (kii : Kii σ) :
    R kii (appendPieces sdk ps kii).2 := by
  induction ps generalizing kii with
  | nil => exact h.refl kii
  | cons p ps ih =>
      rw [appendPieces_cons]
      split
      · exact h.append p kii
      · exact h.trans (h.append p kii) (ih _)

/-- A chain of appends. -/
theorem chain (h : Respects sdk allowed R) {cs : List (Kii σ → Int × Kii σ)}
    {pieces : List (List Bytes)} (hcs : List.Forall₂ (Appends sdk) cs pieces) (kii : Kii σ) :
    R kii (anyFails cs kii).2 := by
  rw [anyFails_appends hcs]
  exact h.pieces _ kii

theorem writer (h : Respects sdk allowed R) (w : WriterProgram) (kii : Kii σ) :
    R kii (runWriter sdk w kii).2 := by
  induction w generalizing kii with
  | done ret => exact h.emit kii (.stateHandler ret) rfl
  | write buff next ih => exact h.trans (h.write buff kii) (ih _ _)

end Respects

/-! ## Commands -/

/-- The path that the `strcat` chain assembles is the one of the results. -/
theorem resultsPath_eq (appId authorId commandId : Bytes) :
    resultsPath appId authorId commandId =
      (RequestKind.commandResults (cstr commandId)).resourcePath appId authorId := by
  simp [resultsPath, RequestKind.resourcePath, RequestKind.pathParts]

theorem Respects.sendState (h : Respects sdk allowed R) (hkinds : Allows allowed [.thingState])
    (stateHandler : WriterProgram) (kii : Kii σ) :
    R kii (prvSendState sdk stateHandler kii).2 := by
  unfold prvSendState
  cases hpath : prvSetStateResourcePath sdk.platform kii.appId kii.author.authorId 256 with
  | none => exact h.refusePath kii
  | some resourcePath =>
      have hresource : resourcePath =
          RequestKind.thingState.resourcePath kii.appId kii.author.authorId :=
        resourcePath_of_set hpath
      have hstart := h.startKind hkinds List.mem_cons_self kii
      rw [← hresource] at hstart
      -- each return is a further step behind the start
      simp only
      split
      · exact hstart
      · have hwritten := h.trans hstart (h.writer stateHandler _)
        split
        · exact hwritten
        · have hrun := h.trans hwritten (h.run _)
          split
          · exact hrun
          · exact hrun

theorem RespectsActions.performAction (h : RespectsActions sdk allowed R) (handlers : Handlers σ δ)
    (stack : Stack) (i j : Nat) (a n v : Bytes) (m : Machine σ δ) :
    R m.kii (performAction sdk handlers stack i j a n v m).2.kii := by
  rw [performAction_eq]
  have hcalled := h.action m.kii a n v (callHandler handlers stack i j a n v m.device).1
  have hseparated : ∀ kii, R kii (appendSeparator sdk i j kii) := by
    intro kii
    unfold appendSeparator
    split
    · exact h.append _ kii
    · exact h.refl kii
  exact h.trans (h.trans hcalled (hseparated _)) (h.pieces _ _)

theorem RespectsActions.runAction (h : RespectsActions sdk allowed R) (handlers : Handlers σ δ)
    (stack : Stack) (i j : Nat) (aliasName : Int) (kv : KeyValue) (s : CommandState σ δ) :
    R s.machine.kii (runAction sdk handlers stack i j aliasName kv s).2.machine.kii := by
  unfold ThingIfSdk.runAction
  split
  · simp only
    split
    · split <;> exact h.performAction handlers stack i j _ _ _ s.machine
    · exact h.refl _
  · exact h.refl _

theorem RespectsActions.actionLoop (h : RespectsActions sdk allowed R) (handlers : Handlers σ δ)
    (stack : Stack) (aliasIndex : Nat) (aliasName actions actionsLen : Int) (fuel index : Nat)
    (s : CommandState σ δ) :
    R s.machine.kii (actionLoop sdk handlers stack aliasIndex aliasName actions actionsLen fuel
      index s).2.machine.kii := by
  induction fuel generalizing index s with
  | zero => exact h.refl _
  | succ fuel ih =>
      unfold ThingIfSdk.actionLoop
      split
      · exact h.refl _
      · exact h.refl _
      · exact h.refl _
      · rename_i kv _
        have haction := h.runAction handlers stack aliasIndex index aliasName kv s
        split
        · rename_i s' hrun
          rw [hrun] at haction
          exact h.trans haction (ih _ s')
        · exact haction

theorem RespectsActions.runAlias (h : RespectsActions sdk allowed R) (handlers : Handlers σ δ)
    (stack : Stack) (fuel aliasIndex : Nat) (kv : KeyValue) (s : CommandState σ δ) :
    R s.machine.kii (runAlias sdk handlers stack fuel aliasIndex kv s).2.machine.kii := by
  unfold ThingIfSdk.runAlias
  split
  · exact h.refl _
  · have hloop := h.actionLoop handlers stack aliasIndex kv.key kv.value kv.valueLen fuel 0
      { s with buffer := poke s.buffer (kv.key + kv.keyLen) 0 }
    split
    · rename_i hrun
      rw [hrun] at hloop
      exact hloop
    · exact hloop

theorem RespectsActions.aliasLoop (h : RespectsActions sdk allowed R) (handlers : Handlers σ δ)
    (stack : Stack) (aliasActionsStr aliasActionsLen : Int) (innerFuel fuel index : Nat)
    (s : CommandState σ δ) :
    R s.machine.kii (aliasLoop sdk handlers stack aliasActionsStr aliasActionsLen innerFuel fuel
      index s).2.machine.kii := by
  induction fuel generalizing index s with
  | zero => exact h.refl _
  | succ fuel ih =>
      unfold ThingIfSdk.aliasLoop
      split
      · exact h.refl _
      · exact h.refl _
      · exact h.refl _
      · rename_i kv _
        have halias := h.runAlias handlers stack innerFuel index kv s
        split
        · rename_i s' hrun
          rw [hrun] at halias
          exact h.trans halias (ih _ s')
        · exact halias

theorem Respects.finishCommand (h : Respects sdk allowed R)
    (hkinds : Allows allowed [.thingState]) (handlers : Handlers σ δ) (m : Machine σ δ) :
    R m.kii (finishCommand sdk handlers m).kii := by
  have hclosing := h.append resultsClosing m.kii
  have hrun := h.trans hclosing (h.run _)
  unfold ThingIfSdk.finishCommand
  simp only
  split
  · exact hclosing
  · split
    · exact hrun
    · exact h.trans hrun (h.sendState hkinds _ _)

theorem RespectsActions.dispatchCommand (h : RespectsActions sdk allowed R)
    (hkinds : Allows allowed [.thingState]) (handlers : Handlers σ δ) (stack : Stack)
    (fuel : Nat) (aliasActionsStr aliasActionsLen : Int) (s : CommandState σ δ) :
    R s.machine.kii (dispatchCommand sdk handlers stack fuel aliasActionsStr aliasActionsLen
      s).2.machine.kii := by
  have hopening := h.append resultsOpening s.machine.kii
  have hloops := h.aliasLoop handlers stack aliasActionsStr aliasActionsLen fuel fuel 0
    { s with machine :=
      { s.machine with kii := (kiiApiCallAppendBody sdk resultsOpening s.machine.kii).2 } }
  unfold ThingIfSdk.dispatchCommand
  simp only
  split
  · exact hopening
  · split
    · rename_i s'' hloop
      rw [hloop] at hloops
      exact h.trans hopening (h.trans hloops (h.finishCommand hkinds handlers s''.machine))
    · exact h.trans hopening hloops

/-- `handle_command`, however it ends. -/
theorem RespectsActions.handleCommand (h : RespectsActions sdk allowed R)
    (hkinds : ∀ commandId, Allows allowed [.thingState, .commandResults commandId])
    (handlers : Handlers σ δ) (stack : Stack) (fuel : Nat) (s : CommandState σ δ) :
    R s.machine.kii (handleCommand sdk handlers stack fuel s).2.machine.kii := by
  have hstate : Allows allowed [.thingState] := by
    intro kind hmem
    exact hkinds [] kind (List.mem_cons.mpr (.inl (List.mem_singleton.mp hmem)))
  unfold ThingIfSdk.handleCommand
  simp only
  split
  · exact h.refl _
  · split
    · exact h.refl _
    · split
      · exact h.refl _
      · rename_i commandIdText _
        have hstart : R s.machine.kii (resultsStart sdk s.machine.kii commandIdText).2 := by
          unfold resultsStart
          rw [resultsPath_eq]
          exact h.startKind (hkinds (cstr commandIdText)) (List.mem_cons_of_mem _
            List.mem_cons_self) s.machine.kii
        split
        · exact hstart
        · exact h.trans hstart (h.dispatchCommand hstate handlers stack fuel _ _ { s with
            machine := { s.machine with kii := (resultsStart sdk s.machine.kii
              commandIdText).2 } })

/-! ## The status task -/

/-- The request of a round; its path is the one that the task was started with. -/
def stateOpening (resourcePath : Bytes) : Opening where
  httpMethod := ascii "PUT"
  resourcePath := resourcePath
  contentType := some contentUpdateState
  setAuthenticationHeader := true

theorem Respects.updateStatusRound (h : Respects sdk allowed R) {resourcePath : Bytes}
    (hpath : ∀ kii, allowed kii (stateOpening resourcePath)) (stateUpdatePeriod : Int)
    (stateHandler : WriterProgram) (kii : Kii σ) :
    R kii (updateStatusRound sdk stateUpdatePeriod resourcePath stateHandler kii) := by
  have hwaited := h.emit kii (.delayMs (delayArgument sdk.platform stateUpdatePeriod)) rfl
  have hstart := h.trans hwaited (h.start (stateOpening resourcePath) _ (hpath _))
  unfold ThingIfSdk.updateStatusRound
  simp only
  split
  · exact hstart
  · have hwritten := h.trans hstart (h.writer stateHandler _)
    split
    · exact hwritten
    · exact h.trans hwritten (h.run _)

/-! ## Calls of the application -/

/-- Whatever the stage does to the `kii_t` is respected. -/
def StageRespects (R : Kii σ → Kii σ → Prop) (f : Stage (Call σ)) : Prop :=
  ∀ c, R c.kii (f c).2.kii

theorem Respects.andThen (h : Respects sdk allowed R) {f g : Stage (Call σ)}
    (hf : StageRespects R f) (hg : StageRespects R g) : StageRespects R (f.andThen g) := by
  intro c
  cases hend : (f c).1 with
  | false =>
      rw [Stage.andThen_of_false hend]
      exact hf c
  | true =>
      rw [Stage.andThen_of_true hend]
      exact h.trans (hf c) (hg _)

theorem Respects.openStage (h : Respects sdk allowed R) {path : Kii σ → Option Bytes}
    {refused : Call σ → Call σ} (hrefused : ∀ c, R c.kii (refused c).kii)
    {failed : Stage (Call σ)} (hfailed : ∀ c, (failed c).2.kii = c.kii) {kind : RequestKind}
    (hpath : ∀ kii resourcePath, path kii = some resourcePath →
      resourcePath = kind.resourcePath kii.appId kii.author.authorId)
    (hkind : ∀ kii, allowed kii (kind.opening kii)) :
    StageRespects R (openStage sdk path refused kind.httpMethod kind.contentType
      kind.authenticated failed) := by
  intro c
  unfold ThingIfSdk.openStage
  cases hsome : path c.kii with
  | none => exact hrefused c
  | some resourcePath =>
      have hstart := h.start (kind.opening c.kii) c.kii (hkind c.kii)
      rw [hpath c.kii resourcePath hsome]
      simp only
      split
      · rw [hfailed]
        exact hstart
      · exact hstart

theorem Respects.bodyStage (h : Respects sdk allowed R)
    {body : Kii σ → List (Kii σ → Int × Kii σ)} {pieces : Kii σ → List (List Bytes)}
    (hbody : ∀ kii, List.Forall₂ (Appends sdk) (body kii) (pieces kii))
    {failed : Call σ → Call σ} (hfailed : ∀ c, (failed c).kii = c.kii) :
    StageRespects R (bodyStage body failed) := by
  intro c
  have hchain := h.chain (hbody c.kii) c.kii
  unfold ThingIfSdk.bodyStage
  simp only
  split
  · rw [hfailed]
    exact hchain
  · exact hchain

theorem Respects.session (h : Respects sdk allowed R) :
    StageRespects R (prvExecuteHttpSession sdk) := by
  intro c
  have hrun := h.run c.kii
  unfold prvExecuteHttpSession
  simp only
  split
  · refine h.trans hrun ?_
    unfold sessionNotRun
    split
    · exact h.refl _
    · split
      · exact h.refl _
      · exact h.refl _
      · exact h.refl _
      · exact h.emit _ .assertion rfl
  · split
    · exact hrun
    · rw [sessionRejected_kii]
      exact hrun

/-- The builder makes the paths of the kind. -/
def BuildsPath (setPath : PathBuilder) (kind : RequestKind) : Prop :=
  ∀ appId authorId size path, setPath appId authorId size = some path →
    path = kind.resourcePath appId authorId

theorem Respects.requestProperty (h : Respects sdk allowed R) {setPath : PathBuilder}
    {kind : RequestKind} (hbuilds : BuildsPath setPath kind)
    (hkind : ∀ kii, allowed kii (kind.opening kii)) (hget : kind.httpMethod = ascii "GET")
    (hcontent : kind.contentType = none) (hauth : kind.authenticated = true) (path : Bytes)
    (size : Nat) : StageRespects R (outStage (requestProperty sdk setPath path size)) := by
  have hopen := @Respects.openStage _ _ _ _ h (fun kii => setPath kii.appId kii.author.authorId 128)
    refusedPath (fun c => h.refusePath c.kii) giveUpInsufficient (fun _ => rfl) kind
    (fun kii _ => hbuilds kii.appId kii.author.authorId 128 _) hkind
  rw [hget, hcontent, hauth] at hopen
  rw [outStage_requestProperty]
  refine h.andThen hopen (h.andThen h.session fun c => ?_)
  unfold outStage readProperty
  simp only
  split
  · split <;> exact h.emit c.kii _ rfl
  · exact h.emit c.kii _ rfl

theorem Respects.updateProperty (h : Respects sdk allowed R) {setPath : PathBuilder}
    {kind : RequestKind} (hbuilds : BuildsPath setPath kind)
    (hkind : ∀ kii, allowed kii (kind.opening kii)) (hput : kind.httpMethod = ascii "PUT")
    {contentType : Bytes} (hcontent : kind.contentType = some contentType)
    (hauth : kind.authenticated = true) (key value : Bytes) :
    StageRespects R (updateProperty sdk setPath contentType key value) := by
  have hopen := @Respects.openStage _ _ _ _ h (fun kii => setPath kii.appId kii.author.authorId 128)
    refusedPath (fun c => h.refusePath c.kii) giveUpInsufficient (fun _ => rfl) kind
    (fun kii _ => hbuilds kii.appId kii.author.authorId 128 _) hkind
  rw [hput, hcontent, hauth] at hopen
  rw [updateProperty_eq]
  exact h.andThen hopen (h.andThen
    (h.bodyStage (fun _ => updateBody_appends sdk key value) fun _ => rfl) h.session)

/-! ## Onboarding -/

theorem RespectsAuthors.token (h : RespectsAuthors sdk allowed R)
    (hkind : ∀ kii, allowed kii (RequestKind.anonymousToken.opening kii)) :
    StageRespects R (tokenStages sdk) := by
  have hopen := @Respects.openStage _ _ _ _ h.toRespects (tokenPath sdk)
    (fun c => (c.emit .tokenPathTooLong).setCode .insufficientBuffer)
    (fun c => h.emit c.kii .tokenPathTooLong rfl) giveUpInsufficient (fun _ => rfl)
    .anonymousToken (fun _ _ hpath => tokenPath_eq hpath) hkind
  have hread : StageRespects R (intStage (readToken sdk)) := by
    intro c
    unfold intStage readToken
    simp only
    split <;> exact h.trans (h.author c.kii _) (h.emit _ _ rfl)
  unfold tokenStages
  exact h.andThen hopen (h.andThen (h.bodyStage (tokenBody_appends sdk) fun _ => rfl)
    (h.andThen h.session hread))

theorem RespectsAuthors.onboard (h : RespectsAuthors sdk allowed R) {kind : RequestKind}
    (hkinds : ∀ kii, allowed kii (RequestKind.anonymousToken.opening kii) ∧
      allowed kii (kind.opening kii))
    (hpath : ∀ kii : Kii σ, kind.resourcePath kii.appId kii.author.authorId =
      [thingIfAppPath, kii.appId, onboardingPath].flatten)
    (hpost : kind.httpMethod = ascii "POST") {contentType : Bytes}
    (hcontent : kind.contentType = some contentType) (hauth : kind.authenticated = true)
    (args : OnboardArgs) (idKey : Bytes) {startFailed : Stage (Call σ)}
    (hstart : ∀ c, (startFailed c).2.kii = c.kii) {bodyFailed : Call σ → Call σ}
    (hbody : ∀ c, (bodyFailed c).kii = c.kii) :
    StageRespects R (onboardStages sdk args idKey contentType startFailed bodyFailed) := by
  have hopen := @Respects.openStage _ _ _ _ h.toRespects
    (fun kii => prvSetOnboardResourcePath sdk.platform kii.appId 64) refusedPath
    (fun c => h.refusePath c.kii) startFailed hstart kind
    (fun kii _ hset => (resourcePath_of_set hset).trans (hpath kii).symm) fun kii => (hkinds kii).2
  have hread : StageRespects R (intStage (prvThingIfParseOnboardingResponse sdk)) := by
    intro c
    unfold intStage prvThingIfParseOnboardingResponse
    simp only
    split <;> exact h.trans (h.author c.kii _) (h.emit _ _ rfl)
  rw [hpost, hcontent, hauth] at hopen
  unfold onboardStages
  exact h.andThen (h.token fun kii => (hkinds kii).1) (h.andThen hopen (h.andThen
    (h.bodyStage (fun _ => onboardBody_appends sdk idKey args) hbody) (h.andThen h.session hread)))

/-! ## Whole calls and messages -/

/-- The requests that a call of a public function makes. -/
def Operation.kinds : Operation → List RequestKind
  | .onboardWithVendorThingId _ => [.anonymousToken, .onboardWithVendorThingId]
  | .onboardWithThingId _ => [.anonymousToken, .onboardWithThingId]
  | .getFirmwareVersion _ => [.getFirmwareVersion]
  | .updateFirmwareVersion _ => [.updateFirmwareVersion]
  | .getThingType _ => [.getThingType]
  | .updateThingType _ => [.updateThingType]
  | _ => []

theorem Respects.whenOnboarded (h : Respects sdk allowed R)
    {request : Call σ → Bool × Call σ × Option Bytes} (hrequest : StageRespects R (outStage request))
    (thing : KiiThingIf σ) (error : ErrorSlot) :
    R thing.commandHandler (whenOnboarded thing error request).thing.commandHandler ∧
      R thing.stateUpdater (whenOnboarded thing error request).thing.stateUpdater := by
  unfold ThingIfSdk.whenOnboarded
  cases thing.state with
  | initialized => exact ⟨h.refl _, h.refl _⟩
  | started => exact ⟨h.refl _, h.refl _⟩
  | onboarded => exact ⟨hrequest ⟨thing.commandHandler, error⟩, h.refl _⟩

theorem Respects.startTasks (h : Respects sdk allowed R) (thing : KiiThingIf σ) :
    R thing.commandHandler (ThingIfSdk.start sdk thing).2.commandHandler ∧
      R thing.stateUpdater (ThingIfSdk.start sdk thing).2.stateUpdater := by
  have hpush := h.push thing.commandHandler
  unfold ThingIfSdk.start
  simp only
  split
  · exact ⟨h.refl _, h.refl _⟩
  · split
    · exact ⟨hpush, h.refl _⟩
    · exact ⟨hpush, h.task thing.stateUpdater⟩

/-- The builders of the property paths, by the parts of the path. -/
theorem buildsPath_of_parts {setPath : PathBuilder} {kind : RequestKind} {p : Platform}
    {parts : Bytes → Bytes → List Bytes}
    (hset : ∀ appId authorId size,
      setPath appId authorId size = prvSetResourcePath p (parts appId authorId) size)
    (hparts : ∀ appId authorId, kind.pathParts appId authorId = parts appId authorId) :
    BuildsPath setPath kind := by
  intro appId authorId size path h
  rw [hset] at h
  rw [RequestKind.resourcePath, hparts]
  exact resourcePath_of_set h

/-- A call that is no initialisation and no onboarding. -/
theorem Respects.operation (h : Respects sdk allowed R) {op : Operation}
    (hkinds : Allows allowed op.kinds) (hinit : op.isInit = false) (hop : op.isOnboarding = false)
    (thing : KiiThingIf σ) (error : ErrorSlot) :
    R thing.commandHandler (op.run sdk thing error).thing.commandHandler ∧
      R thing.stateUpdater (op.run sdk thing error).thing.stateUpdater := by
  have hfirmware : ∀ kind : RequestKind,
      (∀ appId authorId, kind.pathParts appId authorId =
        [thingIfAppPath, appId, thingsPart, authorId, firmwareVersionPart]) →
      BuildsPath (prvSetFirmwareVersionResourcePath sdk.platform) kind :=
    fun _ => buildsPath_of_parts fun _ _ _ => rfl
  have htype : ∀ kind : RequestKind,
      (∀ appId authorId, kind.pathParts appId authorId =
        [thingIfAppPath, appId, thingsPart, authorId, thingTypePart]) →
      BuildsPath (prvSetThingTypeResourcePath sdk.platform) kind :=
    fun _ => buildsPath_of_parts fun _ _ _ => rfl
  cases op with
  | init args => cases hinit
  | initWithOnboardedThing args thingId accessToken => cases hinit
  | onboardWithVendorThingId args => cases hop
  | onboardWithThingId args => cases hop
  | start => exact h.startTasks thing
  | getFirmwareVersion len =>
      refine h.whenOnboarded ?_ thing error
      exact h.requestProperty (hfirmware .getFirmwareVersion fun _ _ => rfl)
        (hkinds _ List.mem_cons_self) rfl rfl rfl _ len
  | updateFirmwareVersion v =>
      refine h.whenOnboarded ?_ thing error
      exact h.updateProperty (hfirmware .updateFirmwareVersion fun _ _ => rfl)
        (hkinds _ List.mem_cons_self) rfl rfl rfl _ v
  | getThingType len =>
      refine h.whenOnboarded ?_ thing error
      exact h.requestProperty (htype .getThingType fun _ _ => rfl)
        (hkinds _ List.mem_cons_self) rfl rfl rfl _ len
  | updateThingType v =>
      refine h.whenOnboarded ?_ thing error
      exact h.updateProperty (htype .updateThingType fun _ _ => rfl)
        (hkinds _ List.mem_cons_self) rfl rfl rfl _ v

theorem RespectsAuthors.onboardWith (h : RespectsAuthors sdk allowed R) {f : Stage (Call σ)}
    (hf : StageRespects R f) (thing : KiiThingIf σ) (error : ErrorSlot) :
    R thing.commandHandler (onboardWith sdk f thing error).thing.commandHandler ∧
      R thing.stateUpdater (onboardWith sdk f thing error).thing.stateUpdater := by
  have hcommand := hf ⟨thing.commandHandler, error⟩
  unfold ThingIfSdk.onboardWith
  simp only
  split
  · exact ⟨h.refl _, h.refl _⟩
  · split
    · exact ⟨hcommand, h.refl _⟩
    · split
      · exact ⟨hcommand, h.refl _⟩
      · exact ⟨hcommand, h.author _ _⟩

/-- A call that is an onboarding. -/
theorem RespectsAuthors.onboarding (h : RespectsAuthors sdk allowed R) {op : Operation}
    (hkinds : Allows allowed op.kinds) (hop : op.isOnboarding = true) (thing : KiiThingIf σ)
    (error : ErrorSlot) :
    R thing.commandHandler (op.run sdk thing error).thing.commandHandler ∧
      R thing.stateUpdater (op.run sdk thing error).thing.stateUpdater := by
  have hboth : ∀ kind, op.kinds = [.anonymousToken, kind] → ∀ kii,
      allowed kii (RequestKind.anonymousToken.opening kii) ∧ allowed kii (kind.opening kii) := by
    intro kind hlist kii
    rw [hlist] at hkinds
    exact ⟨hkinds _ List.mem_cons_self kii,
      hkinds _ (List.mem_cons_of_mem _ List.mem_cons_self) kii⟩
  cases op with
  | onboardWithVendorThingId args =>
      refine h.onboardWith ?_ thing error
      rw [prvOnboardWithVendorThingId_eq]
      exact h.onboard (hboth .onboardWithVendorThingId rfl) (fun _ => rfl) rfl rfl rfl args _
        (fun _ => rfl) fun _ => rfl
  | onboardWithThingId args =>
      refine h.onboardWith ?_ thing error
      rw [prvOnboardWithThingId_eq]
      exact h.onboard (hboth .onboardWithThingId rfl) (fun _ => rfl) rfl rfl rfl args _
        (fun _ => rfl) fun _ => rfl
  | _ => cases hop

/-- A message, when the custom handler respects the relation too. -/
theorem RespectsActions.receivedCallback (h : RespectsActions sdk allowed R)
    (hkinds : ∀ commandId, Allows allowed [.thingState, .commandResults commandId])
    {handlers : Handlers σ δ}
    (hcustom : ∀ handler, handlers.customPushHandler = some handler →
      ∀ kii device message, R kii (handler kii device message).2.1)
    (stack : Stack) (fuel : Nat) (s : CommandState σ δ) :
    R s.machine.kii (receivedCallback sdk handlers stack fuel s).2.machine.kii := by
  unfold ThingIfSdk.receivedCallback
  cases hsome : handlers.customPushHandler with
  | none => exact h.handleCommand hkinds handlers stack fuel s
  | some handler =>
      have hscreen := hcustom handler hsome s.machine.kii s.machine.device s.buffer
      simp only
      split
      · exact hscreen
      · have hcommand := h.handleCommand hkinds handlers stack fuel { s with machine :=
          { kii := (handler s.machine.kii s.machine.device s.buffer).2.1
            device := (handler s.machine.kii s.machine.device s.buffer).2.2 } }
        exact h.trans hscreen hcommand

end

end ThingIfSdk
