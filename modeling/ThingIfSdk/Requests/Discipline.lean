import ThingIfSdk.Command.Run
import ThingIfSdk.Model.Log
import ThingIfSdk.Model.Updater
import ThingIfSdk.Requests.Scripted

/-!
# Which runs are of complete requests

A request may be run when its start call succeeded and nothing that the SDK
appended since was refused.  `RequestFunction` collects the functions that make
requests, and `disciplined_iff` says that all of them keep to this, but for
`prv_onboard_with_thing_id`, which goes on when its request was not started.
-/

namespace ThingIfSdk

open ByteText JsonText Monitoring Staging

variable {σ δ : Type}

/-- Whether the request under construction was started and built without failure. -/
def requestMonitor : Monitor Event Bool where
  start := false
  step ready e :=
    match e with
    | .callStart _ ret => ret = 0
    | .appendBody _ ret => ready && ret = 0
    | .stateHandler ret => ready && ret
    | .callRun .. => false
    | _ => ready

/-- Only a complete request is run. -/
def mayHappen (ready : Bool) (e : Event) : Prop :=
  e.isRun = true → ready = true

/-- Every run in the log is of a complete request. -/
def Disciplined (log : List Event) : Prop :=
  requestMonitor.Safe mayHappen log

/-! ## Blocks of a log -/

theorem mayHappen_of_not_run {ready : Bool} {e : Event} (h : e.isRun = false) :
    mayHappen ready e := by
  intro hrun
  rw [h] at hrun
  cases hrun

theorem safeFrom_of_no_run {es : List Event} (h : ∀ e ∈ es, e.isRun = false) (ready : Bool) :
    requestMonitor.SafeFrom mayHappen ready es := by
  induction es generalizing ready with
  | nil => trivial
  | cons e es ih =>
      rw [Monitor.safeFrom_cons]
      exact ⟨mayHappen_of_not_run (h e List.mem_cons_self),
        ih (fun e' he' => h e' (List.mem_cons_of_mem _ he')) _⟩

theorem isRun_of_mem_accepted {pieces : List Bytes} {e : Event} (h : e ∈ accepted pieces) :
    e.isRun = false :=
  isRun_of_silent (isSilent_of_mem_accepted h)

/-- Accepted pieces leave a request complete. -/
theorem requestMonitor_accepted (ready : Bool) (pieces : List Bytes) :
    requestMonitor.runFrom ready (accepted pieces) = ready := by
  induction pieces generalizing ready with
  | nil => rfl
  | cons p ps ih =>
      rw [accepted_cons, Monitor.runFrom_cons, ih]
      simp [requestMonitor]

/-! ## Stages -/

section

variable (base : List Event)

/-- The log is disciplined, and the request under construction is complete if `ready`. -/
def Ready (ready : Bool) (c : Call σ) : Prop :=
  requestMonitor.Grown mayHappen base ready c.kii.log

/-- The log is disciplined. -/
def Kept (c : Call σ) : Prop :=
  ∃ ready, Ready base ready c

variable {base} {sdk : Sdk σ}

/-- Entries that are no runs keep to the discipline. -/
theorem Kept.append {c c' : Call σ} {es : List Event} (h : Kept base c)
    (hlog : c'.kii.log = c.kii.log ++ es) (hes : ∀ e ∈ es, e.isRun = false) : Kept base c' := by
  obtain ⟨ready, hready⟩ := h
  exact ⟨_, Monitor.Grown.append hready hlog (safeFrom_of_no_run hes ready)⟩

theorem kept_openStage {path : Kii σ → Option Bytes} {refused : Call σ → Call σ}
    (hrefused : ∀ c, ∃ es, (refused c).kii.log = c.kii.log ++ es ∧ ∀ e ∈ es, e.isRun = false)
    (httpMethod : Bytes) (contentType : Option Bytes) (setAuthenticationHeader : Bool) :
    Stage.Triple (Kept base)
      (openStage sdk path refused httpMethod contentType setAuthenticationHeader
        giveUpInsufficient) (Ready base true) (Kept base) := by
  constructor
  · rintro c ⟨ready, hready⟩ hend
    rcases openStage_cases sdk path refused httpMethod contentType setAuthenticationHeader
      giveUpInsufficient c with ⟨-, h⟩ | ⟨call, ret, kii, -, hlogs, ⟨-, h⟩ | ⟨rfl, h⟩⟩
    · rw [h] at hend
      cases hend
    · rw [h] at hend
      cases hend
    · rw [h]
      exact Monitor.Grown.append hready hlogs.log_eq
        (safeFrom_of_no_run (by simp [Event.isRun]) ready)
  · intro c hkept hend
    rcases openStage_cases sdk path refused httpMethod contentType setAuthenticationHeader
      giveUpInsufficient c with ⟨-, h⟩ | ⟨call, ret, kii, -, hlogs, ⟨-, h⟩ | ⟨-, h⟩⟩
    · rw [h]
      obtain ⟨es, hlog, hes⟩ := hrefused c
      exact hkept.append hlog hes
    · rw [h]
      exact hkept.append hlogs.log_eq (by simp [Event.isRun])
    · rw [h] at hend
      cases hend

theorem kept_bodyStage {body : Kii σ → List (Kii σ → Int × Kii σ)}
    {pieces : Kii σ → List (List Bytes)}
    (hbody : ∀ kii, List.Forall₂ (Appends sdk) (body kii) (pieces kii))
    {failed : Call σ → Call σ} (hfailed : ∀ c, (failed c).kii = c.kii) :
    Stage.Triple (Ready base true) (bodyStage body failed) (Ready base true) (Kept base) := by
  constructor
  · intro c hready hend
    rcases bodyStage_cases hbody failed c with ⟨kii, hlogs, h⟩ | ⟨front, p, ret, kii, -, -, h⟩
    · rw [h]
      have hgrown := Monitor.Grown.append hready hlogs.log_eq
        (safeFrom_of_no_run (fun _ => isRun_of_mem_accepted) true)
      rw [requestMonitor_accepted] at hgrown
      exact hgrown
    · rw [h] at hend
      cases hend
  · intro c hready hend
    rcases bodyStage_cases hbody failed c with ⟨kii, -, h⟩ | ⟨front, p, ret, kii, -, hlogs, h⟩
    · rw [h] at hend
      cases hend
    · rw [h]
      have hkept : Kept base c := ⟨true, hready⟩
      refine hkept.append (by rw [hfailed]; exact hlogs.log_eq) ?_
      intro e he
      rcases List.mem_append.mp he with he | he
      · exact isRun_of_mem_accepted he
      · rw [List.mem_singleton.mp he]
        rfl

/-- What a session adds behind its run is no run. -/
theorem sessionNotRun_log (c : Call σ) :
    ∃ es, (sessionNotRun c).kii.log = c.kii.log ++ es ∧ ∀ e ∈ es, e.isRun = false := by
  unfold sessionNotRun
  split
  · exact ⟨[], (List.append_nil _).symm, nofun⟩
  · split
    · exact ⟨[], (List.append_nil _).symm, nofun⟩
    · exact ⟨[], (List.append_nil _).symm, nofun⟩
    · exact ⟨[], (List.append_nil _).symm, nofun⟩
    · exact ⟨[.assertion], rfl, by simp [Event.isRun]⟩

theorem kept_session :
    Stage.Triple (Ready base true) (prvExecuteHttpSession sdk) (Kept base) (Kept base) := by
  apply Stage.Triple.of_forall
  intro c hready
  obtain ⟨ret, httpError, code, kii, hlogs, -, hcases⟩ := session_cases sdk c
  have hrun : Kept base { c with kii := kii } :=
    ⟨_, Monitor.Grown.append hready hlogs.log_eq ⟨fun _ => rfl, trivial⟩⟩
  rcases hcases with ⟨-, h⟩ | ⟨-, -, h⟩ | ⟨-, -, h⟩
  · rw [h]
    obtain ⟨es, hlog, hes⟩ := sessionNotRun_log { c with kii := kii }
    exact hrun.append hlog hes
  · rw [h]
    unfold Kept Ready
    rw [sessionRejected_kii]
    exact hrun
  · rw [h]
    exact hrun

/-- A step that adds entries which are no runs. -/
theorem kept_of_log {f : Stage (Call σ)}
    (h : ∀ c, ∃ es, (f c).2.kii.log = c.kii.log ++ es ∧ ∀ e ∈ es, e.isRun = false) :
    Stage.Triple (Kept base) f (Kept base) (Kept base) := by
  apply Stage.Triple.of_forall
  intro c hkept
  obtain ⟨es, hlog, hes⟩ := h c
  exact hkept.append hlog hes

theorem readResponse_log (sdk : Sdk σ) (c : Call σ) :
    ∃ result written, (intStage (prvThingIfParseOnboardingResponse sdk) c).2.kii.log =
      c.kii.log ++ [.readAuthor result written] := by
  unfold intStage prvThingIfParseOnboardingResponse
  simp only
  split <;> exact ⟨_, _, rfl⟩

theorem kept_readToken :
    Stage.Triple (Kept base) (intStage (readToken sdk)) (Kept base) (Kept base) := by
  apply kept_of_log
  intro c
  unfold intStage readToken
  simp only
  split <;> exact ⟨[_], rfl, by simp [Event.isRun]⟩

theorem kept_readResponse :
    Stage.Triple (Kept base) (intStage (prvThingIfParseOnboardingResponse sdk)) (Kept base)
      (Kept base) := by
  apply kept_of_log
  intro c
  obtain ⟨result, written, hlog⟩ := readResponse_log sdk c
  exact ⟨_, hlog, by simp [Event.isRun]⟩

theorem kept_readProperty (path : Bytes) (size : Nat) :
    Stage.Triple (Kept base) (outStage (readProperty sdk path size)) (Kept base) (Kept base) := by
  apply kept_of_log
  intro c
  unfold outStage readProperty
  simp only
  split
  · split <;> exact ⟨[_], rfl, by simp [Event.isRun]⟩
  · exact ⟨[_], rfl, by simp [Event.isRun]⟩

theorem refusedPath_log (c : Call σ) :
    ∃ es, (refusedPath c).kii.log = c.kii.log ++ es ∧ ∀ e ∈ es, e.isRun = false :=
  ⟨[.assertion, .pathTooLong], List.append_assoc _ _ _, by simp [Event.isRun]⟩

/-! ## Request functions in stages -/

theorem kept_token : Stage.Triple (Kept base) (tokenStages sdk) (Kept base) (Kept base) := by
  refine Stage.Triple.andThen (kept_openStage ?_ _ _ _) (Stage.Triple.andThen
    (kept_bodyStage (tokenBody_appends sdk) fun _ => rfl)
    (Stage.Triple.andThen kept_session kept_readToken))
  exact fun c => ⟨[.tokenPathTooLong], rfl, by simp [Event.isRun]⟩

theorem kept_onboardWithVendorThingId (args : OnboardArgs) :
    Stage.Triple (Kept base) (prvOnboardWithVendorThingId sdk args) (Kept base) (Kept base) := by
  rw [prvOnboardWithVendorThingId_eq]
  exact Stage.Triple.andThen kept_token (Stage.Triple.andThen
    (kept_openStage refusedPath_log _ _ _) (Stage.Triple.andThen
      (kept_bodyStage (fun _ => onboardBody_appends sdk _ args) fun _ => rfl)
      (Stage.Triple.andThen kept_session kept_readResponse)))

theorem kept_requestProperty (setPath : PathBuilder) (path : Bytes) (size : Nat) :
    Stage.Triple (Kept base) (outStage (requestProperty sdk setPath path size)) (Kept base)
      (Kept base) := by
  rw [outStage_requestProperty]
  exact Stage.Triple.andThen (kept_openStage refusedPath_log _ _ _)
    (Stage.Triple.andThen kept_session (kept_readProperty path size))

theorem kept_updateProperty (setPath : PathBuilder) (contentType key value : Bytes) :
    Stage.Triple (Kept base) (updateProperty sdk setPath contentType key value) (Kept base)
      (Kept base) := by
  rw [updateProperty_eq]
  exact Stage.Triple.andThen (kept_openStage refusedPath_log _ _ _) (Stage.Triple.andThen
    (kept_bodyStage (fun _ => updateBody_appends sdk key value) fun _ => rfl) kept_session)

/-! ## Onboarding with a thing id -/

/-- The onboarding request is not started, and all of its body is accepted. -/
def IgnoresStart (sdk : Sdk σ) (args : OnboardArgs) (c : Call σ) : Prop :=
  ∃ resourcePath, prvSetOnboardResourcePath sdk.platform c.kii.appId 64 = some resourcePath ∧
    let start := kiiApiCallStart sdk c.kii (ascii "POST") resourcePath (some contentTypeThingId)
      true
    start.1 ≠ 0 ∧ (anyFails (onboardBody sdk (ascii "thingID") args) start.2).1 = false

/-- The stage that opens the request with a thing id. -/
def thingIdOpen (sdk : Sdk σ) : Stage (Call σ) :=
  openStage sdk (fun kii => prvSetOnboardResourcePath sdk.platform kii.appId 64) refusedPath
    (ascii "POST") (some contentTypeThingId) true fun c => (true, c)

/-- It goes on with whatever the start call returned. -/
theorem thingIdOpen_cases (sdk : Sdk σ) (c : Call σ) :
    thingIdOpen sdk c = (false, refusedPath c) ∨
    ∃ resourcePath, prvSetOnboardResourcePath sdk.platform c.kii.appId 64 = some resourcePath ∧
      thingIdOpen sdk c = (true, { c with kii := (kiiApiCallStart sdk c.kii (ascii "POST")
        resourcePath (some contentTypeThingId) true).2 }) := by
  unfold thingIdOpen openStage
  simp only
  cases prvSetOnboardResourcePath sdk.platform c.kii.appId 64 with
  | none => exact .inl rfl
  | some resourcePath => exact .inr ⟨resourcePath, rfl, ite_self _⟩

theorem thingIdOpen_of_path (sdk : Sdk σ) {c : Call σ} {resourcePath : Bytes}
    (h : prvSetOnboardResourcePath sdk.platform c.kii.appId 64 = some resourcePath) :
    thingIdOpen sdk c = (true, { c with kii := (kiiApiCallStart sdk c.kii (ascii "POST")
      resourcePath (some contentTypeThingId) true).2 }) :=
  (openStage_of_path sdk refusedPath (ascii "POST") (some contentTypeThingId) true
    (fun c => (true, c)) h).trans (ite_self _)

/-- Unless a failed start is ignored, the request is complete once its body is. -/
theorem kept_thingIdBody (args : OnboardArgs) :
    Stage.Triple (fun c => Kept base c ∧ ¬ IgnoresStart sdk args c)
      ((thingIdOpen sdk).andThen (bodyStage (fun _ => onboardBody sdk (ascii "thingID") args) id))
      (Ready base true) (Kept base) := by
  have hbody : Stage.Triple (Ready base true)
      (bodyStage (fun _ => onboardBody sdk (ascii "thingID") args) id) (Ready base true)
      (Kept base) :=
    kept_bodyStage (fun _ => onboardBody_appends sdk _ args) fun _ => rfl
  -- A start that fails unnoticed is followed by a body that is refused.
  have hopened : ∀ c : Call σ, Kept base c → ¬ IgnoresStart sdk args c →
      (thingIdOpen sdk c = (false, refusedPath c)) ∨
      ∃ c', thingIdOpen sdk c = (true, c') ∧ (Ready base true c' ∨ Kept base c' ∧
        (anyFails (onboardBody sdk (ascii "thingID") args) c'.kii).1 = true) := by
    intro c hkept hnot
    rcases thingIdOpen_cases sdk c with h | ⟨resourcePath, hpath, h⟩
    · exact .inl h
    · refine .inr ⟨_, h, ?_⟩
      have hlogs := (adds_start sdk c.kii (ascii "POST") resourcePath (some contentTypeThingId)
        true).logs
      by_cases hret : (kiiApiCallStart sdk c.kii (ascii "POST") resourcePath
          (some contentTypeThingId) true).1 = 0
      · rw [hret] at hlogs
        obtain ⟨ready, hready⟩ := hkept
        exact .inl (Monitor.Grown.append hready hlogs.log_eq
          (safeFrom_of_no_run (by simp [Event.isRun]) ready))
      · refine .inr ⟨hkept.append hlogs.log_eq (by simp [Event.isRun]), ?_⟩
        by_contra haccepted
        exact hnot ⟨resourcePath, hpath, hret, eq_false_of_ne_true haccepted⟩
  -- A refused body ends the function before it runs anything.
  have hrefused : ∀ c' : Call σ,
      (anyFails (onboardBody sdk (ascii "thingID") args) c'.kii).1 = true →
      ∃ c'' es, bodyStage (fun _ => onboardBody sdk (ascii "thingID") args) id c' = (false, c'') ∧
        c''.kii.log = c'.kii.log ++ es ∧ ∀ e ∈ es, e.isRun = false := by
    intro c' hfails
    have hcases := bodyStage_cases (fun _ => onboardBody_appends sdk (ascii "thingID") args) id c'
    rcases hcases with ⟨kii, -, h⟩ | ⟨front, p, ret, kii, -, hlogs, h⟩
    · unfold bodyStage at h
      simp only [if_pos hfails] at h
      cases h
    · refine ⟨_, _, h, hlogs.log_eq, ?_⟩
      intro e he
      rcases List.mem_append.mp he with he | he
      · exact isRun_of_mem_accepted he
      · rw [List.mem_singleton.mp he]
        rfl
  constructor
  · rintro c ⟨hkept, hnot⟩ hend
    unfold Stage.andThen at hend ⊢
    rcases hopened c hkept hnot with h | ⟨c', h, hready | ⟨-, hfails⟩⟩
    · rw [h, if_pos rfl] at hend
      cases hend
    · rw [h, if_neg Bool.false_ne_true.symm] at hend ⊢
      exact hbody.goesOn c' hready hend
    · obtain ⟨c'', es, hfailed, -⟩ := hrefused c' hfails
      rw [h, if_neg Bool.false_ne_true.symm, hfailed] at hend
      cases hend
  · rintro c ⟨hkept, hnot⟩ hend
    unfold Stage.andThen at hend ⊢
    rcases hopened c hkept hnot with h | ⟨c', h, hready | ⟨hkept', hfails⟩⟩
    · rw [h, if_pos rfl]
      obtain ⟨es, hlog, hes⟩ := refusedPath_log c
      exact hkept.append hlog hes
    · rw [h, if_neg Bool.false_ne_true.symm] at hend ⊢
      exact hbody.givesUp c' hready hend
    · obtain ⟨c'', es, hfailed, hlog, hes⟩ := hrefused c' hfails
      rw [h, if_neg Bool.false_ne_true.symm, hfailed]
      exact hkept'.append hlog hes

theorem kept_onboardWithThingId (args : OnboardArgs) {c : Call σ} (hkept : Kept base c)
    (hnot : (prvKiiThingIfGetAnonymousToken sdk c).1 = 0 →
      ¬ IgnoresStart sdk args (prvKiiThingIfGetAnonymousToken sdk c).2) :
    Kept base (prvOnboardWithThingId sdk args c).2 := by
  have htoken : Stage.Triple (fun c' => c' = c) (tokenStages sdk)
      (fun c' => Kept base c' ∧ ¬ IgnoresStart sdk args c') (Kept base) := by
    constructor
    · rintro c' rfl hend
      refine ⟨kept_token.goesOn _ hkept hend, ?_⟩
      rw [← intStage_token] at hend ⊢
      exact hnot (of_decide_eq_true hend)
    · rintro c' rfl hend
      exact kept_token.givesUp _ hkept hend
  have htail : Stage.Triple (Ready base true) (Stage.andThen (prvExecuteHttpSession sdk)
      (intStage (prvThingIfParseOnboardingResponse sdk))) (Kept base) (Kept base) :=
    Stage.Triple.andThen kept_session kept_readResponse
  have htriple := Stage.Triple.andThen htoken
    (Stage.Triple.andThen (kept_thingIdBody args) htail)
  rw [Stage.andThen_assoc] at htriple
  rw [prvOnboardWithThingId_eq]
  exact htriple.final rfl

/-- Whatever surrounds it, a run behind a failed start is not allowed. -/
theorem not_disciplined_of_failed_start (front : List Event) (call : ApiCall) {ret : Int}
    (hret : ret ≠ 0) (pieces : List Bytes) {run : Event} (hrun : run.isRun = true)
    (rest : List Event) :
    ¬ Disciplined (front ++ (.callStart call ret :: (accepted pieces ++ run :: rest))) := by
  intro h
  rw [Disciplined, Monitor.safe_append, Monitor.safeFrom_cons, Monitor.safeFrom_append,
    Monitor.safeFrom_cons, requestMonitor_accepted] at h
  have hready : decide (ret = 0) = true := h.2.2.2.1 hrun
  exact hret (of_decide_eq_true hready)

/-- What follows a run in a session and in reading the response is no run. -/
theorem session_response_log (sdk : Sdk σ) (c : Call σ) :
    ∃ ret httpError code rest,
      (Stage.andThen (prvExecuteHttpSession sdk)
        (intStage (prvThingIfParseOnboardingResponse sdk)) c).2.kii.log =
          c.kii.log ++ .callRun ret httpError code :: rest ∧ ∀ e ∈ rest, e.isRun = false := by
  obtain ⟨ret, httpError, code, kii, hlogs, -, hcases⟩ := session_cases sdk c
  have hsession : ∃ rest, (prvExecuteHttpSession sdk c).2.kii.log =
      c.kii.log ++ .callRun ret httpError code :: rest ∧ ∀ e ∈ rest, e.isRun = false := by
    rcases hcases with ⟨-, h⟩ | ⟨-, -, h⟩ | ⟨-, -, h⟩
    · obtain ⟨es, hlog, hes⟩ := sessionNotRun_log { c with kii := kii }
      rw [hlogs.log_eq, List.append_assoc] at hlog
      exact ⟨es, by rw [h]; exact hlog, hes⟩
    · exact ⟨[], by rw [h, sessionRejected_kii]; exact hlogs.log_eq, nofun⟩
    · exact ⟨[], by rw [h]; exact hlogs.log_eq, nofun⟩
  obtain ⟨rest, hrest, hrun⟩ := hsession
  refine ⟨ret, httpError, code, ?_⟩
  unfold Stage.andThen
  split
  · exact ⟨rest, hrest, hrun⟩
  · obtain ⟨result, written, hlog⟩ := readResponse_log sdk (prvExecuteHttpSession sdk c).2
    refine ⟨rest ++ [.readAuthor result written], ?_, ?_⟩
    · rw [hlog, hrest, List.append_assoc, List.cons_append]
    · intro e he
      rcases List.mem_append.mp he with he | he
      · exact hrun e he
      · rw [List.mem_singleton.mp he]
        rfl

/-- A failed start that is ignored ends in a run that is not allowed. -/
theorem prvOnboardWithThingId_not_disciplined (args : OnboardArgs) {c : Call σ}
    (htoken : (prvKiiThingIfGetAnonymousToken sdk c).1 = 0)
    (hignores : IgnoresStart sdk args (prvKiiThingIfGetAnonymousToken sdk c).2) :
    ¬ Disciplined (newEvents c.kii (prvOnboardWithThingId sdk args c).2.kii) := by
  obtain ⟨resourcePath, hpath, hret, hbody⟩ := hignores
  have hstart : Kept c.kii.log c := ⟨_, Monitor.Grown.refl c.kii.log⟩
  have htokenKept : Kept c.kii.log (prvKiiThingIfGetAnonymousToken sdk c).2 := by
    have htriple : Stage.Triple (Kept c.kii.log) (tokenStages sdk) (Kept c.kii.log)
        (Kept c.kii.log) := kept_token
    rw [← intStage_token] at htriple
    exact htriple.final hstart
  obtain ⟨-, front, hfront, -⟩ := htokenKept
  -- the stages up to the session all go on
  have hfirst : tokenStages sdk c = (true, (prvKiiThingIfGetAnonymousToken sdk c).2) := by
    rw [← intStage_token, intStage, htoken]
    rfl
  have hopen : thingIdOpen sdk (prvKiiThingIfGetAnonymousToken sdk c).2 = (true,
      { (prvKiiThingIfGetAnonymousToken sdk c).2 with
        kii := (kiiApiCallStart sdk (prvKiiThingIfGetAnonymousToken sdk c).2.kii (ascii "POST")
          resourcePath (some contentTypeThingId) true).2 }) :=
    thingIdOpen_of_path sdk hpath
  rcases bodyStage_cases (fun _ => onboardBody_appends sdk (ascii "thingID") args) id
    { (prvKiiThingIfGetAnonymousToken sdk c).2 with
      kii := (kiiApiCallStart sdk (prvKiiThingIfGetAnonymousToken sdk c).2.kii (ascii "POST")
        resourcePath (some contentTypeThingId) true).2 } with
    ⟨kii, hlogs, haccepted⟩ | ⟨_, _, _, _, -, -, hrefused⟩
  · obtain ⟨ret, httpError, code, rest, hlog, -⟩ := session_response_log sdk
      { (prvKiiThingIfGetAnonymousToken sdk c).2 with kii := kii }
    have hstartLog := (adds_start sdk (prvKiiThingIfGetAnonymousToken sdk c).2.kii (ascii "POST")
      resourcePath (some contentTypeThingId) true).log_eq
    rw [hlogs.log_eq, hstartLog, hfront] at hlog
    simp only [List.append_assoc] at hlog
    rw [prvOnboardWithThingId_eq, onboardStages, Stage.andThen_of_goesOn hfirst,
      ← thingIdOpen, Stage.andThen_of_goesOn hopen, Stage.andThen_of_goesOn haccepted,
      newEvents_eq hlog]
    exact not_disciplined_of_failed_start front _ hret _ rfl rest
  · unfold bodyStage at hrefused
    simp only [hbody, Bool.false_eq_true, if_false] at hrefused
    cases hrefused

end

/-! ## The other functions -/

/-- A request that sends the state is run when its handler has succeeded. -/
theorem safeFrom_state {es : List Event} (h : StateEvents es) (ready : Bool) :
    requestMonitor.SafeFrom mayHappen ready es := by
  have hwrites : ∀ {writes : List Event}, (∀ e ∈ writes, e.isWrite = true) → ∀ ready,
      requestMonitor.SafeFrom mayHappen ready writes ∧
        requestMonitor.runFrom ready writes = ready := by
    intro writes hw
    induction writes with
    | nil => exact fun _ => ⟨trivial, rfl⟩
    | cons e writes ih =>
        intro ready
        have he := hw e List.mem_cons_self
        cases e with
        | write bytes ret =>
            obtain ⟨hsafe, hrun⟩ := ih (fun e' he' => hw e' (List.mem_cons_of_mem _ he')) ready
            exact ⟨⟨mayHappen_of_not_run rfl, hsafe⟩, hrun⟩
        | _ => cases he
  cases h with
  | refused => exact ⟨mayHappen_of_not_run rfl, mayHappen_of_not_run rfl, trivial⟩
  | notStarted call h => exact ⟨mayHappen_of_not_run rfl, trivial⟩
  | notWritten call h =>
      refine ⟨mayHappen_of_not_run rfl, ?_⟩
      rw [Monitor.safeFrom_append]
      exact ⟨(hwrites h _).1, mayHappen_of_not_run rfl, trivial⟩
  | run call h ret httpError responseCode =>
      refine ⟨mayHappen_of_not_run rfl, ?_⟩
      rw [Monitor.safeFrom_append, (hwrites h _).2]
      exact ⟨(hwrites h _).1, mayHappen_of_not_run rfl, fun _ => rfl, trivial⟩

/-- The body of the results request is complete when all of its pieces were accepted. -/
theorem disciplined_results (call : ApiCall) (es : List Entry) (ret : Int)
    (httpError : HttpError) (responseCode : Int) {rest : List Event}
    (hrest : rest = [] ∨ StateEvents rest) :
    Disciplined ([.callStart call 0, .appendBody resultsOpening 0] ++ (es.flatMap Entry.log ++
      (.appendBody resultsClosing 0 :: .callRun ret httpError responseCode :: rest))) := by
  have hlog : ∀ ready, requestMonitor.runFrom ready (es.flatMap Entry.log) = ready := by
    intro ready
    induction es with
    | nil => rfl
    | cons e es ih =>
        rw [List.flatMap_cons, Monitor.runFrom_append, Entry.log, Monitor.runFrom_cons,
          requestMonitor_accepted]
        exact ih
  rw [Disciplined, Monitor.safe_append, Monitor.safeFrom_append, hlog]
  refine ⟨⟨mayHappen_of_not_run rfl, mayHappen_of_not_run rfl, trivial⟩,
    safeFrom_of_no_run (fun _ => isRun_of_mem_log) _, mayHappen_of_not_run rfl,
    fun _ => rfl, ?_⟩
  rcases hrest with rfl | hstate
  · trivial
  · exact safeFrom_state hstate _

theorem handleCommand_disciplined {sdk : Sdk σ} {remaining : σ → Nat}
    (hbuf : FixedBuffer sdk.api remaining) (handlers : Handlers σ δ) (stack : Stack) (fuel : Nat)
    (s : CommandState σ δ) :
    Disciplined (newEvents s.machine.kii
      (handleCommand sdk handlers stack fuel s).2.machine.kii) := by
  cases hopen : openCommand sdk s with
  | none =>
      obtain ⟨es, hadd, hsilent, -⟩ := handleCommand_of_not_open hopen handlers stack fuel
      rw [newEvents_eq hadd.log_eq]
      exact safeFrom_of_no_run (fun e he => isRun_of_silent (hsilent e he)) _
  | some r =>
      obtain ⟨actions, m⟩ := r
      by_cases hcomplete :
          (loopEnd (commandItems sdk.json stack s.buffer fuel actions)).flow = .finished ∧
          (entriesText (entries handlers stack (commandItems sdk.json stack s.buffer fuel actions)
            m.device).1).length + 2 ≤ remaining m.kii.core
      · obtain ⟨-, -, call, ret, httpError, responseCode, rest, hlog, hrest⟩ :=
          handleCommand_complete_log hbuf handlers stack fuel hopen rfl hcomplete.1 hcomplete.2
        rw [hlog]
        exact disciplined_results call _ ret httpError responseCode hrest
      · -- here a refused comma counts: the pieces behind it are refused too
        rw [Classical.not_and_iff_not_or_not, Nat.not_le] at hcomplete
        obtain ⟨hrun, -⟩ := handleCommand_incomplete hbuf handlers stack fuel hopen rfl hcomplete
        exact safeFrom_of_no_run hrun _

theorem newEvents_self (kii : Kii σ) : newEvents kii kii = [] := by
  unfold newEvents
  exact List.drop_length

theorem updateStatusRounds_disciplined (sdk : Sdk σ) (stateUpdatePeriod : Int)
    (resourcePath : Bytes) (handlers : Handlers σ δ) (devices : Nat → δ) (kii : Kii σ)
    (rounds : Nat) :
    ∃ es, (updateStatusRounds sdk stateUpdatePeriod resourcePath handlers devices kii
      rounds).log = kii.log ++ es ∧ Disciplined es := by
  obtain ⟨rs, -, hrs, hlog⟩ := updateStatusRounds_log sdk stateUpdatePeriod resourcePath handlers
    devices kii rounds
  refine ⟨_, hlog, ?_⟩
  clear hlog
  induction rs using List.reverseRecOn with
  | nil => trivial
  | append_singleton rs es ih =>
      rw [List.flatMap_append, List.flatMap_singleton, Disciplined, Monitor.safe_append]
      refine ⟨ih fun es' hes' => hrs es' (List.mem_append_left _ hes'), mayHappen_of_not_run rfl, ?_⟩
      exact safeFrom_state (hrs es List.mem_concat_self).1 _

theorem prvUpdateStatus_disciplined (sdk : Sdk σ) (stateUpdatePeriod : Int)
    (handlers : Handlers σ δ) (devices : Nat → δ) (rounds : Nat) (kii : Kii σ) :
    Disciplined (newEvents kii
      (prvUpdateStatus sdk stateUpdatePeriod handlers devices rounds kii)) := by
  unfold prvUpdateStatus
  cases prvSetStateResourcePath sdk.platform kii.appId kii.author.authorId 256 with
  | none =>
      have hlog : kii.refusePath.log = kii.log ++ [.assertion, .pathTooLong] :=
        List.append_assoc _ _ _
      simp only [newEvents_eq hlog]
      exact ⟨mayHappen_of_not_run rfl, mayHappen_of_not_run rfl, trivial⟩
  | some resourcePath =>
      obtain ⟨es, hlog, hes⟩ := updateStatusRounds_disciplined sdk stateUpdatePeriod resourcePath
        handlers devices kii rounds
      simp only [newEvents_eq hlog]
      exact hes

/-! ## All of them -/

/-- A function that makes requests, with its arguments. -/
inductive RequestFunction (σ δ : Type) where
  | getAnonymousToken (error : ErrorSlot)
  | onboardWithVendorThingId (args : OnboardArgs) (error : ErrorSlot)
  | onboardWithThingId (args : OnboardArgs) (error : ErrorSlot)
  | requestProperty (setPath : PathBuilder) (path : Bytes) (size : Nat) (error : ErrorSlot)
  | updateProperty (setPath : PathBuilder) (contentType key value : Bytes) (error : ErrorSlot)
  | handleCommand (handlers : Handlers σ δ) (stack : Stack) (fuel : Nat) (device : δ)
      (buffer : Bytes)
  | sendState (stateHandler : WriterProgram)
  | updateStatus (stateUpdatePeriod : Int) (handlers : Handlers σ δ) (devices : Nat → δ)
      (rounds : Nat)

/-- Call the function on a `kii_t`. -/
def RequestFunction.run (sdk : Sdk σ) (kii : Kii σ) : RequestFunction σ δ → Kii σ
  | .getAnonymousToken error => (prvKiiThingIfGetAnonymousToken sdk ⟨kii, error⟩).2.kii
  | .onboardWithVendorThingId args error =>
      (prvOnboardWithVendorThingId sdk args ⟨kii, error⟩).2.kii
  | .onboardWithThingId args error => (prvOnboardWithThingId sdk args ⟨kii, error⟩).2.kii
  | .requestProperty setPath path size error =>
      (ThingIfSdk.requestProperty sdk setPath path size ⟨kii, error⟩).2.1.kii
  | .updateProperty setPath contentType key value error =>
      (ThingIfSdk.updateProperty sdk setPath contentType key value ⟨kii, error⟩).2.kii
  | .handleCommand handlers stack fuel device buffer =>
      (ThingIfSdk.handleCommand sdk handlers stack fuel ⟨⟨kii, device⟩, buffer⟩).2.machine.kii
  | .sendState stateHandler => (prvSendState sdk stateHandler kii).2
  | .updateStatus stateUpdatePeriod handlers devices rounds =>
      prvUpdateStatus sdk stateUpdatePeriod handlers devices rounds kii

/-- The function is `prv_onboard_with_thing_id`, it has its token, its own request
is not started, and all of the body is accepted. -/
def RequestFunction.RunsUnstarted (sdk : Sdk σ) (kii : Kii σ) : RequestFunction σ δ → Prop
  | .onboardWithThingId args error =>
      (prvKiiThingIfGetAnonymousToken sdk ⟨kii, error⟩).1 = 0 ∧
        IgnoresStart sdk args (prvKiiThingIfGetAnonymousToken sdk ⟨kii, error⟩).2
  | _ => False

/-- A disciplined end of a run, for functions that work on a `Call`. -/
theorem disciplined_of_kept {kii kii' : Kii σ} {error : ErrorSlot}
    (h : Kept kii.log (⟨kii', error⟩ : Call σ)) : Disciplined (newEvents kii kii') := by
  obtain ⟨ready, es, hlog, hsafe, -⟩ := h
  rw [newEvents_eq hlog]
  exact hsafe

/-- What the exception comes to. -/
theorem not_disciplined_of_runsUnstarted {sdk : Sdk σ} {kii : Kii σ} {f : RequestFunction σ δ}
    (h : f.RunsUnstarted sdk kii) : ¬ Disciplined (newEvents kii (f.run sdk kii)) := by
  cases f with
  | onboardWithThingId args error =>
      exact prvOnboardWithThingId_not_disciplined args h.1 h.2
  | _ => exact absurd h not_false

/-- Every function runs complete requests only, except where
`prv_onboard_with_thing_id` goes on with a request that was not started. -/
theorem disciplined_iff {sdk : Sdk σ} {remaining : σ → Nat} (hbuf : FixedBuffer sdk.api remaining)
    (f : RequestFunction σ δ) (kii : Kii σ) :
    Disciplined (newEvents kii (f.run sdk kii)) ↔ ¬ f.RunsUnstarted sdk kii := by
  have hstart : ∀ error, Kept kii.log (⟨kii, error⟩ : Call σ) :=
    fun _ => ⟨_, Monitor.Grown.refl kii.log⟩
  cases f with
  | getAnonymousToken error =>
      have htriple : Stage.Triple (Kept kii.log) (tokenStages sdk) (Kept kii.log)
        (Kept kii.log) := kept_token
      rw [← intStage_token] at htriple
      exact iff_of_true (disciplined_of_kept (htriple.final (hstart error))) not_false
  | onboardWithVendorThingId args error =>
      exact iff_of_true (disciplined_of_kept
        ((kept_onboardWithVendorThingId args).final (hstart error))) not_false
  | onboardWithThingId args error =>
      constructor
      · intro hdisciplined hruns
        exact not_disciplined_of_runsUnstarted hruns hdisciplined
      · intro hnot
        exact disciplined_of_kept (kept_onboardWithThingId args (hstart error)
          fun htoken hignores => hnot ⟨htoken, hignores⟩)
  | requestProperty setPath path size error =>
      exact iff_of_true (disciplined_of_kept
        ((kept_requestProperty setPath path size).final (hstart error))) not_false
  | updateProperty setPath contentType key value error =>
      exact iff_of_true (disciplined_of_kept
        ((kept_updateProperty setPath contentType key value).final (hstart error))) not_false
  | handleCommand handlers stack fuel device buffer =>
      exact iff_of_true (handleCommand_disciplined hbuf handlers stack fuel
        ⟨⟨kii, device⟩, buffer⟩) not_false
  | sendState stateHandler =>
      obtain ⟨es, hes, hlog, -⟩ := prvSendState_log sdk stateHandler kii
      refine iff_of_true ?_ not_false
      simp only [RequestFunction.run, newEvents_eq hlog]
      exact safeFrom_state hes _
  | updateStatus stateUpdatePeriod handlers devices rounds =>
      exact iff_of_true (prvUpdateStatus_disciplined sdk stateUpdatePeriod handlers devices
        rounds kii) not_false

/-- A good token response, and a good one to the request behind it. -/
def onboardingReplies : List Reply :=
  [.ok tokenResponse, .ok onboardResponse]

/-- Both requests of the onboarding are run. -/
theorem onboardingReplies_used :
    ((.onboardWithThingId plainArgs freshError : RequestFunction Script Unit).run
      (scriptedSdk 1000) (scriptedKii onboardingReplies)).core.replies = [] := by
  obtain ⟨kii, htoken, happ, -, hreplies, -⟩ := token_scripted [.ok onboardResponse]
  have hpath : prvSetOnboardResourcePath (scriptedSdk 1000).platform kii.appId 64 =
      some [thingIfAppPath, ascii "app", onboardingPath].flatten := by
    rw [happ]
    rfl
  -- the request is started on an empty buffer, which its body fits
  let started : Call Script :=
    { kii := (kiiApiCallStart (scriptedSdk 1000) kii (ascii "POST")
        [thingIfAppPath, ascii "app", onboardingPath].flatten (some contentTypeThingId) true).2
      error := freshError }
  obtain ⟨-, hcore⟩ : _ ∧ started.kii.core = ⟨1000, [.ok onboardResponse]⟩ :=
    scriptedStart_succeeds hreplies rfl _ _ _ _
  have hlen : (onboardPieces (ascii "thingID") plainArgs).flatten.flatten.length ≤ 1000 := by
    decide
  obtain ⟨built, hbody, -, -, -, hleft⟩ := @bodyStage_scripted 1000 _ _
    (fun _ => onboardBody_appends (scriptedSdk 1000) (ascii "thingID") plainArgs) id started
    (by rw [hcore]; exact hlen)
  rw [hcore] at hleft
  have hsession : prvExecuteHttpSession (scriptedSdk 1000) ⟨built, freshError⟩ =
      (true, ⟨built.answered onboardResponse [], freshError⟩) := session_scripted hleft
  -- reading the response leaves the connection alone
  have hread : ∀ c : Call Script, (intStage (prvThingIfParseOnboardingResponse
      (scriptedSdk 1000)) c).2.kii.core.replies = c.kii.core.replies := by
    intro c
    unfold intStage prvThingIfParseOnboardingResponse
    simp only
    split <;> rfl
  have hopen : thingIdOpen (scriptedSdk 1000) ⟨kii, freshError⟩ = (true, started) :=
    thingIdOpen_of_path (scriptedSdk 1000) hpath
  simp only [RequestFunction.run]
  rw [prvOnboardWithThingId_eq, onboardStages, onboardingReplies,
    Stage.andThen_of_goesOn htoken, ← thingIdOpen, Stage.andThen_of_goesOn hopen,
    Stage.andThen_of_goesOn hbody, Stage.andThen_of_goesOn hsession, hread]
  rfl

/-- An onboarding that gets its token and runs its own request behind it. -/
theorem onboarding_disciplined_iff :
    FixedBuffer (scriptedSdk 1000).api Script.room ∧
      ((.onboardWithThingId plainArgs freshError : RequestFunction Script Unit).run
        (scriptedSdk 1000) (scriptedKii onboardingReplies)).core.replies = [] ∧
      (Disciplined (newEvents (scriptedKii onboardingReplies)
          ((.onboardWithThingId plainArgs freshError : RequestFunction Script Unit).run
            (scriptedSdk 1000) (scriptedKii onboardingReplies))) ↔
        ¬ (.onboardWithThingId plainArgs freshError : RequestFunction Script Unit).RunsUnstarted
          (scriptedSdk 1000) (scriptedKii onboardingReplies)) :=
  ⟨scriptedApi_fixedBuffer 1000, onboardingReplies_used,
    disciplined_iff (scriptedApi_fixedBuffer 1000) (.onboardWithThingId plainArgs freshError)
      (scriptedKii onboardingReplies)⟩

/-- A good token response, and then a request that does not start. -/
def unstartedReplies : List Reply :=
  [.ok tokenResponse, { Reply.ok onboardResponse with startRet := -1 }]

/-- The body of the onboarding request goes behind that of the token request, and
both are sent. -/
theorem unstarted_not_disciplined :
    ¬ Disciplined (newEvents (scriptedKii unstartedReplies)
      ((.onboardWithThingId plainArgs freshError : RequestFunction Script Unit).run
        (scriptedSdk 1000) (scriptedKii unstartedReplies))) := by
  obtain ⟨kii, htoken, happ, -, hreplies, hroom⟩ :=
    token_scripted [{ Reply.ok onboardResponse with startRet := -1 }]
  obtain ⟨hret, hcall⟩ := token_of_stages htoken
  apply not_disciplined_of_runsUnstarted
  refine ⟨hret, ?_⟩
  rw [unstartedReplies, hcall]
  have hstarted := @scriptedStart_fails 1000 kii (.ok onboardResponse) [] (by rw [hreplies])
    [thingIfAppPath, ascii "app", onboardingPath].flatten (some contentTypeThingId)
  obtain ⟨hstartRet, hstartRoom⟩ := hstarted
  refine ⟨[thingIfAppPath, ascii "app", onboardingPath].flatten, ?_, ?_, ?_⟩
  · show prvSetOnboardResourcePath (scriptedSdk 1000).platform kii.appId 64 = _
    rw [happ]
    rfl
  · rw [hstartRet]
    decide
  · -- what the token request has left of the buffer is enough
    have hbuf : FixedBuffer (scriptedSdk 1000).api Script.room := scriptedApi_fixedBuffer 1000
    have hlen : (onboardPieces (ascii "thingID") plainArgs).flatten.flatten.length ≤ 100 := by
      decide
    rw [anyFails_appends (onboardBody_appends (scriptedSdk 1000) (ascii "thingID") plainArgs)]
    refine (hbuf.appendPieces_fits _ _ ?_).1
    rw [hstartRoom]
    omega

end ThingIfSdk
