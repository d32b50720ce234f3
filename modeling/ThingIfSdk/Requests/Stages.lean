import ThingIfSdk.Lib.Stage
import ThingIfSdk.Model.Api

/-!
# Requests in stages

Every request function of the SDK opens a request, fills its body, runs it and
reads the response, and gives up at the first of these that fails.  The functions
differ in what they do on giving up, and those differences are the arguments of
the stages below.
-/

namespace ThingIfSdk

open ByteText JsonText Staging

variable {σ : Type}

/-! ## The stages -/

/-- Build the resource path and start the request. -/
def openStage (sdk : Sdk σ) (path : Kii σ → Option Bytes) (refused : Call σ → Call σ)
    (httpMethod : Bytes) (contentType : Option Bytes) (setAuthenticationHeader : Bool)
    (failed : Stage (Call σ)) : Stage (Call σ) := fun c =>
  match path c.kii with
  | none => (false, refused c)
  | some resourcePath =>
      let r := kiiApiCallStart sdk c.kii httpMethod resourcePath contentType
        setAuthenticationHeader
      if r.1 ≠ 0 then failed { c with kii := r.2 } else (true, { c with kii := r.2 })

/-- Append the body. -/
def bodyStage (body : Kii σ → List (Kii σ → Int × Kii σ)) (failed : Call σ → Call σ) :
    Stage (Call σ) := fun c =>
  let r := anyFails (body c.kii) c.kii
  if r.1 then (false, failed { c with kii := r.2 }) else (true, { c with kii := r.2 })

/-- A function of the source that returns 0 when the caller is to go on. -/
def intStage (f : Call σ → Int × Call σ) : Stage (Call σ) := fun c =>
  ((f c).1 = 0, (f c).2)

/-- Give up with the code for a buffer that is too small. -/
def giveUpInsufficient : Stage (Call σ) := fun c => (false, c.setCode .insufficientBuffer)

/-- A path builder has refused. -/
def refusedPath (c : Call σ) : Call σ :=
  { c with kii := c.kii.refusePath }

/-! ## The functions of the source -/

def tokenPath (sdk : Sdk σ) (kii : Kii σ) : Option Bytes :=
  let parts := [appPath, kii.appId, oauthPath]
  if 64 ≤ resourcePathLength sdk.platform parts then none else some parts.flatten

def tokenStages (sdk : Sdk σ) : Stage (Call σ) :=
  (openStage sdk (tokenPath sdk)
      (fun c => (c.emit .tokenPathTooLong).setCode .insufficientBuffer) (ascii "POST")
      (some contentTypeJson) false giveUpInsufficient).andThen
    ((bodyStage (tokenBody sdk) fun c => c.setCode .insufficientBuffer).andThen
      (Stage.andThen (prvExecuteHttpSession sdk) (intStage (readToken sdk))))

/-- Starting a request does not change what the body of the token request holds. -/
theorem tokenBody_start (sdk : Sdk σ) (kii : Kii σ) (httpMethod resourcePath : Bytes)
    (contentType : Option Bytes) (setAuthenticationHeader : Bool) :
    tokenBody sdk (kiiApiCallStart sdk kii httpMethod resourcePath contentType
      setAuthenticationHeader).2 = tokenBody sdk kii := rfl

theorem intStage_token (sdk : Sdk σ) :
    intStage (prvKiiThingIfGetAnonymousToken sdk) = tokenStages sdk := by
  funext c
  unfold intStage prvKiiThingIfGetAnonymousToken tokenStages Stage.andThen openStage tokenPath
    bodyStage giveUpInsufficient
  by_cases hpath : 64 ≤ resourcePathLength sdk.platform [appPath, c.kii.appId, oauthPath]
  · simp only [if_pos hpath]
    rfl
  · simp only [if_neg hpath]
    split_ifs <;> simp_all [intStage, tokenBody_start]

/-- The token request by its stages. -/
theorem token_of_stages {sdk : Sdk σ} {c c' : Call σ} (h : tokenStages sdk c = (true, c')) :
    (prvKiiThingIfGetAnonymousToken sdk c).1 = 0 ∧
      (prvKiiThingIfGetAnonymousToken sdk c).2 = c' := by
  rw [← intStage_token] at h
  unfold intStage at h
  rw [Prod.mk.injEq, decide_eq_true_eq] at h
  exact h

/-- The onboarding request for a given id; the two functions of the source differ
in the id's key, the content type, and what they do when the request does not
start or its body does not fit. -/
def onboardStages (sdk : Sdk σ) (args : OnboardArgs) (idKey contentType : Bytes)
    (startFailed : Stage (Call σ)) (bodyFailed : Call σ → Call σ) : Stage (Call σ) :=
  (tokenStages sdk).andThen
    ((openStage sdk (fun kii => prvSetOnboardResourcePath sdk.platform kii.appId 64) refusedPath
        (ascii "POST") (some contentType) true startFailed).andThen
      ((bodyStage (fun _ => onboardBody sdk idKey args) bodyFailed).andThen
        (Stage.andThen (prvExecuteHttpSession sdk)
          (intStage (prvThingIfParseOnboardingResponse sdk)))))

theorem prvOnboardWithVendorThingId_eq (sdk : Sdk σ) (args : OnboardArgs) :
    prvOnboardWithVendorThingId sdk args =
      onboardStages sdk args (ascii "vendorThingID") contentTypeVendorThingId giveUpInsufficient
        fun c => c.setCode .insufficientBuffer := by
  funext c
  unfold prvOnboardWithVendorThingId onboardStages Stage.andThen openStage bodyStage
    giveUpInsufficient
  rw [← intStage_token]
  rcases Option.eq_none_or_eq_some (prvSetOnboardResourcePath sdk.platform
      (prvKiiThingIfGetAnonymousToken sdk c).2.kii.appId 64) with hpath | ⟨resourcePath, hpath⟩
  · simp only [intStage, hpath]
    split_ifs <;> simp_all [refusedPath]
  · simp only [intStage, hpath]
    split_ifs <;> simp_all

theorem prvOnboardWithThingId_eq (sdk : Sdk σ) (args : OnboardArgs) :
    prvOnboardWithThingId sdk args =
      onboardStages sdk args (ascii "thingID") contentTypeThingId (fun c => (true, c)) id := by
  funext c
  unfold prvOnboardWithThingId onboardStages Stage.andThen openStage bodyStage
  rw [← intStage_token]
  rcases Option.eq_none_or_eq_some (prvSetOnboardResourcePath sdk.platform
      (prvKiiThingIfGetAnonymousToken sdk c).2.kii.appId 64) with hpath | ⟨resourcePath, hpath⟩
  · simp only [intStage, hpath]
    split_ifs <;> simp_all [refusedPath]
  · simp only [intStage, hpath]
    split_ifs <;> simp_all

/-- A function that also hands a string back, as far as it is a stage. -/
def outStage (f : Call σ → Bool × Call σ × Option Bytes) : Stage (Call σ) := fun c =>
  ((f c).1, (f c).2.1)

def requestStages (sdk : Sdk σ) (setPath : PathBuilder) (path : Bytes) (size : Nat) :
    Stage (Call σ) :=
  (openStage sdk (fun kii => setPath kii.appId kii.author.authorId 128) refusedPath (ascii "GET")
      none true giveUpInsufficient).andThen
    (Stage.andThen (prvExecuteHttpSession sdk) (outStage (readProperty sdk path size)))

theorem outStage_requestProperty (sdk : Sdk σ) (setPath : PathBuilder) (path : Bytes)
    (size : Nat) :
    outStage (requestProperty sdk setPath path size) = requestStages sdk setPath path size := by
  funext c
  unfold outStage requestProperty requestStages Stage.andThen openStage giveUpInsufficient
    prvKiiApiCallStart
  rcases Option.eq_none_or_eq_some (setPath c.kii.appId c.kii.author.authorId 128) with
    hpath | ⟨resourcePath, hpath⟩
  · simp only [hpath]
    rfl
  · simp only [hpath]
    split_ifs <;> simp_all [outStage]

def updateStages (sdk : Sdk σ) (setPath : PathBuilder) (contentType key value : Bytes) :
    Stage (Call σ) :=
  (openStage sdk (fun kii => setPath kii.appId kii.author.authorId 128) refusedPath (ascii "PUT")
      (some contentType) true giveUpInsufficient).andThen
    ((bodyStage (fun _ => updateBody sdk key value) fun c =>
      c.setCode .insufficientBuffer).andThen (prvExecuteHttpSession sdk))

theorem updateProperty_eq (sdk : Sdk σ) (setPath : PathBuilder)
    (contentType key value : Bytes) :
    updateProperty sdk setPath contentType key value =
      updateStages sdk setPath contentType key value := by
  funext c
  unfold updateProperty updateStages Stage.andThen openStage bodyStage giveUpInsufficient
    prvKiiApiCallStart
  rcases Option.eq_none_or_eq_some (setPath c.kii.appId c.kii.author.authorId 128) with
    hpath | ⟨resourcePath, hpath⟩
  · simp only [hpath]
    rfl
  · simp only [hpath]
    split_ifs <;> simp_all

/-! ## What a stage does -/

/-- Between two states of a `kii_t` the identity has not changed, and the given
entries were added to the log. -/
structure Kii.Logs (before after : Kii σ) (es : List Event) : Prop where
  appId_eq : after.appId = before.appId
  author_eq : after.author = before.author
  log_eq : after.log = before.log ++ es

theorem Kii.Adds.logs {before after : Kii σ} {es : List Event} (h : before.Adds after es) :
    before.Logs after es :=
  ⟨h.appId_eq, h.author_eq, h.log_eq⟩

/-- A request is refused, is not started, or is started. -/
theorem openStage_cases (sdk : Sdk σ) (path : Kii σ → Option Bytes) (refused : Call σ → Call σ)
    (httpMethod : Bytes) (contentType : Option Bytes) (setAuthenticationHeader : Bool)
    (failed : Stage (Call σ)) (c : Call σ) :
    let r := openStage sdk path refused httpMethod contentType setAuthenticationHeader failed c
    (path c.kii = none ∧ r = (false, refused c)) ∨
    ∃ resourcePath ret kii, path c.kii = some resourcePath ∧
      c.kii.Logs kii [.callStart (c.kii.apiCall httpMethod resourcePath contentType
        setAuthenticationHeader) ret] ∧
      ((ret ≠ 0 ∧ r = failed { c with kii := kii }) ∨
        (ret = 0 ∧ r = (true, { c with kii := kii }))) := by
  unfold openStage
  simp only
  cases path c.kii with
  | none => exact .inl ⟨rfl, rfl⟩
  | some resourcePath =>
      refine .inr ⟨resourcePath, _, _, rfl, (adds_start sdk c.kii httpMethod resourcePath
        contentType setAuthenticationHeader).logs, ?_⟩
      simp only
      split
      · rename_i hret
        exact .inl ⟨hret, rfl⟩
      · rename_i hret
        exact .inr ⟨not_not.mp hret, rfl⟩

/-- Behind a path that is built, what the start call returned decides. -/
theorem openStage_of_path (sdk : Sdk σ) {path : Kii σ → Option Bytes} (refused : Call σ → Call σ)
    (httpMethod : Bytes) (contentType : Option Bytes) (setAuthenticationHeader : Bool)
    (failed : Stage (Call σ)) {c : Call σ} {resourcePath : Bytes}
    (h : path c.kii = some resourcePath) :
    openStage sdk path refused httpMethod contentType setAuthenticationHeader failed c =
      let r := kiiApiCallStart sdk c.kii httpMethod resourcePath contentType
        setAuthenticationHeader
      if r.1 ≠ 0 then failed { c with kii := r.2 } else (true, { c with kii := r.2 }) := by
  unfold openStage
  simp only [h]

theorem openStage_of_no_path (sdk : Sdk σ) {path : Kii σ → Option Bytes}
    (refused : Call σ → Call σ) (httpMethod : Bytes) (contentType : Option Bytes)
    (setAuthenticationHeader : Bool) (failed : Stage (Call σ)) {c : Call σ}
    (h : path c.kii = none) :
    openStage sdk path refused httpMethod contentType setAuthenticationHeader failed c =
      (false, refused c) := by
  unfold openStage
  simp only [h]

section

variable {sdk : Sdk σ} {body : Kii σ → List (Kii σ → Int × Kii σ)}
  {pieces : Kii σ → List (List Bytes)}
  (hbody : ∀ kii, List.Forall₂ (Appends sdk) (body kii) (pieces kii)) (failed : Call σ → Call σ)

include hbody

/-- A body that is accepted. -/
theorem bodyStage_accepted {c : Call σ} (h : (anyFails (body c.kii) c.kii).1 = false) :
    c.kii.Logs (anyFails (body c.kii) c.kii).2 (accepted (pieces c.kii).flatten) ∧
      bodyStage body failed c = (true, { c with kii := (anyFails (body c.kii) c.kii).2 }) := by
  have heffect := appendPieces_effect sdk (pieces c.kii).flatten c.kii
  rw [← anyFails_appends (hbody c.kii)] at heffect
  refine ⟨(heffect.done h).logs, ?_⟩
  unfold bodyStage
  simp only [h, Bool.false_eq_true, if_false]

/-- A body that stops at a piece which is refused. -/
theorem bodyStage_refused {c : Call σ} (h : (anyFails (body c.kii) c.kii).1 = true) :
    ∃ front p ret, ret ≠ 0 ∧
      c.kii.Logs (anyFails (body c.kii) c.kii).2 (accepted front ++ [.appendBody p ret]) ∧
      bodyStage body failed c =
        (false, failed { c with kii := (anyFails (body c.kii) c.kii).2 }) := by
  have heffect := appendPieces_effect sdk (pieces c.kii).flatten c.kii
  rw [← anyFails_appends (hbody c.kii)] at heffect
  obtain ⟨front, p, -, ret, -, hret, hadd⟩ := heffect.refused h
  refine ⟨front, p, ret, hret, hadd.logs, ?_⟩
  unfold bodyStage
  simp only [h, if_true]

/-- All pieces of a body are accepted, or the body stops at the first that is refused. -/
theorem bodyStage_cases (c : Call σ) :
    let r := bodyStage body failed c
    (∃ kii, c.kii.Logs kii (accepted (pieces c.kii).flatten) ∧ r = (true, { c with kii := kii })) ∨
    ∃ front p ret kii, ret ≠ 0 ∧ c.kii.Logs kii (accepted front ++ [.appendBody p ret]) ∧
      r = (false, failed { c with kii := kii }) := by
  cases hr : (anyFails (body c.kii) c.kii).1 with
  | false =>
      obtain ⟨hlogs, h⟩ := bodyStage_accepted hbody failed hr
      exact .inl ⟨_, hlogs, h⟩
  | true =>
      obtain ⟨front, p, ret, hret, hlogs, h⟩ := bodyStage_refused hbody failed hr
      exact .inr ⟨front, p, ret, _, hret, hlogs, h⟩

end

theorem sessionRejected_kii (sdk : Sdk σ) (c : Call σ) : (sessionRejected sdk c).kii = c.kii := by
  unfold sessionRejected
  split <;> rfl

/-- A session does not run, is rejected, or goes well. -/
theorem session_cases (sdk : Sdk σ) (c : Call σ) :
    let r := prvExecuteHttpSession sdk c
    ∃ ret httpError code kii, c.kii.Logs kii [.callRun ret httpError code] ∧
      (kii.httpError = httpError ∧ kii.responseCode = code) ∧
      ((ret ≠ 0 ∧ r = (false, sessionNotRun { c with kii := kii })) ∨
        (ret = 0 ∧ statusOk code = false ∧ r = (false, sessionRejected sdk { c with kii := kii })) ∨
        (ret = 0 ∧ statusOk code = true ∧ r = (true, { c with kii := kii }))) := by
  refine ⟨_, _, _, (kiiApiCallRun sdk c.kii).2, ⟨rfl, rfl, rfl⟩, ⟨rfl, rfl⟩, ?_⟩
  unfold prvExecuteHttpSession
  simp only
  by_cases hret : (kiiApiCallRun sdk c.kii).1 ≠ 0
  · exact .inl ⟨hret, if_pos hret⟩
  · rw [if_neg hret]
    rw [not_not] at hret
    cases hok : statusOk (kiiApiCallRun sdk c.kii).2.responseCode with
    | true => exact .inr (.inr ⟨hret, hok, if_pos rfl⟩)
    | false => exact .inr (.inl ⟨hret, hok, if_neg nofun⟩)

end ThingIfSdk
