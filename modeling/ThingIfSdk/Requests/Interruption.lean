import ThingIfSdk.Requests.Runs

/-!
# Onboarding that is cut off

An onboarding call makes two requests, and the token that the first one yields is in
the author before the second is made.  `CutOff` says, by what the steps of the two
requests come to, when it stays there; every other call that fails leaves the author
as it was.
-/

namespace ThingIfSdk

open ByteText JsonText Staging Running

variable {σ : Type}

/-- The onboarding functions. -/
def Operation.isOnboarding : Operation → Bool
  | .onboardWithVendorThingId _ => true
  | .onboardWithThingId _ => true
  | _ => false

/-- What an onboarding function does behind its token request. -/
def Operation.requestStage (sdk : Sdk σ) : Operation → Option (Stage (Call σ))
  | .onboardWithVendorThingId args => some (vendorStage sdk args)
  | .onboardWithThingId args => some (thingIdRequest sdk args)
  | _ => none

theorem exists_requestStage (sdk : Sdk σ) {op : Operation} (h : op.isOnboarding = true) :
    ∃ request, op.requestStage sdk = some request := by
  cases op with
  | onboardWithVendorThingId args => exact ⟨_, rfl⟩
  | onboardWithThingId args => exact ⟨_, rfl⟩
  | _ => cases h

/-! ## Outcomes -/

/-- The onboarding request of `prv_onboard_with_thing_id`. -/
def thingIdPost (args : OnboardArgs) (kii : Kii σ) : PostRequest where
  resourcePath := [thingIfAppPath, kii.appId, onboardingPath].flatten
  contentType := contentTypeThingId
  authenticated := true
  pieces := (onboardPieces (ascii "thingID") args).flatten

/-- Whatever its start call has returned, the request is built, run and answered with a
status in 200..299. -/
structure Delivered (sdk : Sdk σ) (r : PostRequest) (before after : Kii σ) : Prop where
  built : (appendPieces sdk r.pieces (r.start sdk before).2).1 = false
  ran : (kiiApiCallRun sdk (appendPieces sdk r.pieces (r.start sdk before).2).2).1 = 0
  after_eq : after = (kiiApiCallRun sdk (appendPieces sdk r.pieces (r.start sdk before).2).2).2
  status : statusOk after.responseCode = true

/-- The parser reads both fields of an onboarding response. -/
def ReadsAuthor (sdk : Sdk σ) (body : Bytes) : Prop :=
  (sdk.json.kiiJsonReadObject body
    [thingIdField sdk.platform, accessTokenField sdk.platform]).1 = .success

/-- The onboarding request of a call has its path and is delivered, and the response is
read.  What the start call returns matters for the vendor thing id only. -/
inductive CarriedThrough (sdk : Sdk σ) (kii : Kii σ) : Operation → Prop where
  | vendorThingId {args : OnboardArgs} {kii' : Kii σ}
      (hpath : prvSetOnboardResourcePath sdk.platform kii.appId 64 =
        some (vendorRequest args kii).resourcePath)
      (hanswered : Answered sdk (vendorRequest args kii) kii kii')
      (hread : ReadsAuthor sdk kii'.responseBody) :
      CarriedThrough sdk kii (.onboardWithVendorThingId args)
  | thingId {args : OnboardArgs} {kii' : Kii σ}
      (hpath : prvSetOnboardResourcePath sdk.platform kii.appId 64 =
        some (thingIdPost args kii).resourcePath)
      (hdelivered : Delivered sdk (thingIdPost args kii) kii kii')
      (hread : ReadsAuthor sdk kii'.responseBody) :
      CarriedThrough sdk kii (.onboardWithThingId args)

/-- The token request is answered by a response that is refused, and the token in it was
copied all the same. -/
structure TokenRefused (sdk : Sdk σ) (before : Kii σ) : Prop where
  path : tokenPath sdk before = some (tokenRequest before).resourcePath
  response : ∃ kii, Answered sdk (tokenRequest before) before kii ∧
    (sdk.json.kiiJsonReadObject kii.responseBody [tokenField sdk.platform]).1 ≠ .success ∧
    ((sdk.json.kiiJsonReadObject kii.responseBody [tokenField sdk.platform]).2 0).copied ≠ none

/-- A token is written into the author, and the request behind it does not go through. -/
inductive CutOff (sdk : Sdk σ) (op : Operation) (before : Kii σ) : Prop where
  | behindToken {token : Bytes} {kii : Kii σ} (htoken : TokenYielded sdk before token kii)
      (hnot : ¬ CarriedThrough sdk kii op)
  | inResponse (h : TokenRefused sdk before)

/-! ## Stages that leave the author alone -/

/-- The stage adds to the log and leaves the identity alone. -/
def LogsOnly (f : Stage (Call σ)) : Prop :=
  ∀ c : Call σ, ∃ es, c.kii.Logs (f c).2.kii es

theorem Kii.Logs.refl (kii : Kii σ) : kii.Logs kii [] :=
  ⟨rfl, rfl, (List.append_nil _).symm⟩

theorem LogsOnly.andThen {f g : Stage (Call σ)} (hf : LogsOnly f) (hg : LogsOnly g) :
    LogsOnly (f.andThen g) := by
  intro c
  obtain ⟨es, hes⟩ := hf c
  cases hend : (f c).1 with
  | false =>
      rw [Stage.andThen_of_false hend]
      exact ⟨es, hes⟩
  | true =>
      obtain ⟨es', hes'⟩ := hg (f c).2
      rw [Stage.andThen_of_true hend]
      exact ⟨es ++ es', hes.trans hes'⟩

section

variable {sdk : Sdk σ}

theorem logsOnly_openStage {path : Kii σ → Option Bytes} {refused : Call σ → Call σ}
    (hrefused : ∀ c : Call σ, ∃ es, c.kii.Logs (refused c).kii es) (httpMethod : Bytes)
    (contentType : Option Bytes) (setAuthenticationHeader : Bool) {failed : Stage (Call σ)}
    (hfailed : ∀ c, (failed c).2.kii = c.kii) :
    LogsOnly (openStage sdk path refused httpMethod contentType setAuthenticationHeader failed) := by
  intro c
  rcases openStage_cases sdk path refused httpMethod contentType setAuthenticationHeader failed c
    with ⟨-, h⟩ | ⟨call, ret, kii, -, hlogs, ⟨-, h⟩ | ⟨-, h⟩⟩
  · rw [h]
    exact hrefused c
  · rw [h, hfailed]
    exact ⟨_, hlogs⟩
  · rw [h]
    exact ⟨_, hlogs⟩

theorem logsOnly_bodyStage {body : Kii σ → List (Kii σ → Int × Kii σ)}
    {pieces : Kii σ → List (List Bytes)}
    (hbody : ∀ kii, List.Forall₂ (Appends sdk) (body kii) (pieces kii))
    {failed : Call σ → Call σ} (hfailed : ∀ c, (failed c).kii = c.kii) :
    LogsOnly (bodyStage body failed) := by
  intro c
  rcases bodyStage_cases hbody failed c with ⟨kii, hlogs, h⟩ | ⟨front, p, ret, kii, -, hlogs, h⟩
  · rw [h]
    exact ⟨_, hlogs⟩
  · rw [h, hfailed]
    exact ⟨_, hlogs⟩

theorem logsOnly_session : LogsOnly (prvExecuteHttpSession sdk) := by
  intro c
  obtain ⟨ret, httpError, code, kii, hlogs, -, ⟨-, h⟩ | ⟨-, -, h⟩ | ⟨-, -, h⟩⟩ := session_cases sdk c
  · have hnotRun : ∃ es, kii.Logs (sessionNotRun { c with kii := kii }).kii es := by
      unfold sessionNotRun
      split
      · exact ⟨[], .refl kii⟩
      · split
        · exact ⟨[], .refl kii⟩
        · exact ⟨[], .refl kii⟩
        · exact ⟨[], .refl kii⟩
        · exact ⟨[.assertion], rfl, rfl, rfl⟩
    obtain ⟨es, hes⟩ := hnotRun
    rw [h]
    exact ⟨_, hlogs.trans hes⟩
  · rw [h, sessionRejected_kii]
    exact ⟨_, hlogs⟩
  · rw [h]
    exact ⟨_, hlogs⟩

theorem refusedPath_logs (c : Call σ) : ∃ es, c.kii.Logs (refusedPath c).kii es :=
  ⟨[.assertion, .pathTooLong], rfl, rfl, List.append_assoc _ _ _⟩

theorem logsOnly_requestProperty (setPath : PathBuilder) (path : Bytes) (size : Nat) :
    LogsOnly (outStage (requestProperty sdk setPath path size)) := by
  rw [outStage_requestProperty]
  refine (logsOnly_openStage refusedPath_logs _ _ _ fun _ => rfl).andThen
    (logsOnly_session.andThen fun c => ?_)
  unfold outStage readProperty
  simp only
  split
  · split <;> exact ⟨[_], rfl, rfl, rfl⟩
  · exact ⟨[_], rfl, rfl, rfl⟩

theorem logsOnly_updateProperty (setPath : PathBuilder) (contentType key value : Bytes) :
    LogsOnly (updateProperty sdk setPath contentType key value) := by
  have hbody : LogsOnly (bodyStage (fun _ => updateBody sdk key value)
      fun c : Call σ => c.setCode .insufficientBuffer) :=
    logsOnly_bodyStage (fun _ => updateBody_appends sdk key value) fun _ => rfl
  rw [updateProperty_eq]
  exact (logsOnly_openStage refusedPath_logs _ _ _ fun _ => rfl).andThen
    (hbody.andThen logsOnly_session)

/-! ## The token request -/

/-- A token request that gives up leaves the author alone, unless its response is refused
with the token copied. -/
theorem author_of_tokenStages {c : Call σ} (hend : (tokenStages sdk c).1 = false)
    (hnot : ¬ TokenRefused sdk c.kii) : (tokenStages sdk c).2.kii.author = c.kii.author := by
  have hrefused : ∀ c : Call σ, ∃ es,
      c.kii.Logs ((c.emit .tokenPathTooLong).setCode .insufficientBuffer).kii es :=
    fun _ => ⟨[.tokenPathTooLong], rfl, rfl, rfl⟩
  have hbody : LogsOnly (bodyStage (tokenBody sdk)
      fun c : Call σ => c.setCode .insufficientBuffer) :=
    logsOnly_bodyStage (tokenBody_appends sdk) fun _ => rfl
  have hexchange : LogsOnly (exchange sdk (tokenPath sdk)
      (fun c => (c.emit .tokenPathTooLong).setCode .insufficientBuffer) contentTypeJson false
      (tokenBody sdk)) :=
    (logsOnly_openStage hrefused _ _ _ fun _ => rfl).andThen (hbody.andThen logsOnly_session)
  obtain ⟨es, hlogs⟩ := hexchange c
  rw [tokenStages_eq] at hend ⊢
  cases hgoes : (exchange sdk (tokenPath sdk)
      (fun c => (c.emit .tokenPathTooLong).setCode .insufficientBuffer) contentTypeJson false
      (tokenBody sdk) c).1 with
  | false =>
      rw [Stage.andThen_of_false hgoes]
      exact hlogs.author_eq
  | true =>
      obtain ⟨resourcePath, kii, hpath, hanswered, heq⟩ := answered_of_exchange
        (tokenBody_appends sdk) (fun _ _ _ _ _ => rfl) hgoes
      obtain rfl := tokenPath_eq hpath
      rw [heq] at hlogs
      rw [Stage.andThen_of_goesOn heq] at hend ⊢
      -- the response decides: it is refused here, so nothing may have been copied
      let r := sdk.json.kiiJsonReadObject kii.responseBody [tokenField sdk.platform]
      have hread : r.1 ≠ .success := by
        intro hsuccess
        unfold intStage readToken prvKiiThingIfJsonReadObject at hend
        simp only [r] at hsuccess
        simp [hsuccess] at hend
      have hnone : (r.2 0).copied = none := by
        by_contra hcopied
        exact hnot ⟨hpath, kii, hanswered, hread, hcopied⟩
      have hkept : (intStage (readToken sdk) { c with kii := kii }).2.kii.author =
          kii.author.overwrite none (r.2 0).copied := by
        unfold intStage readToken
        simp only
        split <;> rfl
      rw [hkept, hnone]
      exact hlogs.author_eq

/-! ## The request behind the token -/

theorem onboardSession_of_read {before after : Kii σ} {error : ErrorSlot}
    (hran : (kiiApiCallRun sdk before).1 = 0) (hafter : after = (kiiApiCallRun sdk before).2)
    (hstatus : statusOk after.responseCode = true) (hread : ReadsAuthor sdk after.responseBody) :
    (onboardSession sdk ⟨before, error⟩).1 = true := by
  have hsession : prvExecuteHttpSession sdk ⟨before, error⟩ = (true, ⟨after, error⟩) := by
    unfold prvExecuteHttpSession
    simp only
    rw [if_neg (not_not.mpr hran), ← hafter, if_pos hstatus]
  rw [onboardSession, Stage.andThen_of_goesOn hsession]
  unfold ReadsAuthor at hread
  unfold intStage prvThingIfParseOnboardingResponse prvKiiThingIfJsonReadObject
  simp [hread]

/-- An onboarding request that goes through goes through the stages of its call. -/
theorem CarriedThrough.goesOn {op : Operation} {c : Call σ} (h : CarriedThrough sdk c.kii op)
    {request : Stage (Call σ)} (hop : op.requestStage sdk = some request) :
    (request c).1 = true := by
  cases h with
  | @vendorThingId args after hpath hanswered hread =>
      rw [← Option.some.inj hop]
      have hfill := bodyStage_started (r := vendorRequest args c.kii)
        (fun _ => onboardBody_appends sdk (ascii "vendorThingID") args) (fun _ _ _ _ _ => rfl) c
        rfl fun c => c.setCode .insufficientBuffer
      rw [hanswered.built, if_neg Bool.false_ne_true] at hfill
      have hopen : openStage sdk (fun kii => prvSetOnboardResourcePath sdk.platform kii.appId 64)
          refusedPath (ascii "POST") (some contentTypeVendorThingId) true giveUpInsufficient c =
            (true, { c with kii := ((vendorRequest args c.kii).start sdk c.kii).2 }) :=
        openStage_started hpath hanswered.started
      rw [vendorStage, Stage.andThen_of_goesOn hopen, Stage.andThen_of_goesOn hfill]
      exact onboardSession_of_read hanswered.ran hanswered.after_eq hanswered.status hread
  | @thingId args after hpath hdelivered hread =>
      rw [← Option.some.inj hop]
      have hfill := bodyStage_started (r := thingIdPost args c.kii)
        (fun _ => onboardBody_appends sdk (ascii "thingID") args) (fun _ _ _ _ _ => rfl) c
        rfl id
      rw [hdelivered.built, if_neg Bool.false_ne_true] at hfill
      rw [thingIdRequest, Stage.andThen_of_goesOn (thingIdOpen_of_path sdk hpath)]
      show (Stage.andThen _ _ { c with kii := ((thingIdPost args c.kii).start sdk c.kii).2 }).1 = _
      rw [Stage.andThen_of_goesOn hfill]
      exact onboardSession_of_read hdelivered.ran hdelivered.after_eq hdelivered.status hread

/-- An onboarding call that gives up without being cut off leaves the author alone. -/
theorem author_of_not_cutOff (hjson : CopiesFields sdk.json) {op : Operation}
    {request : Stage (Call σ)} (hop : op.requestStage sdk = some request) {c : Call σ}
    (hnot : ¬ CutOff sdk op c.kii)
    (hend : ((tokenStages sdk).andThen request c).1 = false) :
    ((tokenStages sdk).andThen request c).2.kii.author = c.kii.author := by
  cases htoken : (tokenStages sdk c).1 with
  | false =>
      rw [Stage.andThen_of_false htoken]
      exact author_of_tokenStages htoken fun h => hnot (.inResponse h)
  | true =>
      obtain ⟨token, kii, hyielded⟩ := yielded_of_tokenStages hjson htoken
      rw [Stage.andThen_of_goesOn (tokenStages_of_yielded hyielded)] at hend
      refine absurd (.behindToken hyielded fun hgoes => ?_) hnot
      have htrue := CarriedThrough.goesOn (c := ⟨kii, c.error⟩) hgoes hop
      rw [hend] at htrue
      cases htrue

/-- Both onboarding functions are their token request and the stage behind it. -/
theorem onboarding_run (sdk : Sdk σ) {op : Operation} {request : Stage (Call σ)}
    (hop : op.requestStage sdk = some request) :
    (∀ thing error, op.run sdk thing error =
        onboardWith sdk ((tokenStages sdk).andThen request) thing error) ∧
      (CopiesFields sdk.json → LeavesAuthor sdk ((tokenStages sdk).andThen request)) := by
  cases op with
  | onboardWithVendorThingId args =>
      rw [← Option.some.inj hop]
      have heq := prvOnboardWithVendorThingId_request sdk args
      refine ⟨fun thing error => ?_, fun hjson => ?_⟩
      · rw [← heq]
        rfl
      · rw [← heq]
        exact leavesAuthor_onboardWithVendorThingId hjson args
  | onboardWithThingId args =>
      rw [← Option.some.inj hop]
      have heq := prvOnboardWithThingId_request sdk args
      refine ⟨fun thing error => ?_, fun hjson => ?_⟩
      · rw [← heq]
        rfl
      · rw [← heq]
        exact leavesAuthor_onboardWithThingId hjson args
  | _ => cases hop

end

end ThingIfSdk
