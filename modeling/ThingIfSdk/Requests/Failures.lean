import ThingIfSdk.Requests.Bodies

/-!
# How calls fail

`Event.failureClass` gives each failed step the class that the header documents
for it.  A call goes on as long as its steps go well, and `GaveUp` lists what it
leaves in the log and in the caller's record when one does not.
-/

namespace ThingIfSdk

open ByteText JsonText Staging

variable {σ : Type}

/-! ## Failed steps -/

/-- The class of the failure that an entry tells of. -/
def Event.failureClass : Event → Option ErrorCode
  | .callStart _ ret => if ret = 0 then none else some .insufficientBuffer
  | .appendBody _ ret => if ret = 0 then none else some .insufficientBuffer
  | .callRun ret httpError responseCode =>
      if ret = 0 then
        if statusOk responseCode then none else some .http
      else
        match httpError with
        -- the request line and the headers did not fit the buffer
        | .none => some .insufficientBuffer
        | .insufficientBuffer => some .insufficientBuffer
        | .socket => some .socket
        | .invalidResponse => some .invalidPayload
  | .tokenPathTooLong => some .insufficientBuffer
  | .pathTooLong => some .insufficientBuffer
  | .readAuthor result _ => if result = .success then none else some .invalidPayload
  | .readProperty result copyFailed =>
      if result = .success then none
      else if copyFailed then some .insufficientArgBuffer
      else some .invalidPayload
  | _ => none

/-- `kii_api_call_run` has failed on a response that is no HTTP response. -/
def Event.isInvalidResponse : Event → Bool
  | .callRun ret .invalidResponse _ => ret ≠ 0
  | _ => false

/-- A step of a request that went well. -/
def Event.isGood : Event → Bool
  | .callStart _ ret => ret = 0
  | .appendBody _ ret => ret = 0
  | .callRun ret _ responseCode => ret = 0 && statusOk responseCode
  | .readAuthor result _ => result = .success
  | .readProperty result _ => result = .success
  | _ => false

theorem failureClass_of_good {e : Event} (h : e.isGood = true) : e.failureClass = none := by
  cases e with
  | callStart call ret => exact if_pos (of_decide_eq_true h)
  | appendBody bytes ret => exact if_pos (of_decide_eq_true h)
  | callRun ret httpError responseCode =>
      simp only [Event.isGood, Bool.and_eq_true, decide_eq_true_eq] at h
      simp only [Event.failureClass, h.1, h.2, if_true]
  | readAuthor result written => exact if_pos (of_decide_eq_true h)
  | readProperty result copyFailed => exact if_pos (of_decide_eq_true h)
  | tokenPathTooLong => cases h
  | pathTooLong => cases h
  | _ => rfl

theorem isInvalidResponse_of_good {e : Event} (h : e.isGood = true) :
    e.isInvalidResponse = false := by
  cases e with
  | callRun ret httpError responseCode =>
      simp only [Event.isGood, Bool.and_eq_true, decide_eq_true_eq] at h
      cases httpError with
      | invalidResponse => simp [Event.isInvalidResponse, h.1]
      | _ => rfl
  | _ => rfl

theorem isInvalidResponse_of_run_zero (httpError : HttpError) (responseCode : Int) :
    (Event.callRun 0 httpError responseCode).isInvalidResponse = false := by
  cases httpError <;> rfl

theorem isGood_of_mem_accepted {pieces : List Bytes} {e : Event} (h : e ∈ accepted pieces) :
    e.isGood = true := by
  simp only [accepted, List.mem_map] at h
  obtain ⟨p, -, rfl⟩ := h
  rfl

/-! ## Going on and giving up -/

/-- All steps since `before` went well, and the caller's record is as it was. -/
structure Going (before c : Call σ) : Prop where
  error : c.error = before.error
  appId : c.kii.appId = before.kii.appId
  log : ∃ es, c.kii.log = before.kii.log ++ es ∧ ∀ e ∈ es, e.isGood = true

/-- What the step that a call gives up at logs, and what the call does to the record. -/
inductive Ending (sdk : Sdk σ) (kii : Kii σ) (error : ErrorSlot) :
    List Event → ErrorSlot → Prop where
  | coded {e : Event} {code : ErrorCode} (hclass : e.failureClass = some code)
      (hcode : code ≠ .http) (hvalid : e.isInvalidResponse = false) :
      Ending sdk kii error [e] (error.setCode code)
  | rejected (httpError : HttpError) (h : statusOk kii.responseCode = false) :
      Ending sdk kii error [.callRun 0 httpError kii.responseCode]
        (sessionRejected sdk ⟨kii, error⟩).error
  | invalidResponse {ret : Int} (h : ret ≠ 0) (responseCode : Int) :
      Ending sdk kii error
        (.callRun ret .invalidResponse responseCode ::
          if error.record = none then [] else [.assertion]) error

/-- The steps since `before` went well up to one that the call gave up at. -/
structure GaveUp (sdk : Sdk σ) (before c : Call σ) : Prop where
  ending : ∃ es last, c.kii.log = before.kii.log ++ (es ++ last) ∧
    (∀ e ∈ es, e.isGood = true) ∧ Ending sdk c.kii before.error last c.error

section

variable {sdk : Sdk σ} {before : Call σ}

theorem Going.refl (c : Call σ) : Going c c :=
  ⟨rfl, rfl, [], (List.append_nil _).symm, by simp⟩

theorem Going.append {c c' : Call σ} (h : Going before c) (herror : c'.error = c.error)
    (happ : c'.kii.appId = c.kii.appId) {es : List Event} (hlog : c'.kii.log = c.kii.log ++ es)
    (hes : ∀ e ∈ es, e.isGood = true) : Going before c' := by
  obtain ⟨front, hfront, hgood⟩ := h.log
  refine ⟨herror.trans h.error, happ.trans h.appId, front ++ es, ?_, ?_⟩
  · rw [hlog, hfront, List.append_assoc]
  · intro e he
    rcases List.mem_append.mp he with he | he
    · exact hgood e he
    · exact hes e he

theorem Going.givesUp {c c' : Call σ} (h : Going before c) {es last : List Event}
    (hlog : c'.kii.log = c.kii.log ++ (es ++ last)) (hes : ∀ e ∈ es, e.isGood = true)
    (hend : Ending sdk c'.kii c.error last c'.error) : GaveUp sdk before c' := by
  obtain ⟨front, hfront, hgood⟩ := h.log
  refine ⟨front ++ es, last, ?_, ?_, ?_⟩
  · rw [hlog, hfront]
    simp only [List.append_assoc]
  · intro e he
    rcases List.mem_append.mp he with he | he
    · exact hgood e he
    · exact hes e he
  · rw [← h.error]
    exact hend

/-- It gives up at its next step. -/
theorem Going.givesUp_here {c c' : Call σ} (h : Going before c) {last : List Event}
    (hlog : c'.kii.log = c.kii.log ++ last)
    (hend : Ending sdk c'.kii c.error last c'.error) : GaveUp sdk before c' := by
  rw [← List.nil_append last] at hlog
  exact h.givesUp hlog (by simp) hend

/-- It gives up with the entry of a failed step, and stores its class. -/
theorem Going.codes {c : Call σ} (h : Going before c) {kii : Kii σ} {e : Event}
    {code : ErrorCode} (hlog : kii.log = c.kii.log ++ [e]) (hclass : e.failureClass = some code)
    (hcode : code ≠ .http) (hvalid : e.isInvalidResponse = false) :
    GaveUp sdk before ({ c with kii := kii }.setCode code) :=
  h.givesUp_here hlog (.coded hclass hcode hvalid)

/-! ## Stages -/

theorem ends_openStage {P : Call σ → Prop} (hgoes : ∀ c, P c → Going before c)
    {path : Kii σ → Option Bytes} {refused : Call σ → Call σ}
    (hrefused : ∀ c, P c → path c.kii = none → GaveUp sdk before (refused c))
    (httpMethod : Bytes) (contentType : Option Bytes) (setAuthenticationHeader : Bool) :
    Stage.Triple P
      (openStage sdk path refused httpMethod contentType setAuthenticationHeader
        giveUpInsufficient) (Going before) (GaveUp sdk before) := by
  constructor
  · intro c hP hend
    rcases openStage_cases sdk path refused httpMethod contentType setAuthenticationHeader
      giveUpInsufficient c with ⟨-, h⟩ | ⟨call, ret, kii, -, hlogs, ⟨-, h⟩ | ⟨rfl, h⟩⟩
    · rw [h] at hend
      cases hend
    · rw [h] at hend
      cases hend
    · rw [h]
      exact (hgoes c hP).append rfl hlogs.appId_eq hlogs.log_eq (by simp [Event.isGood])
  · intro c hP hend
    rcases openStage_cases sdk path refused httpMethod contentType setAuthenticationHeader
      giveUpInsufficient c with ⟨hpath, h⟩ | ⟨call, ret, kii, -, hlogs, ⟨hret, h⟩ | ⟨-, h⟩⟩
    · rw [h]
      exact hrefused c hP hpath
    · rw [h]
      exact (hgoes c hP).codes hlogs.log_eq (if_neg hret) (by decide) rfl
    · rw [h] at hend
      cases hend

theorem ends_bodyStage {body : Kii σ → List (Kii σ → Int × Kii σ)}
    {pieces : Kii σ → List (List Bytes)}
    (hbody : ∀ kii, List.Forall₂ (Appends sdk) (body kii) (pieces kii)) :
    Stage.Triple (Going before) (bodyStage body fun c => c.setCode .insufficientBuffer)
      (Going before) (GaveUp sdk before) := by
  constructor
  · intro c hgoing hend
    rcases bodyStage_cases hbody (fun c => c.setCode .insufficientBuffer) c with
      ⟨kii, hlogs, h⟩ | ⟨front, p, ret, kii, -, -, h⟩
    · rw [h]
      exact hgoing.append rfl hlogs.appId_eq hlogs.log_eq fun _ => isGood_of_mem_accepted
    · rw [h] at hend
      cases hend
  · intro c hgoing hend
    rcases bodyStage_cases hbody (fun c => c.setCode .insufficientBuffer) c with
      ⟨kii, -, h⟩ | ⟨front, p, ret, kii, hret, hlogs, h⟩
    · rw [h] at hend
      cases hend
    · rw [h]
      exact hgoing.givesUp hlogs.log_eq (fun _ => isGood_of_mem_accepted)
        (.coded (if_neg hret) (by decide) rfl)

/-- A session that does not run stores the class of the failure, but for one. -/
theorem Going.notRun {c : Call σ} (h : Going before c) {kii : Kii σ} {ret : Int}
    {httpError : HttpError} {responseCode : Int} (hret : ret ≠ 0)
    (hlog : kii.log = c.kii.log ++ [.callRun ret httpError responseCode])
    (herror : kii.httpError = httpError) :
    GaveUp sdk before (sessionNotRun { c with kii := kii }) := by
  have hclass : ∀ {code}, Event.failureClass (.callRun ret httpError responseCode) = some code →
      httpError ≠ .invalidResponse → code ≠ .http →
      GaveUp sdk before (({ c with kii := kii } : Call σ).setCode code) := by
    intro code hclass hvalid hcode
    refine h.codes hlog hclass hcode ?_
    cases httpError with
    | invalidResponse => exact absurd rfl hvalid
    | _ => rfl
  cases hrecord : c.error.record with
  | none =>
      -- with NULL for the record, storing a code changes nothing
      have hsame : ∀ code, ({ c with kii := kii } : Call σ).setCode code = { c with kii := kii } := by
        intro code
        simp only [Call.setCode, ErrorSlot.setCode, hrecord]
      unfold sessionNotRun
      simp only [hrecord]
      cases httpError with
      | none => exact hsame _ ▸ hclass (if_neg hret) (by simp) (by simp)
      | insufficientBuffer => exact hsame _ ▸ hclass (if_neg hret) (by simp) (by simp)
      | socket => exact hsame _ ▸ hclass (if_neg hret) (by simp) (by simp)
      | invalidResponse =>
          refine h.givesUp_here hlog ?_
          have hend : Ending sdk kii c.error _ c.error :=
            .invalidResponse hret responseCode
          rw [if_pos hrecord] at hend
          exact hend
  | some r =>
      unfold sessionNotRun
      simp only [hrecord, herror]
      cases httpError with
      | none => exact hclass (if_neg hret) (by simp) (by simp)
      | insufficientBuffer => exact hclass (if_neg hret) (by simp) (by simp)
      | socket => exact hclass (if_neg hret) (by simp) (by simp)
      | invalidResponse =>
          have hlog' : (kii.emit .assertion).log = c.kii.log ++
              ([] ++ [.callRun ret .invalidResponse responseCode, .assertion]) := by
            rw [Kii.emit_log, hlog, List.append_assoc]
            rfl
          refine h.givesUp hlog' (by simp) ?_
          · have hend : Ending sdk (kii.emit .assertion) c.error _ c.error :=
              .invalidResponse hret responseCode
            rw [if_neg (by simp [hrecord])] at hend
            exact hend

theorem sessionRejected_error (sdk : Sdk σ) (c : Call σ) :
    sessionRejected sdk c = { c with error := (sessionRejected sdk c).error } := by
  unfold sessionRejected
  split <;> rfl

theorem ends_session :
    Stage.Triple (Going before) (prvExecuteHttpSession sdk) (Going before)
      (GaveUp sdk before) := by
  constructor
  · intro c hgoing hend
    obtain ⟨ret, httpError, code, kii, hlogs, -, ⟨-, h⟩ | ⟨-, -, h⟩ | ⟨rfl, hok, h⟩⟩ :=
      session_cases sdk c
    · rw [h] at hend
      cases hend
    · rw [h] at hend
      cases hend
    · rw [h]
      exact hgoing.append rfl hlogs.appId_eq hlogs.log_eq (by simp [Event.isGood, hok])
  · intro c hgoing hend
    obtain ⟨ret, httpError, code, kii, hlogs, ⟨herror, rfl⟩, ⟨hret, h⟩ | ⟨rfl, hcode, h⟩ |
      ⟨-, -, h⟩⟩ := session_cases sdk c
    · rw [h]
      exact hgoing.notRun hret hlogs.log_eq herror
    · rw [h, sessionRejected_error]
      exact hgoing.givesUp_here hlogs.log_eq (.rejected httpError hcode)
    · rw [h] at hend
      cases hend

/-- A step that reads a response. -/
theorem ends_reading {f : Stage (Call σ)} (e : Call σ → Event) (code : Call σ → ErrorCode)
    (hgood : ∀ c, (f c).1 = true → (e c).isGood = true ∧ (f c).2.error = c.error)
    (hfailed : ∀ c, (f c).1 = false → (e c).failureClass = some (code c) ∧ code c ≠ .http ∧
      (f c).2.error = c.error.setCode (code c))
    (hvalid : ∀ c, (e c).isInvalidResponse = false)
    (happ : ∀ c, (f c).2.kii.appId = c.kii.appId)
    (hlog : ∀ c, (f c).2.kii.log = c.kii.log ++ [e c]) :
    Stage.Triple (Going before) f (Going before) (GaveUp sdk before) := by
  constructor
  · intro c hgoing hend
    obtain ⟨hok, herror⟩ := hgood c hend
    exact hgoing.append herror (happ c) (hlog c) (by simp [hok])
  · intro c hgoing hend
    obtain ⟨hclass, hcode, herror⟩ := hfailed c hend
    refine hgoing.givesUp_here (hlog c) ?_
    rw [herror]
    exact .coded hclass hcode (hvalid c)

/-- A function that reads fields into the author. -/
theorem ends_readAuthor {f : Call σ → Int × Call σ} {result : Call σ → JsonParseResult}
    {written : Call σ → Bool} {author : Call σ → Author}
    (hf : ∀ c, f c =
      let kii : Kii σ := { c.kii with author := author c }
      let c' : Call σ := { c with kii := kii.emit (.readAuthor (result c) (written c)) }
      if result c ≠ .success then (-1, c'.setCode .invalidPayload) else (0, c')) :
    Stage.Triple (Going before) (intStage f) (Going before) (GaveUp sdk before) := by
  refine ends_reading (fun c => .readAuthor (result c) (written c))
    (fun _ => .invalidPayload) ?_ ?_ (fun _ => rfl) ?_ ?_
  · intro c hend
    unfold intStage at hend ⊢
    rw [hf c] at hend ⊢
    by_cases hsuccess : result c ≠ .success
    · simp only [if_pos hsuccess] at hend
      cases hend
    · simp only [if_neg hsuccess]
      exact ⟨decide_eq_true (not_not.mp hsuccess), trivial⟩
  · intro c hend
    unfold intStage at hend ⊢
    rw [hf c] at hend ⊢
    by_cases hsuccess : result c ≠ .success
    · simp only [if_pos hsuccess]
      exact ⟨if_neg hsuccess, by decide, rfl⟩
    · simp only [if_neg hsuccess] at hend
      cases hend
  · intro c
    unfold intStage
    rw [hf c]
    simp only
    split <;> rfl
  · intro c
    unfold intStage
    rw [hf c]
    simp only
    split <;> rfl

theorem ends_readToken :
    Stage.Triple (Going before) (intStage (readToken sdk)) (Going before)
      (GaveUp sdk before) :=
  ends_readAuthor fun _ => rfl

theorem ends_readResponse :
    Stage.Triple (Going before) (intStage (prvThingIfParseOnboardingResponse sdk)) (Going before)
      (GaveUp sdk before) :=
  ends_readAuthor fun _ => rfl

theorem ends_readProperty (path : Bytes) (size : Nat) :
    Stage.Triple (Going before) (outStage (readProperty sdk path size)) (Going before)
      (GaveUp sdk before) := by
  let r : Call σ → JsonParseResult × (Nat → JsonFieldOut) := fun c =>
    prvKiiThingIfJsonReadObject sdk c.kii.responseBody [propertyField path size]
  -- The stage reads once; which code is stored depends on the field that was refused.
  have hread : ∀ c, outStage (readProperty sdk path size) c =
      let copyFailed : Bool := ((r c).2 0).result = .copyFailed
      let c' := c.emit (.readProperty (r c).1 copyFailed)
      if (r c).1 = .success then (true, c')
      else (false, c'.setCode (if copyFailed then .insufficientArgBuffer else .invalidPayload)) := by
    intro c
    unfold outStage readProperty
    by_cases hsuccess : (r c).1 = .success
    · simp only [r] at hsuccess
      simp only [hsuccess, r, ne_eq, not_true_eq_false, if_false, if_true]
    · simp only [r] at hsuccess
      simp only [hsuccess, r, ne_eq, not_false_eq_true, if_false, if_true]
      split <;> rfl
  refine ends_reading
    (fun c => .readProperty (r c).1 (((r c).2 0).result = .copyFailed))
    (fun c => if ((r c).2 0).result = .copyFailed then .insufficientArgBuffer
      else .invalidPayload) ?_ ?_ (fun _ => rfl) ?_ ?_
  · intro c hend
    rw [hread] at hend ⊢
    by_cases hsuccess : (r c).1 = .success
    · simp only [if_pos hsuccess]
      exact ⟨decide_eq_true hsuccess, rfl⟩
    · simp only [if_neg hsuccess] at hend
      cases hend
  · intro c hend
    rw [hread] at hend ⊢
    by_cases hsuccess : (r c).1 = .success
    · simp only [if_pos hsuccess] at hend
      cases hend
    · simp only [if_neg hsuccess, Event.failureClass]
      by_cases hcopy : ((r c).2 0).result = .copyFailed
      · simp only [hcopy]
        exact ⟨rfl, by decide, rfl⟩
      · simp only [hcopy]
        exact ⟨rfl, by decide, rfl⟩
  · intro c
    rw [hread]
    simp only
    split <;> rfl
  · intro c
    rw [hread]
    simp only
    split <;> rfl

/-! ## The functions of the source -/

theorem ends_token :
    Stage.Triple (Going before) (tokenStages sdk) (Going before) (GaveUp sdk before) := by
  refine Stage.Triple.andThen (ends_openStage (fun _ => id) ?_ _ _ _) (Stage.Triple.andThen
    (ends_bodyStage (tokenBody_appends sdk)) (Stage.Triple.andThen ends_session ends_readToken))
  intro c hgoing _
  have hlog : (c.kii.emit .tokenPathTooLong).log = c.kii.log ++ [.tokenPathTooLong] := rfl
  exact hgoing.codes hlog rfl (by decide) rfl

/-- Behind the body of an onboarding request. -/
theorem ends_onboardSession :
    Stage.Triple (Going before) (Stage.andThen (prvExecuteHttpSession sdk)
      (intStage (prvThingIfParseOnboardingResponse sdk))) (Going before) (GaveUp sdk before) :=
  Stage.Triple.andThen ends_session ends_readResponse

/-- `prv_onboard_with_vendor_thing_id` behind its token request, when its path is built. -/
theorem ends_vendorRequest (args : OnboardArgs)
    (hpath : prvSetOnboardResourcePath sdk.platform before.kii.appId 64 ≠ none) :
    Stage.Triple (Going before)
      ((openStage sdk (fun kii => prvSetOnboardResourcePath sdk.platform kii.appId 64) refusedPath
          (ascii "POST") (some contentTypeVendorThingId) true giveUpInsufficient).andThen
        ((bodyStage (fun _ => onboardBody sdk (ascii "vendorThingID") args)
            fun c => c.setCode .insufficientBuffer).andThen
          (Stage.andThen (prvExecuteHttpSession sdk)
            (intStage (prvThingIfParseOnboardingResponse sdk))))) (Going before)
      (GaveUp sdk before) := by
  refine Stage.Triple.andThen (ends_openStage (fun _ => id) ?_ _ _ _) (Stage.Triple.andThen
    (ends_bodyStage fun _ => onboardBody_appends sdk _ args) ends_onboardSession)
  intro c hgoing hnone
  simp only [hgoing.appId] at hnone
  exact absurd hnone hpath

theorem ends_requestProperty {setPath : PathBuilder} (path : Bytes) (size : Nat) {c : Call σ}
    (hpath : setPath c.kii.appId c.kii.author.authorId 128 ≠ none) :
    Stage.Triple (fun c' => c' = c) (outStage (requestProperty sdk setPath path size)) (Going c)
      (GaveUp sdk c) := by
  rw [outStage_requestProperty]
  refine Stage.Triple.andThen (ends_openStage ?_ ?_ _ _ _)
    (Stage.Triple.andThen ends_session (ends_readProperty path size))
  · rintro c' rfl
    exact .refl c'
  · rintro c' rfl hnone
    exact absurd hnone hpath

theorem ends_updateProperty {setPath : PathBuilder} (contentType key value : Bytes) {c : Call σ}
    (hpath : setPath c.kii.appId c.kii.author.authorId 128 ≠ none) :
    Stage.Triple (fun c' => c' = c) (updateProperty sdk setPath contentType key value) (Going c)
      (GaveUp sdk c) := by
  rw [updateProperty_eq]
  refine Stage.Triple.andThen (ends_openStage ?_ ?_ _ _ _) (Stage.Triple.andThen
    (ends_bodyStage fun _ => updateBody_appends sdk key value) ends_session)
  · rintro c' rfl
    exact .refl c'
  · rintro c' rfl hnone
    exact absurd hnone hpath

end

end ThingIfSdk
