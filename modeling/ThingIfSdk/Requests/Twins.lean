import ThingIfSdk.Requests.Replay

/-!
# Two runs side by side

The two onboarding functions send requests that differ in the content type and in
the key of the id.  `SameOutcomes` says of two runs that their steps have the same
outcomes, as long as both take steps, and `SameCalls` that two runs have gone the same
way so far.  The stages that the two functions share keep `SameCalls`, where the rest of
both runs follows one script.
-/

namespace ThingIfSdk

open ByteText JsonText Staging

variable {σ τ : Type}

/-! ## Corresponding steps -/

/-- Start calls that differ at most in the content type of onboarding requests. -/
structure SameCall (call call' : ApiCall) : Prop where
  frame : call' = { call with contentType := call'.contentType }
  contentType : call'.contentType = call.contentType ∨
    call.contentType = some contentTypeVendorThingId ∧
      call'.contentType = some contentTypeThingId

/-- Pieces of a body that differ at most as the key of the id. -/
def SamePiece (piece piece' : Bytes) : Prop :=
  piece' = piece ∨ piece = ascii "vendorThingID" ∧ piece' = ascii "thingID"

/-- The platforms and the parsers are the same, and the calls of the submodules come to
what one script says: the first one in both runs, the second one in both, and so on, as
far as each run goes. -/
structure SameOutcomes (sdk : Sdk σ) (sdk' : Sdk τ) (before after : Kii σ)
    (before' after' : Kii τ) : Prop where
  platform : sdk'.platform = sdk.platform
  json : sdk'.json = sdk.json
  script : ∃ script, results sdk before after <+: script ∧ results sdk' before' after' <+: script

/-- Entries of corresponding steps. -/
inductive SameEvent : Event → Event → Prop where
  | same (e : Event) : SameEvent e e
  | callStart {call call' : ApiCall} (h : SameCall call call') (ret : Int) :
      SameEvent (.callStart call ret) (.callStart call' ret)
  | appendBody {piece piece' : Bytes} (h : SamePiece piece piece') (ret : Int) :
      SameEvent (.appendBody piece ret) (.appendBody piece' ret)

/-- Since `base` and `base'`, the two have gone the same way. -/
structure SameKii (sdk : Sdk σ) (sdk' : Sdk τ) (base : Kii σ) (base' : Kii τ) (kii : Kii σ)
    (kii' : Kii τ) : Prop where
  appId : kii.appId = kii'.appId
  appKey : kii.appKey = kii'.appKey
  author : kii.author = kii'.author
  httpError : kii.httpError = kii'.httpError
  responseCode : kii.responseCode = kii'.responseCode
  responseBody : kii.responseBody = kii'.responseBody
  made : ∃ made, Makes sdk base kii made ∧ Makes sdk' base' kii' made
  log : ∃ es es', kii.log = base.log ++ es ∧ kii'.log = base'.log ++ es' ∧
    List.Forall₂ SameEvent es es'

/-- The same, with the callers' error records. -/
structure SameCalls (sdk : Sdk σ) (sdk' : Sdk τ) (base : Kii σ) (base' : Kii τ) (c : Call σ)
    (c' : Call τ) : Prop where
  kii : SameKii sdk sdk' base base' c.kii c'.kii
  error : c.error = c'.error

section

variable {base : Kii σ} {base' : Kii τ} {sdk : Sdk σ} {sdk' : Sdk τ} {script : List ApiResult}

/-! ## Steps -/

theorem SameCall.refl (call : ApiCall) : SameCall call call :=
  ⟨rfl, .inl rfl⟩

theorem SameKii.refl {kii : Kii σ} {kii' : Kii τ} (happ : kii.appId = kii'.appId)
    (hkey : kii.appKey = kii'.appKey) (hauthor : kii.author = kii'.author)
    (herror : kii.httpError = kii'.httpError) (hcode : kii.responseCode = kii'.responseCode)
    (hbody : kii.responseBody = kii'.responseBody) : SameKii sdk sdk' kii kii' kii kii' where
  appId := happ
  appKey := hkey
  author := hauthor
  httpError := herror
  responseCode := hcode
  responseBody := hbody
  made := ⟨[], .refl kii, .refl kii'⟩
  log := ⟨[], [], (List.append_nil _).symm, (List.append_nil _).symm, .nil⟩

/-- The log behind corresponding entries. -/
theorem SameKii.log_append {kii kii₁ : Kii σ} {kii' kii₁' : Kii τ}
    (h : SameKii sdk sdk' base base' kii kii') {e e' : Event} (he : SameEvent e e')
    (hlog : kii₁.log = kii.log ++ [e]) (hlog' : kii₁'.log = kii'.log ++ [e']) :
    ∃ es es', kii₁.log = base.log ++ es ∧ kii₁'.log = base'.log ++ es' ∧
      List.Forall₂ SameEvent es es' := by
  obtain ⟨es, es', hes, hes', hsame⟩ := h.log
  refine ⟨es ++ [e], es' ++ [e'], ?_, ?_, List.rel_append hsame (.cons he .nil)⟩
  · rw [hlog, hes, List.append_assoc]
  · rw [hlog', hes', List.append_assoc]

theorem SameKii.emit {kii : Kii σ} {kii' : Kii τ} (h : SameKii sdk sdk' base base' kii kii')
    {e : Event} (he : e.submoduleCall = none) :
    SameKii sdk sdk' base base' (kii.emit e) (kii'.emit e) := by
  obtain ⟨made, hmade, hmade'⟩ := h.made
  exact { h with
    made := ⟨_, hmade.trans (.quiet he rfl rfl), hmade'.trans (.quiet he rfl rfl)⟩
    log := h.log_append (.same e) rfl rfl }

theorem SameCalls.emit {c : Call σ} {c' : Call τ} (h : SameCalls sdk sdk' base base' c c')
    {e : Event} (he : e.submoduleCall = none) :
    SameCalls sdk sdk' base base' (c.emit e) (c'.emit e) :=
  ⟨h.kii.emit he, h.error⟩

theorem SameCalls.setCode {c : Call σ} {c' : Call τ} (h : SameCalls sdk sdk' base base' c c')
    (code : ErrorCode) : SameCalls sdk sdk' base base' (c.setCode code) (c'.setCode code) :=
  ⟨h.kii, congrArg (fun e : ErrorSlot => e.setCode code) h.error⟩

/-- The call of a start made on both. -/
theorem SameKii.apiCall {kii : Kii σ} {kii' : Kii τ} (h : SameKii sdk sdk' base base' kii kii')
    (httpMethod resourcePath : Bytes) {contentType contentType' : Option Bytes}
    (htype : contentType' = contentType ∨
      contentType = some contentTypeVendorThingId ∧ contentType' = some contentTypeThingId)
    (setAuthenticationHeader : Bool) :
    SameCall (kii.apiCall httpMethod resourcePath contentType setAuthenticationHeader)
      (kii'.apiCall httpMethod resourcePath contentType' setAuthenticationHeader) := by
  refine ⟨?_, htype⟩
  unfold Kii.apiCall
  rw [h.appId, h.appKey, h.author]

theorem SameKii.start {kii : Kii σ} {kii' : Kii τ} (h : SameKii sdk sdk' base base' kii kii')
    (httpMethod resourcePath : Bytes) {contentType contentType' : Option Bytes}
    (htype : contentType' = contentType ∨
      contentType = some contentTypeVendorThingId ∧ contentType' = some contentTypeThingId)
    (setAuthenticationHeader : Bool) :
    let r := kiiApiCallStart sdk kii httpMethod resourcePath contentType setAuthenticationHeader
    let r' := kiiApiCallStart sdk' kii' httpMethod resourcePath contentType'
      setAuthenticationHeader
    Obeys sdk script base r.2 → Obeys sdk' script base' r'.2 →
      r.1 = r'.1 ∧ SameKii sdk sdk' base base' r.2 r'.2 := by
  intro r r' hobeys hobeys'
  obtain ⟨made, hmade, hmade'⟩ := h.made
  have hstart := hmade.trans (makes_start kii httpMethod resourcePath contentType
    setAuthenticationHeader)
  have hstart' := hmade'.trans (makes_start kii' httpMethod resourcePath contentType'
    setAuthenticationHeader)
  have hret : r.1 = r'.1 :=
    ApiResult.started.inj (next_eq (hobeys _ hstart) (hobeys' _ hstart'))
  have hcall := h.apiCall httpMethod resourcePath htype setAuthenticationHeader
  refine ⟨hret, ?_⟩
  exact
    { appId := h.appId
      appKey := h.appKey
      author := h.author
      httpError := h.httpError
      responseCode := h.responseCode
      responseBody := h.responseBody
      made := ⟨_, hstart, by rw [show (kiiApiCallStart sdk kii httpMethod resourcePath
        contentType setAuthenticationHeader).1 = _ from hret]; exact hstart'⟩
      log := h.log_append (.callStart hcall r.1) rfl (by rw [hret]; rfl) }

theorem SameKii.append {kii : Kii σ} {kii' : Kii τ} (h : SameKii sdk sdk' base base' kii kii')
    {piece piece' : Bytes} (hpiece : SamePiece piece piece') :
    let r := kiiApiCallAppendBody sdk piece kii
    let r' := kiiApiCallAppendBody sdk' piece' kii'
    Obeys sdk script base r.2 → Obeys sdk' script base' r'.2 →
      r.1 = r'.1 ∧ SameKii sdk sdk' base base' r.2 r'.2 := by
  intro r r' hobeys hobeys'
  obtain ⟨made, hmade, hmade'⟩ := h.made
  have happend := hmade.trans (makes_append piece kii)
  have happend' := hmade'.trans (makes_append piece' kii')
  have hret : r.1 = r'.1 :=
    ApiResult.appended.inj (next_eq (hobeys _ happend) (hobeys' _ happend'))
  refine ⟨hret, ?_⟩
  exact
    { appId := h.appId
      appKey := h.appKey
      author := h.author
      httpError := h.httpError
      responseCode := h.responseCode
      responseBody := h.responseBody
      made := ⟨_, happend, by rw [show (kiiApiCallAppendBody sdk piece kii).1 = _ from hret]
                              exact happend'⟩
      log := h.log_append (.appendBody hpiece r.1) rfl (by rw [hret]; rfl) }

/-- Corresponding bodies go equally far. -/
theorem SameKii.appendPieces {pieces pieces' : List Bytes}
    (hpieces : List.Forall₂ SamePiece pieces pieces') {kii : Kii σ} {kii' : Kii τ}
    (h : SameKii sdk sdk' base base' kii kii') :
    let r := ThingIfSdk.appendPieces sdk pieces kii
    let r' := ThingIfSdk.appendPieces sdk' pieces' kii'
    Obeys sdk script base r.2 → Obeys sdk' script base' r'.2 →
      r.1 = r'.1 ∧ SameKii sdk sdk' base base' r.2 r'.2 := by
  induction hpieces generalizing kii kii' with
  | nil => exact fun _ _ => ⟨rfl, h⟩
  | @cons piece piece' pieces pieces' hpiece _ ih =>
      -- the first append has obeyed, whatever the others come to
      have hfirst : ∀ {υ : Type} {sdk : Sdk υ} {base kii : Kii υ} {piece : Bytes}
          {pieces : List Bytes},
          Obeys sdk script base (ThingIfSdk.appendPieces sdk (piece :: pieces) kii).2 →
            Obeys sdk script base (kiiApiCallAppendBody sdk piece kii).2 := by
        intro υ sdk base kii piece pieces hobeys
        rw [appendPieces_cons] at hobeys
        split at hobeys
        · exact hobeys
        · obtain ⟨made, hmade⟩ := makes_appendPieces pieces (kiiApiCallAppendBody sdk piece kii).2
          exact hobeys.back hmade
      intro r r' hobeys hobeys'
      obtain ⟨hret, hkept⟩ := h.append hpiece (hfirst hobeys) (hfirst hobeys')
      simp only [r, r', appendPieces_cons] at hobeys hobeys' ⊢
      rw [hret] at hobeys ⊢
      by_cases hrefused : (kiiApiCallAppendBody sdk' piece' kii').1 ≠ 0
      · rw [if_pos hrefused, if_pos hrefused]
        exact ⟨rfl, hkept⟩
      · rw [if_neg hrefused] at hobeys hobeys' ⊢
        rw [if_neg hrefused]
        exact ih hkept hobeys hobeys'

theorem SameKii.run {kii : Kii σ} {kii' : Kii τ} (h : SameKii sdk sdk' base base' kii kii') :
    let r := kiiApiCallRun sdk kii
    let r' := kiiApiCallRun sdk' kii'
    Obeys sdk script base r.2 → Obeys sdk' script base' r'.2 →
      r.1 = r'.1 ∧ SameKii sdk sdk' base base' r.2 r'.2 := by
  intro r r' hobeys hobeys'
  obtain ⟨made, hmade, hmade'⟩ := h.made
  have hrun := hmade.trans (makes_run kii)
  have hrun' := hmade'.trans (makes_run kii')
  have hnext := next_eq (hobeys _ hrun) (hobeys' _ hrun')
  obtain ⟨hret, herror, hcode, hbody⟩ := ApiResult.ran.inj hnext
  refine ⟨hret, ?_⟩
  exact
    { appId := h.appId
      appKey := h.appKey
      author := h.author
      httpError := herror
      responseCode := hcode
      responseBody := hbody
      made := ⟨_, hrun, hnext ▸ hrun'⟩
      log := h.log_append (.same (.callRun r.1 r.2.httpError r.2.responseCode)) rfl
        (by rw [hret, herror, hcode]; rfl) }

/-! ## Stages -/

theorem related_openStage {path : Kii σ → Option Bytes} {path' : Kii τ → Option Bytes}
    (hpath : ∀ kii kii', SameKii sdk sdk' base base' kii kii' → path kii = path' kii')
    {refused : Call σ → Call σ} {refused' : Call τ → Call τ}
    (hrefused : ∀ c c', SameCalls sdk sdk' base base' c c' →
      SameCalls sdk sdk' base base' (refused c) (refused' c'))
    (httpMethod : Bytes) {contentType contentType' : Option Bytes}
    (htype : contentType' = contentType ∨
      contentType = some contentTypeVendorThingId ∧ contentType' = some contentTypeThingId)
    (setAuthenticationHeader : Bool) :
    Stage.Related (fun c => Obeys sdk script base c.kii) (fun c => Obeys sdk' script base' c.kii)
      (SameCalls sdk sdk' base base')
      (openStage sdk path refused httpMethod contentType setAuthenticationHeader
        giveUpInsufficient)
      (openStage sdk' path' refused' httpMethod contentType' setAuthenticationHeader
        giveUpInsufficient) := by
  intro c c' h hobeys hobeys'
  unfold openStage at *
  rw [hpath _ _ h.kii] at hobeys ⊢
  cases hsome : path' c'.kii with
  | none =>
      simp only
      exact ⟨trivial, hrefused c c' h⟩
  | some resourcePath =>
      simp only [hsome, giveUpInsufficient] at hobeys hobeys' ⊢
      -- The script speaks of the start whether or not the stage goes on behind it.
      have hstarted : Obeys sdk script base (kiiApiCallStart sdk c.kii httpMethod resourcePath
          contentType setAuthenticationHeader).2 := by
        split at hobeys <;> exact hobeys
      have hstarted' : Obeys sdk' script base' (kiiApiCallStart sdk' c'.kii httpMethod
          resourcePath contentType' setAuthenticationHeader).2 := by
        split at hobeys' <;> exact hobeys'
      obtain ⟨hret, hkept⟩ := h.kii.start httpMethod resourcePath htype setAuthenticationHeader
        hstarted hstarted'
      rw [hret]
      have hcalls : SameCalls sdk sdk' base base'
          { c with kii := (kiiApiCallStart sdk c.kii httpMethod resourcePath contentType
            setAuthenticationHeader).2 }
          { c' with kii := (kiiApiCallStart sdk' c'.kii httpMethod resourcePath contentType'
            setAuthenticationHeader).2 } := ⟨hkept, h.error⟩
      split
      · exact ⟨rfl, hcalls.setCode _⟩
      · exact ⟨rfl, hcalls⟩

/-- The appends of two bodies, up to where they stop. -/
theorem SameKii.body {kii : Kii σ} {kii' : Kii τ} (h : SameKii sdk sdk' base base' kii kii')
    {body : List (Kii σ → Int × Kii σ)} {body' : List (Kii τ → Int × Kii τ)}
    {pieces pieces' : List (List Bytes)} (hbody : List.Forall₂ (Appends sdk) body pieces)
    (hbody' : List.Forall₂ (Appends sdk') body' pieces')
    (hpieces : List.Forall₂ SamePiece pieces.flatten pieces'.flatten)
    (hobeys : Obeys sdk script base (anyFails body kii).2)
    (hobeys' : Obeys sdk' script base' (anyFails body' kii').2) :
    (anyFails body kii).1 = (anyFails body' kii').1 ∧
      SameKii sdk sdk' base base' (anyFails body kii).2 (anyFails body' kii').2 := by
  rw [anyFails_appends hbody] at hobeys ⊢
  rw [anyFails_appends hbody'] at hobeys' ⊢
  exact h.appendPieces hpieces hobeys hobeys'

/-- Behind a body it does not matter for the submodule whether the caller gives up. -/
theorem obeys_bodyStage {υ : Type} {sdk : Sdk υ} {base : Kii υ}
    {body : Kii υ → List (Kii υ → Int × Kii υ)} (failed : Call υ → Call υ)
    (hfailed : ∀ c, (failed c).kii = c.kii) {c : Call υ}
    (h : Obeys sdk script base (bodyStage body failed c).2.kii) :
    Obeys sdk script base (anyFails (body c.kii) c.kii).2 := by
  unfold bodyStage at h
  simp only at h
  split at h
  · rwa [hfailed] at h
  · exact h

theorem related_bodyStage {body : Kii σ → List (Kii σ → Int × Kii σ)}
    {body' : Kii τ → List (Kii τ → Int × Kii τ)} {pieces : Kii σ → List (List Bytes)}
    {pieces' : Kii τ → List (List Bytes)}
    (hbody : ∀ kii, List.Forall₂ (Appends sdk) (body kii) (pieces kii))
    (hbody' : ∀ kii, List.Forall₂ (Appends sdk') (body' kii) (pieces' kii))
    (hpieces : ∀ kii kii', SameKii sdk sdk' base base' kii kii' →
      List.Forall₂ SamePiece (pieces kii).flatten (pieces' kii').flatten) :
    Stage.Related (fun c => Obeys sdk script base c.kii) (fun c => Obeys sdk' script base' c.kii)
      (SameCalls sdk sdk' base base')
      (bodyStage body fun c => c.setCode .insufficientBuffer)
      (bodyStage body' fun c => c.setCode .insufficientBuffer) := by
  intro c c' h hobeys hobeys'
  obtain ⟨hfails, hkept⟩ := h.kii.body (hbody c.kii) (hbody' c'.kii) (hpieces _ _ h.kii)
    (obeys_bodyStage (fun c => c.setCode .insufficientBuffer) (fun _ => rfl) hobeys)
    (obeys_bodyStage (fun c => c.setCode .insufficientBuffer) (fun _ => rfl) hobeys')
  unfold bodyStage
  simp only
  rw [hfails]
  have hcalls : SameCalls sdk sdk' base base' { c with kii := (anyFails (body c.kii) c.kii).2 }
      { c' with kii := (anyFails (body' c'.kii) c'.kii).2 } := ⟨hkept, h.error⟩
  split
  · exact ⟨rfl, hcalls.setCode _⟩
  · exact ⟨rfl, hcalls⟩

theorem SameCalls.sessionNotRun {c : Call σ} {c' : Call τ}
    (h : SameCalls sdk sdk' base base' c c') :
    SameCalls sdk sdk' base base' (ThingIfSdk.sessionNotRun c) (ThingIfSdk.sessionNotRun c') := by
  unfold ThingIfSdk.sessionNotRun
  rw [h.error, h.kii.httpError]
  cases c'.error.record with
  | none => exact h
  | some r =>
      cases c'.kii.httpError with
      | none => exact h.setCode _
      | insufficientBuffer => exact h.setCode _
      | socket => exact h.setCode _
      | invalidResponse => exact h.emit rfl

theorem SameCalls.sessionRejected (hjson : sdk'.json = sdk.json) {c : Call σ} {c' : Call τ}
    (h : SameCalls sdk sdk' base base' c c') :
    SameCalls sdk sdk' base base' (ThingIfSdk.sessionRejected sdk c)
      (ThingIfSdk.sessionRejected sdk' c') := by
  unfold ThingIfSdk.sessionRejected prvKiiThingIfJsonReadObject
  rw [h.error, h.kii.responseBody, h.kii.responseCode, hjson]
  cases c'.error.record with
  | none => exact h
  | some r => exact ⟨h.kii, rfl⟩

theorem related_session (hjson : sdk'.json = sdk.json) :
    Stage.Related (fun c => Obeys sdk script base c.kii) (fun c => Obeys sdk' script base' c.kii)
      (SameCalls sdk sdk' base base') (prvExecuteHttpSession sdk) (prvExecuteHttpSession sdk') := by
  intro c c' h hobeys hobeys'
  obtain ⟨hret, hkept⟩ := h.kii.run (hobeys.back (makes_session c))
    (hobeys'.back (makes_session c'))
  have hcalls : SameCalls sdk sdk' base base' { c with kii := (kiiApiCallRun sdk c.kii).2 }
      { c' with kii := (kiiApiCallRun sdk' c'.kii).2 } := ⟨hkept, h.error⟩
  unfold prvExecuteHttpSession
  simp only
  rw [hret, hkept.responseCode]
  split_ifs
  · exact ⟨rfl, hcalls.sessionNotRun⟩
  · exact ⟨rfl, hcalls⟩
  · exact ⟨rfl, hcalls.sessionRejected hjson⟩

/-- A response is read into both authors alike. -/
theorem SameCalls.readAuthor {c : Call σ} {c' : Call τ} (h : SameCalls sdk sdk' base base' c c')
    (authorId accessToken : Option Bytes) (result : JsonParseResult) (written : Bool) :
    SameCalls sdk sdk' base base'
      { c with kii := ({ c.kii with author := c.kii.author.overwrite authorId accessToken } :
          Kii σ).emit (.readAuthor result written) }
      { c' with kii := ({ c'.kii with author := c'.kii.author.overwrite authorId accessToken } :
          Kii τ).emit (.readAuthor result written) } := by
  have hkept : SameKii sdk sdk' base base'
      { c.kii with author := c.kii.author.overwrite authorId accessToken }
      { c'.kii with author := c'.kii.author.overwrite authorId accessToken } := by
    obtain ⟨made, hmade, hmade'⟩ := h.kii.made
    exact { h.kii with
      author := by rw [h.kii.author]
      made := ⟨made, ⟨hmade.calls⟩, ⟨hmade'.calls⟩⟩ }
  exact ⟨hkept.emit rfl, h.error⟩

theorem related_readToken (hjson : sdk'.json = sdk.json) (hplatform : sdk'.platform = sdk.platform) :
    Stage.Related (fun c => Obeys sdk script base c.kii) (fun c => Obeys sdk' script base' c.kii)
      (SameCalls sdk sdk' base base') (intStage (readToken sdk)) (intStage (readToken sdk')) := by
  intro c c' h _ _
  have hread : sdk.json.kiiJsonReadObject c.kii.responseBody [tokenField sdk.platform] =
      sdk'.json.kiiJsonReadObject c'.kii.responseBody [tokenField sdk'.platform] := by
    rw [h.kii.responseBody, hjson, hplatform]
  unfold intStage readToken prvKiiThingIfJsonReadObject
  simp only [hread]
  split
  · exact ⟨rfl, (h.readAuthor _ _ _ _).setCode _⟩
  · exact ⟨rfl, h.readAuthor _ _ _ _⟩

theorem related_readResponse (hjson : sdk'.json = sdk.json)
    (hplatform : sdk'.platform = sdk.platform) :
    Stage.Related (fun c => Obeys sdk script base c.kii) (fun c => Obeys sdk' script base' c.kii)
      (SameCalls sdk sdk' base base') (intStage (prvThingIfParseOnboardingResponse sdk))
      (intStage (prvThingIfParseOnboardingResponse sdk')) := by
  intro c c' h _ _
  have hread : sdk.json.kiiJsonReadObject c.kii.responseBody
      [thingIdField sdk.platform, accessTokenField sdk.platform] =
        sdk'.json.kiiJsonReadObject c'.kii.responseBody
          [thingIdField sdk'.platform, accessTokenField sdk'.platform] := by
    rw [h.kii.responseBody, hjson, hplatform]
  unfold intStage prvThingIfParseOnboardingResponse prvKiiThingIfJsonReadObject
  simp only [hread]
  split
  · exact ⟨rfl, (h.readAuthor _ _ _ _).setCode _⟩
  · exact ⟨rfl, h.readAuthor _ _ _ _⟩

theorem samePieces_refl (pieces : List Bytes) : List.Forall₂ SamePiece pieces pieces :=
  List.forall₂_same.mpr fun _ _ => .inl rfl

/-- The token request goes the same way on both. -/
theorem related_tokenStages (hjson : sdk'.json = sdk.json)
    (hplatform : sdk'.platform = sdk.platform) :
    Stage.Related (fun c => Obeys sdk script base c.kii) (fun c => Obeys sdk' script base' c.kii)
      (SameCalls sdk sdk' base base') (tokenStages sdk) (tokenStages sdk') := by
  have hopen : Stage.Related (fun c => Obeys sdk script base c.kii)
      (fun c => Obeys sdk' script base' c.kii) (SameCalls sdk sdk' base base')
      (openStage sdk (tokenPath sdk) (fun c => (c.emit .tokenPathTooLong).setCode
        .insufficientBuffer) (ascii "POST") (some contentTypeJson) false giveUpInsufficient)
      (openStage sdk' (tokenPath sdk') (fun c => (c.emit .tokenPathTooLong).setCode
        .insufficientBuffer) (ascii "POST") (some contentTypeJson) false giveUpInsufficient) := by
    refine related_openStage ?_ ?_ _ (.inl rfl) _
    · intro kii kii' h
      unfold tokenPath
      rw [h.appId, hplatform]
    · exact fun c c' h => (h.emit rfl).setCode _
  have hfill : Stage.Related (fun c => Obeys sdk script base c.kii)
      (fun c => Obeys sdk' script base' c.kii) (SameCalls sdk sdk' base base')
      (bodyStage (tokenBody sdk) fun c => c.setCode .insufficientBuffer)
      (bodyStage (tokenBody sdk') fun c => c.setCode .insufficientBuffer) := by
    refine related_bodyStage (tokenBody_appends sdk) (tokenBody_appends sdk') ?_
    intro kii kii' h
    unfold tokenPieces
    rw [h.appId, h.appKey]
    exact samePieces_refl _
  exact hopen.andThen
    (hfill.andThen ((related_session hjson).andThen (related_readToken hjson hplatform)
        makesCalls_readToken.reflects makesCalls_readToken.reflects)
      (makesCalls_tokenSession sdk).reflects (makesCalls_tokenSession sdk').reflects)
    (makesCalls_tokenBody sdk).reflects (makesCalls_tokenBody sdk').reflects

/-- The bodies of the two onboarding requests correspond. -/
theorem samePieces_onboard (args : OnboardArgs) :
    List.Forall₂ SamePiece (onboardPieces (ascii "vendorThingID") args).flatten
      (onboardPieces (ascii "thingID") args).flatten := by
  have hkey : List.Forall₂ SamePiece (memberPieces (ascii "vendorThingID") args.id false true)
      (memberPieces (ascii "thingID") args.id false true) :=
    .cons (.inl rfl) (.cons (.inr ⟨rfl, rfl⟩) (samePieces_refl _))
  have htail := samePieces_refl
    (memberPieces (ascii "thingPassword") args.password true true ++
      (optionalPieces (ascii "thingType") args.thingType true true ++
        (optionalPieces (ascii "thingProperties") args.thingProperties true false ++
          (optionalPieces (ascii "firmwareVersion") args.firmwareVersion true true ++
            (optionalPieces (ascii "layoutPosition") args.layoutPosition true true ++
              [closeBrace])))))
  exact .cons (.inl rfl) (List.rel_append hkey htail)

end

end ThingIfSdk
