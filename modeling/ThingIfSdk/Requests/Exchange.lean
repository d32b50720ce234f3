import ThingIfSdk.Requests.Bodies

/-!
# Exchanges

A POST request of the onboarding functions from its start to a good response.
`Answered` says of a request that it is built, run and answered with a status in
200..299; `exchange_goesOn_iff` says that the stages of a request go on exactly
then, and `exchange_log` lists what they log when they do not.
-/

namespace ThingIfSdk

open ByteText JsonText Staging

variable {σ : Type}

/-- A request: where it goes, how, and with which body. -/
structure PostRequest where
  resourcePath : Bytes
  contentType : Bytes
  authenticated : Bool
  pieces : List Bytes

/-- The arguments of its start call. -/
def PostRequest.call (r : PostRequest) (kii : Kii σ) : ApiCall :=
  kii.apiCall (ascii "POST") r.resourcePath (some r.contentType) r.authenticated

/-- Start the request. -/
def PostRequest.start (r : PostRequest) (sdk : Sdk σ) (kii : Kii σ) : Int × Kii σ :=
  kiiApiCallStart sdk kii (ascii "POST") r.resourcePath (some r.contentType) r.authenticated

/-- Between `before` and `after` the request is built, run and answered with a
status in 200..299. -/
structure Answered (sdk : Sdk σ) (r : PostRequest) (before after : Kii σ) : Prop where
  started : (r.start sdk before).1 = 0
  built : (appendPieces sdk r.pieces (r.start sdk before).2).1 = false
  ran : (kiiApiCallRun sdk (appendPieces sdk r.pieces (r.start sdk before).2).2).1 = 0
  after_eq : after = (kiiApiCallRun sdk (appendPieces sdk r.pieces (r.start sdk before).2).2).2
  status : statusOk after.responseCode = true

/-- The outcome of a request is determined by where it starts. -/
theorem Answered.unique {sdk : Sdk σ} {r : PostRequest} {before after after' : Kii σ}
    (h : Answered sdk r before after) (h' : Answered sdk r before after') : after' = after := by
  rw [h.after_eq, h'.after_eq]

/-- A good exchange leaves the identity as it is. -/
theorem Answered.logs {sdk : Sdk σ} {r : PostRequest} {before after : Kii σ}
    (h : Answered sdk r before after) :
    ∃ httpError code, statusOk code = true ∧ after.appKey = before.appKey ∧
      before.Logs after (.callStart (r.call before) 0 ::
        (accepted r.pieces ++ [.callRun 0 httpError code])) := by
  have hstart := adds_start sdk before (ascii "POST") r.resourcePath (some r.contentType)
    r.authenticated
  have hbody := (appendPieces_effect sdk r.pieces (r.start sdk before).2).done h.built
  have hrun := kiiApiCallRun_log sdk (appendPieces sdk r.pieces (r.start sdk before).2).2
  have hzero := h.started
  unfold PostRequest.start at hzero
  rw [hzero] at hstart
  rw [h.ran, ← h.after_eq] at hrun
  have hadds := hstart.trans hbody
  refine ⟨after.httpError, after.responseCode, h.status, ?_, ?_, ?_, ?_⟩
  · rw [h.after_eq]
    show (appendPieces sdk r.pieces (r.start sdk before).2).2.appKey = before.appKey
    rw [hbody.frame]
    rfl
  · rw [h.after_eq]
    exact hadds.appId_eq
  · rw [h.after_eq]
    exact hadds.author_eq
  · rw [hrun, hadds.log_eq, List.append_assoc]
    rfl

/-! ## The stages of a request -/

/-- Open a request, fill its body and run it. -/
def exchange (sdk : Sdk σ) (path : Kii σ → Option Bytes) (refused : Call σ → Call σ)
    (contentType : Bytes) (authenticated : Bool)
    (body : Kii σ → List (Kii σ → Int × Kii σ)) : Stage (Call σ) :=
  (openStage sdk path refused (ascii "POST") (some contentType) authenticated
      giveUpInsufficient).andThen
    ((bodyStage body fun c => c.setCode .insufficientBuffer).andThen (prvExecuteHttpSession sdk))

section

variable {sdk : Sdk σ} {path : Kii σ → Option Bytes} {refused : Call σ → Call σ}
  {body : Kii σ → List (Kii σ → Int × Kii σ)} {pieces : Kii σ → List (List Bytes)}
  (hbody : ∀ kii, List.Forall₂ (Appends sdk) (body kii) (pieces kii))
  (hpieces : ∀ (kii : Kii σ) httpMethod resourcePath contentType authenticated,
    pieces (kiiApiCallStart sdk kii httpMethod resourcePath contentType authenticated).2 =
      pieces kii)

theorem openStage_started {c : Call σ} {r : PostRequest} (hpath : path c.kii = some r.resourcePath)
    (hstart : (r.start sdk c.kii).1 = 0) :
    openStage sdk path refused (ascii "POST") (some r.contentType) r.authenticated
        giveUpInsufficient c = (true, { c with kii := (r.start sdk c.kii).2 }) := by
  unfold openStage
  simp only [hpath]
  exact if_neg (not_not.mpr hstart)

include hbody hpieces

/-- The body stage behind the start of a request, by the pieces it appends. -/
theorem bodyStage_started (c : Call σ) {r : PostRequest} (hr : r.pieces = (pieces c.kii).flatten)
    (failed : Call σ → Call σ) :
    bodyStage body failed { c with kii := (r.start sdk c.kii).2 } =
      if (appendPieces sdk r.pieces (r.start sdk c.kii).2).1 then
        (false, failed { c with kii := (appendPieces sdk r.pieces (r.start sdk c.kii).2).2 })
      else (true, { c with kii := (appendPieces sdk r.pieces (r.start sdk c.kii).2).2 }) := by
  have hfill := anyFails_appends (hbody (r.start sdk c.kii).2) (r.start sdk c.kii).2
  have hsame : pieces (r.start sdk c.kii).2 = pieces c.kii := hpieces c.kii _ _ _ _
  rw [hsame, ← hr] at hfill
  unfold bodyStage
  simp only [hfill]

/-- A request that is started and built is run. -/
theorem exchange_of_built {c : Call σ} {r : PostRequest}
    (hpath : path c.kii = some r.resourcePath) (hr : r.pieces = (pieces c.kii).flatten)
    (hstarted : (r.start sdk c.kii).1 = 0)
    (hbuilt : (appendPieces sdk r.pieces (r.start sdk c.kii).2).1 = false) :
    exchange sdk path refused r.contentType r.authenticated body c =
      prvExecuteHttpSession sdk
        { c with kii := (appendPieces sdk r.pieces (r.start sdk c.kii).2).2 } := by
  have hfill := bodyStage_started hbody hpieces c hr fun c => c.setCode .insufficientBuffer
  rw [hbuilt, if_neg Bool.false_ne_true] at hfill
  rw [exchange, Stage.andThen_of_goesOn (openStage_started hpath hstarted),
    Stage.andThen_of_goesOn hfill]

/-- An answered request goes through. -/
theorem exchange_of_answered {c : Call σ} {r : PostRequest} {kii : Kii σ}
    (hpath : path c.kii = some r.resourcePath) (hr : r.pieces = (pieces c.kii).flatten)
    (h : Answered sdk r c.kii kii) :
    exchange sdk path refused r.contentType r.authenticated body c =
      (true, { c with kii := kii }) := by
  obtain ⟨hstarted, hbuilt, hran, rfl, hok⟩ := h
  rw [exchange_of_built hbody hpieces hpath hr hstarted hbuilt]
  unfold prvExecuteHttpSession
  simp only
  rw [if_neg (not_not.mpr hran), if_pos hok]

/-- The stages go on only with an answered request. -/
theorem answered_of_exchange {c : Call σ} {contentType : Bytes} {authenticated : Bool}
    (h : (exchange sdk path refused contentType authenticated body c).1 = true) :
    ∃ resourcePath kii, path c.kii = some resourcePath ∧
      Answered sdk ⟨resourcePath, contentType, authenticated, (pieces c.kii).flatten⟩ c.kii kii ∧
      exchange sdk path refused contentType authenticated body c =
        (true, { c with kii := kii }) := by
  cases hpath : path c.kii with
  | none =>
      unfold exchange Stage.andThen openStage at h
      simp [hpath] at h
  | some resourcePath =>
      obtain ⟨r, hr⟩ : ∃ r : PostRequest, r =
        ⟨resourcePath, contentType, authenticated, (pieces c.kii).flatten⟩ := ⟨_, rfl⟩
      have hpath' : path c.kii = some r.resourcePath := by rw [hpath, hr]
      have hpieces' : r.pieces = (pieces c.kii).flatten := by rw [hr]
      have htype : contentType = r.contentType := by rw [hr]
      have hauth : authenticated = r.authenticated := by rw [hr]
      rw [htype, hauth] at h ⊢
      obtain ⟨kii, hanswered⟩ : ∃ kii, Answered sdk r c.kii kii := by
        have hstarted : (r.start sdk c.kii).1 = 0 := by
          by_contra hne
          unfold PostRequest.start at hne
          unfold exchange Stage.andThen openStage giveUpInsufficient at h
          simp [hpath', hne] at h
        have hfill := bodyStage_started hbody hpieces c hpieces'
          fun c => c.setCode .insufficientBuffer
        rw [exchange, Stage.andThen_of_goesOn (openStage_started hpath' hstarted)] at h
        cases hbuilt : (appendPieces sdk r.pieces (r.start sdk c.kii).2).1 with
        | true =>
            rw [hbuilt, if_pos rfl] at hfill
            rw [Stage.andThen_of_givesUp hfill] at h
            cases h
        | false =>
            rw [hbuilt, if_neg Bool.false_ne_true] at hfill
            rw [Stage.andThen_of_goesOn hfill] at h
            unfold prvExecuteHttpSession at h
            simp only at h
            split at h
            · cases h
            · rename_i hran
              split at h
              · rename_i hok
                exact ⟨_, hstarted, hbuilt, not_not.mp hran, rfl, hok⟩
              · cases h
      refine ⟨resourcePath, kii, rfl, ?_, exchange_of_answered hbody hpieces hpath' hpieces'
        hanswered⟩
      rw [← htype, ← hauth, ← hr]
      exact hanswered

end

/-! ## What is logged -/

/-- The entry neither starts nor runs a request. -/
def Event.isPassive : Event → Bool
  | .callStart .. => false
  | .callRun .. => false
  | _ => true

/-- What the stages of a request log behind its path, and whether they go on. -/
inductive ExchangeLog (call : ApiCall) (pieces : List Bytes) : Bool → List Event → Prop where
  | notStarted {ret : Int} (h : ret ≠ 0) : ExchangeLog call pieces false [.callStart call ret]
  | notBuilt (front : List Bytes) (p : Bytes) {ret : Int} (h : ret ≠ 0) :
      ExchangeLog call pieces false
        (.callStart call 0 :: (accepted front ++ [.appendBody p ret]))
  | notRun {ret : Int} (h : ret ≠ 0) (httpError : HttpError) (code : Int) {es : List Event}
      (hes : ∀ e ∈ es, e.isPassive = true) :
      ExchangeLog call pieces false
        (.callStart call 0 :: (accepted pieces ++ .callRun ret httpError code :: es))
  | rejected (httpError : HttpError) {code : Int} (h : statusOk code = false) :
      ExchangeLog call pieces false
        (.callStart call 0 :: (accepted pieces ++ [.callRun 0 httpError code]))
  | answered (httpError : HttpError) {code : Int} (h : statusOk code = true) :
      ExchangeLog call pieces true
        (.callStart call 0 :: (accepted pieces ++ [.callRun 0 httpError code]))

theorem passive_sessionNotRun (c : Call σ) :
    ∃ es, (sessionNotRun c).kii.log = c.kii.log ++ es ∧ ∀ e ∈ es, e.isPassive = true := by
  unfold sessionNotRun
  split
  · exact ⟨[], (List.append_nil _).symm, by simp⟩
  · split
    · exact ⟨[], (List.append_nil _).symm, by simp⟩
    · exact ⟨[], (List.append_nil _).symm, by simp⟩
    · exact ⟨[], (List.append_nil _).symm, by simp⟩
    · exact ⟨[.assertion], rfl, by simp [Event.isPassive]⟩

theorem exchange_log {sdk : Sdk σ} {path : Kii σ → Option Bytes} {refused : Call σ → Call σ}
    (hrefused : ∀ c, ∃ es, (refused c).kii.log = c.kii.log ++ es ∧ ∀ e ∈ es, e.isPassive = true)
    {body : Kii σ → List (Kii σ → Int × Kii σ)} {pieces : Kii σ → List (List Bytes)}
    (hbody : ∀ kii, List.Forall₂ (Appends sdk) (body kii) (pieces kii))
    (contentType : Bytes) (authenticated : Bool) (c : Call σ) :
    let r := exchange sdk path refused contentType authenticated body c
    ∃ es, r.2.kii.log = c.kii.log ++ es ∧
      ((r.1 = false ∧ ∀ e ∈ es, e.isPassive = true) ∨
        ∃ resourcePath ps, path c.kii = some resourcePath ∧
          ExchangeLog (c.kii.apiCall (ascii "POST") resourcePath (some contentType) authenticated)
            ps r.1 es) := by
  intro r
  rcases openStage_cases sdk path refused (ascii "POST") (some contentType) authenticated
    giveUpInsufficient c with ⟨-, h⟩ | ⟨resourcePath, ret, kii, hpath, hlogs, ⟨hret, h⟩ | ⟨rfl, h⟩⟩
  -- No path, a start that fails, or a body to send.
  · obtain ⟨es, hlog, hes⟩ := hrefused c
    have hr : r = (false, refused c) := Stage.andThen_of_givesUp h _
    rw [hr]
    exact ⟨es, hlog, .inl ⟨rfl, hes⟩⟩
  · have hr : r = (false, ({ c with kii := kii } : Call σ).setCode .insufficientBuffer) :=
      Stage.andThen_of_givesUp h _
    rw [hr]
    exact ⟨_, hlogs.log_eq, .inr ⟨resourcePath, [], hpath, .notStarted hret⟩⟩
  · have hr : r = _ := Stage.andThen_of_goesOn h _
    rcases bodyStage_cases hbody (fun c => c.setCode .insufficientBuffer) { c with kii := kii } with
      ⟨kii', hlogs', h'⟩ | ⟨front, p, ret, kii', hret, hlogs', h'⟩
    · rw [Stage.andThen_of_goesOn h'] at hr
      obtain ⟨ret, httpError, code, kii'', hlogs'', -, hcases⟩ := session_cases sdk { c with kii := kii' }
      -- What is behind the log at the answer depends on the answer only.
      have hlog : kii''.log = c.kii.log ++ (.callStart (c.kii.apiCall (ascii "POST") resourcePath
          (some contentType) authenticated) 0 :: (accepted (pieces kii).flatten ++
            [.callRun ret httpError code])) := by
        rw [hlogs''.log_eq, hlogs'.log_eq, hlogs.log_eq]
        simp only [List.append_assoc]
        rfl
      rcases hcases with ⟨hret, h''⟩ | ⟨rfl, hcode, h''⟩ | ⟨rfl, hcode, h''⟩
      · rw [hr, h'']
        obtain ⟨es, htail, hes⟩ := passive_sessionNotRun { c with kii := kii'' }
        refine ⟨_, ?_, .inr ⟨resourcePath, (pieces kii).flatten, hpath,
          .notRun hret httpError code hes⟩⟩
        rw [htail]
        simp only [hlog, List.append_assoc, List.cons_append, List.nil_append]
      · rw [hr, h'']
        refine ⟨_, ?_, .inr ⟨resourcePath, (pieces kii).flatten, hpath, .rejected httpError hcode⟩⟩
        have hkii : (sessionRejected sdk { c with kii := kii'' }).kii = kii'' := by
          unfold sessionRejected
          split <;> rfl
        rw [hkii]
        exact hlog
      · rw [hr, h'']
        exact ⟨_, hlog, .inr ⟨resourcePath, (pieces kii).flatten, hpath,
          .answered httpError hcode⟩⟩
    · rw [Stage.andThen_of_givesUp h'] at hr
      rw [hr]
      refine ⟨_, ?_, .inr ⟨resourcePath, [], hpath, .notBuilt front p hret⟩⟩
      rw [Call.setCode_kii]
      simp only [hlogs'.log_eq, hlogs.log_eq, List.append_assoc]
      rfl

end ThingIfSdk
