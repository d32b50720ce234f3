import ThingIfSdk.Requests.Handshake

/-!
# Steady requests

A submodule that accepts every append and uses up its replies in order.  Where a
statement is about the outcome of starts and responses, and not about the room in
the request buffer, this is what it is tried on.
-/

namespace ThingIfSdk

open ByteText JsonText Staging

/-- Every append is accepted; the replies are used up as in a script. -/
def steadyApi : RequestApi (List Reply) where
  zeroed := []
  kiiInitWithInfo core _ appId appKey _ :=
    { ret := 0, appId := appId, appKey := appKey, core := core }
  setBuffer core _ := core
  kiiApiCallStart core _ := ((core.map Reply.startRet).headD (-1), core)
  kiiApiCallAppendBody core _ := (0, core)
  kiiApiCallRun core :=
    match core with
    | [] => { ret := -1, httpError := .socket, responseCode := 0, responseBody := [], core := [] }
    | reply :: rest =>
        { ret := reply.ret
          httpError := reply.httpError
          responseCode := reply.responseCode
          responseBody := reply.responseBody
          core := rest }
  kiiPushStartRoutine core := (0, core)
  taskCreateCb core _ := (true, core)

def steadySdk : Sdk (List Reply) where
  api := steadyApi
  json := referenceJson 64
  platform := referencePlatform

/-- The submodule with replies to come behind every initialisation. -/
def answeringSdk (replies : List Reply) : Sdk (List Reply) :=
  { steadySdk with api := { steadyApi with zeroed := replies } }

/-- An instance that is not onboarded yet. -/
def steadyThing (replies : List Reply) : KiiThingIf (List Reply) where
  commandHandler :=
    { Kii.zeroed steadySdk with appId := ascii "app", appKey := ascii "key", core := replies }
  stateUpdater := Kii.zeroed steadySdk
  stateUpdatePeriod := 60
  state := .initialized

section

variable {zeroed : List Reply}

theorem appendPieces_answering (pieces : List Bytes) (kii : Kii (List Reply)) :
    (appendPieces (answeringSdk zeroed) pieces kii).1 = false ∧
      (appendPieces (answeringSdk zeroed) pieces kii).2.core = kii.core := by
  induction pieces generalizing kii with
  | nil => exact ⟨rfl, rfl⟩
  | cons p ps ih =>
      have hret : (kiiApiCallAppendBody (answeringSdk zeroed) p kii).1 = 0 := rfl
      rw [appendPieces_cons, if_neg (not_not.mpr hret)]
      exact ih _

theorem run_answering {kii : Kii (List Reply)} {reply : Reply} {rest : List Reply}
    (h : kii.core = reply :: rest) :
    let r := kiiApiCallRun (answeringSdk zeroed) kii
    r.1 = reply.ret ∧ r.2.appId = kii.appId ∧ r.2.responseCode = reply.responseCode ∧
      r.2.responseBody = reply.responseBody ∧ r.2.core = rest := by
  unfold kiiApiCallRun
  simp only [answeringSdk, steadyApi, h, true_and]
  exact ⟨rfl, rfl, rfl, rfl⟩

/-- A start call returns what the next reply says. -/
theorem start_answering (r : PostRequest) {before : Kii (List Reply)}
    (h : (before.core.map Reply.startRet).headD (-1) = 0) :
    (r.start (answeringSdk zeroed) before).1 = 0 :=
  h

/-- The state in which a request is run. -/
theorem built_answering (r : PostRequest) (before : Kii (List Reply)) :
    let built := appendPieces (answeringSdk zeroed) r.pieces
      (r.start (answeringSdk zeroed) before).2
    built.1 = false ∧ built.2.core = before.core ∧ built.2.appId = before.appId := by
  obtain ⟨hbuilt, hcore⟩ := @appendPieces_answering zeroed r.pieces
    (r.start (answeringSdk zeroed) before).2
  have hframe := ((appendPieces_effect (answeringSdk zeroed) r.pieces
    (r.start (answeringSdk zeroed) before).2).done hbuilt).appId_eq
  exact ⟨hbuilt, hcore, hframe⟩

/-- A good reply answers a request. -/
theorem answered_answering (r : PostRequest) {before : Kii (List Reply)} {d : Doc}
    {rest : List Reply} (hcore : before.core = .ok d :: rest) :
    ∃ kii, Answered (answeringSdk zeroed) r before kii ∧ kii.appId = before.appId ∧
      kii.responseBody = d.render ∧ kii.core = rest := by
  have hstarted := @start_answering zeroed r before (by rw [hcore]; rfl)
  obtain ⟨hbuilt, hkept, happ⟩ := @built_answering zeroed r before
  obtain ⟨hran, happ', hcode, hbody, hrest⟩ := @run_answering zeroed _ _ _ (hkept.trans hcore)
  refine ⟨_, ⟨hstarted, hbuilt, hran, rfl, ?_⟩, happ'.trans happ, hbody, hrest⟩
  rw [hcode]
  rfl

/-- A reply with another status does not. -/
theorem not_answered_answering {r : PostRequest} {before after : Kii (List Reply)} {reply : Reply}
    {rest : List Reply} (hcore : before.core = reply :: rest)
    (hstatus : statusOk reply.responseCode = false) :
    ¬ Answered (answeringSdk zeroed) r before after := by
  intro h
  obtain ⟨-, hkept, -⟩ := @built_answering zeroed r before
  obtain ⟨-, -, hcode, -, -⟩ := @run_answering zeroed _ _ _ (hkept.trans hcore)
  have hok := h.status
  rw [h.after_eq, hcode, hstatus] at hok
  cases hok

/-- What the reference parser reads from the token response. -/
theorem tokenResponse_yields {sdk : Sdk σ} (hjson : sdk.json = referenceJson 64)
    (hplatform : sdk.platform = referencePlatform) :
    YieldsToken sdk tokenResponse.render (ascii "t") := by
  obtain ⟨hsuccess, hcopied⟩ := tokenResponse_read
  refine ⟨?_, ?_, ?_⟩
  · rw [hjson, hplatform]
    exact hsuccess
  · rw [hjson, hplatform]
    exact hcopied
  · rw [hplatform]
    decide

/-- What it reads from the onboarding response. -/
theorem onboardResponse_yields {sdk : Sdk σ} (hjson : sdk.json = referenceJson 64)
    (hplatform : sdk.platform = referencePlatform) :
    YieldsAuthor sdk onboardResponse.render ⟨ascii "th.2", ascii "a"⟩ := by
  obtain ⟨hsuccess, hid, htoken⟩ := onboardResponse_read
  refine ⟨?_, ?_, ?_, ?_, ?_⟩
  · rw [hjson, hplatform]
    exact hsuccess
  · rw [hjson, hplatform]
    exact hid
  · rw [hjson, hplatform]
    exact htoken
  · rw [hplatform]
    decide
  · rw [hplatform]
    decide

/-- With a token response to come, the token request yields the token and uses it up. -/
theorem yielded_answering {before : Kii (List Reply)}
    (hpath : tokenPath steadySdk before = some (tokenRequest before).resourcePath)
    {rest : List Reply} (hcore : before.core = .ok tokenResponse :: rest) :
    ∃ kii, TokenYielded (answeringSdk zeroed) before (ascii "t") kii ∧
      kii.appId = before.appId ∧ kii.core = rest ∧ kii.author.accessToken = ascii "t" := by
  obtain ⟨kii, hanswered, happ, hbody, hrest⟩ :=
    @answered_answering zeroed (tokenRequest before) _ _ _ hcore
  have hyields : YieldsToken (answeringSdk zeroed) kii.responseBody (ascii "t") :=
    hbody ▸ tokenResponse_yields rfl rfl
  exact ⟨kii.authorise { kii.author with accessToken := ascii "t" },
    ⟨hpath, kii, hanswered, hyields, rfl⟩, happ, hrest, rfl⟩

theorem token_answering {before : Kii (List Reply)}
    (hpath : tokenPath steadySdk before = some (tokenRequest before).resourcePath)
    {rest : List Reply} (hcore : before.core = .ok tokenResponse :: rest) (error : ErrorSlot) :
    ∃ kii, tokenStages (answeringSdk zeroed) ⟨before, error⟩ = (true, ⟨kii, error⟩) ∧
      kii.appId = before.appId ∧ kii.core = rest ∧ kii.author.accessToken = ascii "t" := by
  obtain ⟨kii, hyielded, happ, hrest, htoken⟩ := @yielded_answering zeroed _ hpath _ hcore
  exact ⟨kii, tokenStages_of_yielded (c := ⟨before, error⟩) hyielded, happ, hrest, htoken⟩

theorem tokenPath_app {kii : Kii (List Reply)} (happ : kii.appId = ascii "app") :
    tokenPath steadySdk kii = some (tokenRequest kii).resourcePath := by
  refine if_neg ?_
  rw [happ]
  decide

theorem onboardPath_app {kii : Kii (List Reply)} (happ : kii.appId = ascii "app") :
    prvSetOnboardResourcePath steadySdk.platform kii.appId 64 =
      some (vendorRequest plainArgs kii).resourcePath := by
  unfold vendorRequest
  simp only [happ]
  rfl

section

variable {rest : List Reply} {before : Kii (List Reply)} (happ : before.appId = ascii "app")

include happ

/-- Both requests of an onboarding with two good zeroed to come. -/
theorem requests_answering
    (hcore : before.core = .ok tokenResponse :: .ok onboardResponse :: rest) :
    ∃ token kii₁ kii₂, TokenYielded (answeringSdk zeroed) before token kii₁ ∧
      prvSetOnboardResourcePath (answeringSdk zeroed).platform kii₁.appId 64 =
        some (vendorRequest plainArgs kii₁).resourcePath ∧
      Answered (answeringSdk zeroed) (vendorRequest plainArgs kii₁) kii₁ kii₂ ∧
      YieldsAuthor (answeringSdk zeroed) kii₂.responseBody ⟨ascii "th.2", ascii "a"⟩ ∧
      kii₂.core = rest := by
  obtain ⟨kii₁, htoken, happ₁, hcore₁, -⟩ :=
    @yielded_answering zeroed _ (tokenPath_app happ) _ hcore
  obtain ⟨kii₂, hanswered, -, hbody, hrest⟩ :=
    @answered_answering zeroed (vendorRequest plainArgs kii₁) _ _ _ hcore₁
  exact ⟨_, kii₁, kii₂, htoken, onboardPath_app (happ₁.trans happ), hanswered,
    hbody ▸ onboardResponse_yields rfl rfl, hrest⟩

/-- The onboarding request of a thing that the server does not know is run as well. -/
theorem vendor_rejected (hcore : before.core = .ok tokenResponse :: notFound :: rest)
    (error : ErrorSlot) :
    ∃ c, prvOnboardWithVendorThingId (answeringSdk zeroed) plainArgs ⟨before, error⟩ = (false, c) ∧
      c.kii.core = rest := by
  obtain ⟨kii₁, htoken, happ₁, hcore₁, -⟩ :=
    @yielded_answering zeroed _ (tokenPath_app happ) _ hcore
  let r := vendorRequest plainArgs kii₁
  have hpath : prvSetOnboardResourcePath (answeringSdk zeroed).platform kii₁.appId 64 =
      some r.resourcePath := onboardPath_app (happ₁.trans happ)
  have hstarted : (r.start (answeringSdk zeroed) kii₁).1 = 0 :=
    start_answering r (hcore₁ ▸ rfl)
  obtain ⟨hbuilt, hkept, -⟩ := @built_answering zeroed r kii₁
  obtain ⟨hran, -, hcode, -, hrest⟩ := @run_answering zeroed _ _ _ (hkept.trans hcore₁)
  have hrun : exchange (answeringSdk zeroed)
      (fun kii => prvSetOnboardResourcePath (answeringSdk zeroed).platform kii.appId 64) refusedPath
      contentTypeVendorThingId true
      (fun _ => onboardBody (answeringSdk zeroed) (ascii "vendorThingID") plainArgs)
      ⟨kii₁, error⟩ = prvExecuteHttpSession (answeringSdk zeroed)
        ⟨(appendPieces (answeringSdk zeroed) r.pieces (r.start (answeringSdk zeroed) kii₁).2).2,
          error⟩ :=
    exchange_of_built (r := r) (c := ⟨kii₁, error⟩)
      (fun _ => onboardBody_appends (answeringSdk zeroed) (ascii "vendorThingID") plainArgs)
      (fun _ _ _ _ _ => rfl) hpath rfl hstarted hbuilt
  -- the session ends with the status of the reply
  have hstatus : statusOk (kiiApiCallRun (answeringSdk zeroed) (appendPieces (answeringSdk zeroed)
      r.pieces (r.start (answeringSdk zeroed) kii₁).2).2).2.responseCode = false := by
    rw [hcode]
    rfl
  unfold prvExecuteHttpSession at hrun
  simp only at hrun
  rw [if_neg (not_not.mpr (hran.trans (show notFound.ret = 0 from rfl))), hstatus,
    if_neg Bool.false_ne_true] at hrun
  have hgoes := tokenStages_of_yielded (c := ⟨before, error⟩) htoken
  have hvendor := (congrFun (vendorStages_eq (answeringSdk zeroed) plainArgs) ⟨before, error⟩).trans
    ((Stage.andThen_of_goesOn hgoes _).trans (Stage.andThen_of_givesUp hrun _))
  refine ⟨_, hvendor, ?_⟩
  rw [sessionRejected_kii]
  exact hrest

end

end

theorem token_steady {before : Kii (List Reply)}
    (hpath : tokenPath steadySdk before = some (tokenRequest before).resourcePath)
    {rest : List Reply} (hcore : before.core = .ok tokenResponse :: rest) (error : ErrorSlot) :
    ∃ kii, tokenStages steadySdk ⟨before, error⟩ = (true, ⟨kii, error⟩) ∧
      kii.appId = before.appId ∧ kii.core = rest ∧ kii.author.accessToken = ascii "t" :=
  @token_answering [] _ hpath _ hcore error

end ThingIfSdk
