import ThingIfSdk.Model.Log
import ThingIfSdk.Requests.Exchange
import ThingIfSdk.Requests.Scripted

/-!
# The onboarding handshake

`onboard_with_vendor_thing_id` makes two requests: an anonymous one for a token,
and one that the token authorises.  `Completed` says that both are answered and
yield what they are asked for.  The order of the requests is a condition on the
log, `handshakeMonitor`.
-/

namespace ThingIfSdk

open ByteText JsonText Monitoring Staging

variable {σ : Type}

/-! ## What responses yield -/

/-- `SUCCESS` is reported only when every field with a copy buffer was copied into
it, with its NUL. -/
def CopiesFields (json : JsonApi) : Prop :=
  ∀ text fields, (json.kiiJsonReadObject text fields).1 = .success →
    ∀ (i : Nat) (f : JsonField) (size : Nat), fields[i]? = some f →
      f.fieldCopyBuffSize = some size →
      ∃ s, ((json.kiiJsonReadObject text fields).2 i).copied = some s ∧ s.length < size

/-- The response yields an access token that fits its field. -/
structure YieldsToken (sdk : Sdk σ) (text token : Bytes) : Prop where
  success : (sdk.json.kiiJsonReadObject text [tokenField sdk.platform]).1 = .success
  copied : ((sdk.json.kiiJsonReadObject text [tokenField sdk.platform]).2 0).copied = some token
  fits : token.length < sdk.platform.authorSizes.accessToken

/-- The response yields a thing id and an access token that fit their fields. -/
structure YieldsAuthor (sdk : Sdk σ) (text : Bytes) (author : Author) : Prop where
  success : (sdk.json.kiiJsonReadObject text
    [thingIdField sdk.platform, accessTokenField sdk.platform]).1 = .success
  authorId : ((sdk.json.kiiJsonReadObject text
    [thingIdField sdk.platform, accessTokenField sdk.platform]).2 0).copied = some author.authorId
  accessToken : ((sdk.json.kiiJsonReadObject text
    [thingIdField sdk.platform, accessTokenField sdk.platform]).2 1).copied =
      some author.accessToken
  fitsId : author.authorId.length < sdk.platform.authorSizes.authorId
  fitsToken : author.accessToken.length < sdk.platform.authorSizes.accessToken

theorem exists_yieldsToken {sdk : Sdk σ} (hjson : CopiesFields sdk.json) {text : Bytes}
    (h : (sdk.json.kiiJsonReadObject text [tokenField sdk.platform]).1 = .success) :
    ∃ token, YieldsToken sdk text token := by
  obtain ⟨token, hcopied, hfits⟩ := hjson text _ h 0 _ _ rfl rfl
  exact ⟨token, h, hcopied, hfits⟩

theorem exists_yieldsAuthor {sdk : Sdk σ} (hjson : CopiesFields sdk.json) {text : Bytes}
    (h : (sdk.json.kiiJsonReadObject text
      [thingIdField sdk.platform, accessTokenField sdk.platform]).1 = .success) :
    ∃ author, YieldsAuthor sdk text author := by
  obtain ⟨authorId, hid, hfitsId⟩ := hjson text _ h 0 _ _ rfl rfl
  obtain ⟨accessToken, htoken, hfitsToken⟩ := hjson text _ h 1 _ _ rfl rfl
  exact ⟨⟨authorId, accessToken⟩, h, hid, htoken, hfitsId, hfitsToken⟩

/-! ## The two requests -/

/-- The anonymous request. -/
def tokenRequest (kii : Kii σ) : PostRequest where
  resourcePath := [appPath, kii.appId, oauthPath].flatten
  contentType := contentTypeJson
  authenticated := false
  pieces := (tokenPieces kii).flatten

/-- The onboarding request. -/
def vendorRequest (args : OnboardArgs) (kii : Kii σ) : PostRequest where
  resourcePath := [thingIfAppPath, kii.appId, onboardingPath].flatten
  contentType := contentTypeVendorThingId
  authenticated := true
  pieces := (onboardPieces (ascii "vendorThingID") args).flatten

def Kii.authorise (kii : Kii σ) (author : Author) : Kii σ :=
  { kii with author := author }.emit (.readAuthor .success true)

/-- The token request is answered and yields the token, which `after` holds. -/
structure TokenYielded (sdk : Sdk σ) (before : Kii σ) (token : Bytes) (after : Kii σ) : Prop where
  path : tokenPath sdk before = some (tokenRequest before).resourcePath
  answered : ∃ kii, Answered sdk (tokenRequest before) before kii ∧
    YieldsToken sdk kii.responseBody token ∧
    after = kii.authorise { kii.author with accessToken := token }

/-- What a token request leaves is determined by where it starts. -/
theorem TokenYielded.unique {sdk : Sdk σ} {before after after' : Kii σ} {token token' : Bytes}
    (h : TokenYielded sdk before token after) (h' : TokenYielded sdk before token' after') :
    after' = after := by
  obtain ⟨-, kii, hanswered, hyields, rfl⟩ := h
  obtain ⟨-, kii', hanswered', hyields', rfl⟩ := h'
  obtain rfl := hanswered.unique hanswered'
  rw [Option.some.inj (hyields'.copied.symm.trans hyields.copied)]

/-- Both requests are answered, and the second yields the author. -/
structure Completed (sdk : Sdk σ) (args : OnboardArgs) (before : Kii σ) (author : Author) :
    Prop where
  requests : ∃ token kii₁ kii₂, TokenYielded sdk before token kii₁ ∧
    prvSetOnboardResourcePath sdk.platform kii₁.appId 64 =
      some (vendorRequest args kii₁).resourcePath ∧
    Answered sdk (vendorRequest args kii₁) kii₁ kii₂ ∧ YieldsAuthor sdk kii₂.responseBody author

/-! ## The stages of the token request -/

theorem tokenStages_eq (sdk : Sdk σ) :
    tokenStages sdk = (exchange sdk (tokenPath sdk)
      (fun c => (c.emit .tokenPathTooLong).setCode .insufficientBuffer) contentTypeJson false
        (tokenBody sdk)).andThen (intStage (readToken sdk)) := by
  rw [exchange, Stage.andThen_assoc, Stage.andThen_assoc]
  rfl

theorem tokenPath_eq {sdk : Sdk σ} {kii : Kii σ} {resourcePath : Bytes}
    (h : tokenPath sdk kii = some resourcePath) :
    resourcePath = [appPath, kii.appId, oauthPath].flatten := by
  unfold tokenPath at h
  simp only at h
  split at h
  · cases h
  · exact (Option.some.inj h).symm

theorem onboardPath_eq {p : Platform} {appId resourcePath : Bytes}
    (h : prvSetOnboardResourcePath p appId 64 = some resourcePath) :
    resourcePath = [thingIfAppPath, appId, onboardingPath].flatten := by
  unfold prvSetOnboardResourcePath prvSetResourcePath at h
  split at h
  · cases h
  · exact (Option.some.inj h).symm

theorem intStage_readToken (sdk : Sdk σ) (c : Call σ) {token : Bytes}
    (h : YieldsToken sdk c.kii.responseBody token) :
    intStage (readToken sdk) c =
      (true, { c with kii := c.kii.authorise { c.kii.author with accessToken := token } }) := by
  unfold intStage readToken prvKiiThingIfJsonReadObject
  simp only [h.success, h.copied]
  rfl

/-- A token that is yielded goes through. -/
theorem tokenStages_of_yielded {sdk : Sdk σ} {c : Call σ} {token : Bytes} {kii : Kii σ}
    (h : TokenYielded sdk c.kii token kii) : tokenStages sdk c = (true, { c with kii := kii }) := by
  obtain ⟨hpath, kii₁, hanswered, hyields, rfl⟩ := h
  have hexchange : exchange sdk (tokenPath sdk)
      (fun c => (c.emit .tokenPathTooLong).setCode .insufficientBuffer) contentTypeJson false
      (tokenBody sdk) c = (true, { c with kii := kii₁ }) :=
    exchange_of_answered (tokenBody_appends sdk) (fun _ _ _ _ _ => rfl) hpath rfl hanswered
  rw [tokenStages_eq, Stage.andThen_of_goesOn hexchange]
  exact intStage_readToken sdk { c with kii := kii₁ } hyields

/-- The token request goes on only with a token. -/
theorem yielded_of_tokenStages {sdk : Sdk σ} (hjson : CopiesFields sdk.json) {c : Call σ}
    (h : (tokenStages sdk c).1 = true) : ∃ token kii, TokenYielded sdk c.kii token kii := by
  rw [tokenStages_eq] at h
  cases hexchange : (exchange sdk (tokenPath sdk)
      (fun c => (c.emit .tokenPathTooLong).setCode .insufficientBuffer) contentTypeJson false
      (tokenBody sdk) c).1 with
  | false =>
      rw [Stage.andThen_of_false hexchange] at h
      cases h
  | true =>
      obtain ⟨resourcePath, kii, hpath, hanswered, hgoes⟩ := answered_of_exchange
        (tokenBody_appends sdk) (fun _ _ _ _ _ => rfl) hexchange
      obtain rfl := tokenPath_eq hpath
      rw [Stage.andThen_of_goesOn hgoes] at h
      have hsuccess : (sdk.json.kiiJsonReadObject kii.responseBody
          [tokenField sdk.platform]).1 = .success := by
        by_contra hne
        unfold intStage readToken prvKiiThingIfJsonReadObject at h
        simp [hne] at h
      obtain ⟨token, hyields⟩ := exists_yieldsToken hjson hsuccess
      exact ⟨token, _, hpath, kii, hanswered, hyields, rfl⟩

/-! ## The whole handshake -/

theorem vendorStages_eq (sdk : Sdk σ) (args : OnboardArgs) :
    prvOnboardWithVendorThingId sdk args = (tokenStages sdk).andThen
      ((exchange sdk (fun kii => prvSetOnboardResourcePath sdk.platform kii.appId 64) refusedPath
        contentTypeVendorThingId true
        (fun _ => onboardBody sdk (ascii "vendorThingID") args)).andThen
          (intStage (prvThingIfParseOnboardingResponse sdk))) := by
  rw [prvOnboardWithVendorThingId_eq, exchange, Stage.andThen_assoc, Stage.andThen_assoc]
  rfl

theorem intStage_parseOnboardingResponse (sdk : Sdk σ) (c : Call σ) {author : Author}
    (h : YieldsAuthor sdk c.kii.responseBody author) :
    intStage (prvThingIfParseOnboardingResponse sdk) c =
      (true, { c with kii := c.kii.authorise author }) := by
  unfold intStage prvThingIfParseOnboardingResponse prvKiiThingIfJsonReadObject
  simp only [h.success, h.authorId, h.accessToken]
  rfl

/-- Both requests answered, and the second with an author. -/
theorem vendor_of_requests {sdk : Sdk σ} {args : OnboardArgs} {c : Call σ} {token : Bytes}
    {kii₁ kii₂ : Kii σ} {author : Author} (htoken : TokenYielded sdk c.kii token kii₁)
    (hpath : prvSetOnboardResourcePath sdk.platform kii₁.appId 64 =
      some (vendorRequest args kii₁).resourcePath)
    (hanswered : Answered sdk (vendorRequest args kii₁) kii₁ kii₂)
    (hyields : YieldsAuthor sdk kii₂.responseBody author) :
    prvOnboardWithVendorThingId sdk args c = (true, { c with kii := kii₂.authorise author }) := by
  have hexchange : exchange sdk (fun kii => prvSetOnboardResourcePath sdk.platform kii.appId 64)
      refusedPath contentTypeVendorThingId true
      (fun _ => onboardBody sdk (ascii "vendorThingID") args) { c with kii := kii₁ } =
        (true, { c with kii := kii₂ }) :=
    exchange_of_answered (r := vendorRequest args kii₁) (c := ⟨kii₁, c.error⟩)
      (fun _ => onboardBody_appends sdk (ascii "vendorThingID") args) (fun _ _ _ _ _ => rfl)
      hpath rfl hanswered
  rw [vendorStages_eq, Stage.andThen_of_goesOn (tokenStages_of_yielded htoken),
    Stage.andThen_of_goesOn hexchange]
  exact intStage_parseOnboardingResponse sdk { c with kii := kii₂ } hyields

theorem vendor_of_completed {sdk : Sdk σ} {args : OnboardArgs} {c : Call σ} {author : Author}
    (h : Completed sdk args c.kii author) :
    ∃ kii, prvOnboardWithVendorThingId sdk args c = (true, { c with kii := kii }) ∧
      kii.author = author := by
  obtain ⟨token, kii₁, kii₂, htoken, hpath, hanswered, hyields⟩ := h.requests
  exact ⟨kii₂.authorise author, vendor_of_requests htoken hpath hanswered hyields, rfl⟩

theorem completed_of_vendor {sdk : Sdk σ} (hjson : CopiesFields sdk.json) {args : OnboardArgs}
    {c : Call σ} (h : (prvOnboardWithVendorThingId sdk args c).1 = true) :
    ∃ author, Completed sdk args c.kii author := by
  rw [vendorStages_eq] at h
  cases htoken : (tokenStages sdk c).1 with
  | false =>
      rw [Stage.andThen_of_false htoken] at h
      cases h
  | true =>
      obtain ⟨token, kii₁, hyielded⟩ := yielded_of_tokenStages hjson htoken
      rw [Stage.andThen_of_goesOn (tokenStages_of_yielded hyielded)] at h
      cases hexchange : (exchange sdk
          (fun kii => prvSetOnboardResourcePath sdk.platform kii.appId 64) refusedPath
          contentTypeVendorThingId true (fun _ => onboardBody sdk (ascii "vendorThingID") args)
          { c with kii := kii₁ }).1 with
      | false =>
          rw [Stage.andThen_of_false hexchange] at h
          cases h
      | true =>
          obtain ⟨resourcePath, kii₂, hpath, hanswered, hgoes⟩ := answered_of_exchange
            (fun _ => onboardBody_appends sdk (ascii "vendorThingID") args)
            (fun _ _ _ _ _ => rfl) hexchange
          obtain rfl := onboardPath_eq hpath
          rw [Stage.andThen_of_goesOn hgoes] at h
          have hsuccess : (sdk.json.kiiJsonReadObject kii₂.responseBody
              [thingIdField sdk.platform, accessTokenField sdk.platform]).1 = .success := by
            by_contra hne
            unfold intStage prvThingIfParseOnboardingResponse prvKiiThingIfJsonReadObject at h
            simp [hne] at h
          obtain ⟨author, hyields⟩ := exists_yieldsAuthor hjson hsuccess
          exact ⟨author, ⟨token, kii₁, kii₂, hyielded, hpath, hanswered, hyields⟩⟩

/-! ## The order of the requests -/

inductive HandshakePhase where
  | idle
  | tokenOpen
  | tokenAnswered
  | authorised
  | onboardOpen
  | over
deriving DecidableEq

/-- Follows a handshake through its log; any failure ends it. -/
def handshakeMonitor : Monitor Event HandshakePhase where
  start := .idle
  step q e :=
    match q, e with
    | .idle, .callStart _ ret => if ret = 0 then .tokenOpen else .over
    | .tokenOpen, .appendBody _ ret => if ret = 0 then .tokenOpen else .over
    | .tokenOpen, .callRun ret _ code =>
        if ret = 0 ∧ statusOk code = true then .tokenAnswered else .over
    | .tokenAnswered, .readAuthor result _ => if result = .success then .authorised else .over
    | .authorised, .callStart _ ret => if ret = 0 then .onboardOpen else .over
    | .onboardOpen, .appendBody _ ret => if ret = 0 then .onboardOpen else .over
    | .onboardOpen, .callRun .. => .over
    | q, _ => q

/-- The anonymous POST. -/
def tokenCall (kii : Kii σ) : ApiCall where
  appId := kii.appId
  appKey := kii.appKey
  author := kii.author
  httpMethod := ascii "POST"
  resourcePath := [appPath, kii.appId, oauthPath].flatten
  contentType := some contentTypeJson
  setAuthenticationHeader := false

/-- The onboarding POST, authorised with the given token. -/
def vendorCall (kii : Kii σ) (token : Bytes) : ApiCall where
  appId := kii.appId
  appKey := kii.appKey
  author := { kii.author with accessToken := token }
  httpMethod := ascii "POST"
  resourcePath := [thingIfAppPath, kii.appId, onboardingPath].flatten
  contentType := some contentTypeVendorThingId
  setAuthenticationHeader := true

/-- The token POST comes first, the onboarding POST behind the token that
authorises it, and only open requests are run. -/
def inOrder (sdk : Sdk σ) (kii : Kii σ) (q : HandshakePhase) : Event → Prop
  | .callStart call _ =>
      (q = .idle ∧ call = tokenCall kii) ∨
        (q = .authorised ∧ ∃ token, (∃ kii', TokenYielded sdk kii token kii') ∧
          call = vendorCall kii token)
  | .callRun .. => q = .tokenOpen ∨ q = .onboardOpen
  | _ => True

/-- How many requests may still be run. -/
def HandshakePhase.runsLeft : HandshakePhase → Nat
  | .idle => 2
  | .tokenOpen => 2
  | .tokenAnswered => 1
  | .authorised => 1
  | .onboardOpen => 1
  | .over => 0

theorem runsLeft_ite {P : Prop} [Decidable P] {q : HandshakePhase} {n : Nat}
    (h : q.runsLeft ≤ n) : (if P then q else .over).runsLeft ≤ n := by
  split
  · exact h
  · exact Nat.zero_le n

/-- No entry makes room for further runs. -/
theorem runsLeft_step_le {sdk : Sdk σ} {kii : Kii σ} {q : HandshakePhase} {e : Event}
    (h : inOrder sdk kii q e) : (handshakeMonitor.step q e).runsLeft ≤ q.runsLeft := by
  cases e with
  | callStart call ret =>
      rcases h with ⟨rfl, -⟩ | ⟨rfl, -⟩
      · exact runsLeft_ite (Nat.le_refl 2)
      · exact runsLeft_ite (Nat.le_refl 1)
  | callRun ret httpError code =>
      rcases h with rfl | rfl
      · exact runsLeft_ite (Nat.le_succ 1)
      · exact Nat.zero_le 1
  | appendBody bytes ret =>
      cases q with
      | tokenOpen => exact runsLeft_ite (Nat.le_refl 2)
      | onboardOpen => exact runsLeft_ite (Nat.le_refl 1)
      | _ => exact Nat.le_refl _
  | readAuthor result written =>
      cases q with
      | tokenAnswered => exact runsLeft_ite (Nat.le_refl 1)
      | _ => exact Nat.le_refl _
  | _ => cases q <;> exact Nat.le_refl _

/-- A run uses one up. -/
theorem runsLeft_run_lt {sdk : Sdk σ} {kii : Kii σ} {q : HandshakePhase} {e : Event}
    (h : inOrder sdk kii q e) (hrun : e.isRun = true) :
    (handshakeMonitor.step q e).runsLeft < q.runsLeft := by
  cases e with
  | callRun ret httpError code =>
      rcases h with rfl | rfl
      · exact Nat.lt_succ_of_le (runsLeft_ite (Nat.le_refl 1))
      · exact Nat.one_pos
  | _ => cases hrun

/-- A handshake in order runs no more requests than its phase leaves. -/
theorem runs_le_runsLeft {sdk : Sdk σ} {kii : Kii σ} {q : HandshakePhase} {log : List Event}
    (h : handshakeMonitor.SafeFrom (inOrder sdk kii) q log) :
    (log.filter Event.isRun).length ≤ q.runsLeft := by
  induction log generalizing q with
  | nil => exact Nat.zero_le _
  | cons e log ih =>
      obtain ⟨he, hrest⟩ := h
      have hlog := ih hrest
      rw [List.filter_cons]
      split
      · rename_i hrun
        rw [List.length_cons]
        exact Nat.lt_of_le_of_lt hlog (runsLeft_run_lt he hrun)
      · exact Nat.le_trans hlog (runsLeft_step_le he)

/-! ### Blocks of a handshake -/

/-- From phase `q` a request is opened and, when it is answered, leads to `a`. -/
structure Opens (q o a : HandshakePhase) : Prop where
  started : ∀ call, handshakeMonitor.step q (.callStart call 0) = o
  appended : ∀ p, handshakeMonitor.step o (.appendBody p 0) = o
  mayRun : o = .tokenOpen ∨ o = .onboardOpen
  answered : ∀ httpError code, statusOk code = true →
    handshakeMonitor.step o (.callRun 0 httpError code) = a

theorem opens_token : Opens .idle .tokenOpen .tokenAnswered :=
  ⟨fun _ => rfl, fun _ => rfl, .inl rfl, fun _ _ h => if_pos ⟨rfl, h⟩⟩

theorem opens_onboard : Opens .authorised .onboardOpen .over :=
  ⟨fun _ => rfl, fun _ => rfl, .inr rfl, fun _ _ _ => rfl⟩

section

variable {sdk : Sdk σ} {kii : Kii σ}

theorem safeFrom_passive {es : List Event} (h : ∀ e ∈ es, e.isPassive = true)
    (q : HandshakePhase) : handshakeMonitor.SafeFrom (inOrder sdk kii) q es := by
  induction es generalizing q with
  | nil => trivial
  | cons e es ih =>
      refine ⟨?_, ih (fun e' he' => h e' (List.mem_cons_of_mem e he')) _⟩
      have he := h e List.mem_cons_self
      cases e with
      | callStart | callRun => cases he
      | _ => trivial

theorem runFrom_opened {o : HandshakePhase}
    (h : ∀ p, handshakeMonitor.step o (.appendBody p 0) = o) (pieces : List Bytes) :
    handshakeMonitor.runFrom o (accepted pieces) = o := by
  induction pieces with
  | nil => rfl
  | cons p ps ih => rw [accepted_cons, Monitor.runFrom_cons, h, ih]

theorem passive_accepted (pieces : List Bytes) : ∀ e ∈ accepted pieces, e.isPassive = true := by
  intro e he
  simp only [accepted, List.mem_map] at he
  obtain ⟨p, -, rfl⟩ := he
  rfl

/-- The log of a request is in order where the request is. -/
theorem safeFrom_exchange {q o a : HandshakePhase} (hq : Opens q o a) {call : ApiCall}
    (hcall : ∀ ret, inOrder sdk kii q (.callStart call ret)) {pieces : List Bytes} {goes : Bool}
    {es : List Event} (h : ExchangeLog call pieces goes es) :
    handshakeMonitor.SafeFrom (inOrder sdk kii) q es ∧
      (goes = true → handshakeMonitor.runFrom q es = a) := by
  cases h with
  | notStarted h => exact ⟨⟨hcall _, trivial⟩, by simp⟩
  | notBuilt front p h =>
      refine ⟨⟨hcall _, ?_⟩, by simp⟩
      rw [Monitor.safeFrom_append]
      exact ⟨safeFrom_passive (passive_accepted front) _, trivial, trivial⟩
  | notRun h httpError code hes =>
      refine ⟨⟨hcall _, ?_⟩, by simp⟩
      rw [Monitor.safeFrom_append, hq.started, runFrom_opened hq.appended]
      exact ⟨safeFrom_passive (passive_accepted pieces) _, hq.mayRun, safeFrom_passive hes _⟩
  | rejected httpError h =>
      refine ⟨⟨hcall _, ?_⟩, by simp⟩
      rw [Monitor.safeFrom_append, hq.started, runFrom_opened hq.appended]
      exact ⟨safeFrom_passive (passive_accepted pieces) _, hq.mayRun, trivial⟩
  | answered httpError h =>
      refine ⟨⟨hcall _, ?_⟩, fun _ => ?_⟩
      · rw [Monitor.safeFrom_append, hq.started, runFrom_opened hq.appended]
        exact ⟨safeFrom_passive (passive_accepted pieces) _, hq.mayRun, trivial⟩
      · rw [Monitor.runFrom_cons, Monitor.runFrom_append, hq.started, runFrom_opened hq.appended]
        exact hq.answered httpError _ h

end

/-! ### The order of a whole handshake -/

theorem readToken_log (sdk : Sdk σ) (c : Call σ) :
    ∃ result written, (intStage (readToken sdk) c).2.kii.log =
        c.kii.log ++ [.readAuthor result written] ∧
      ((intStage (readToken sdk) c).1 = true → result = .success) := by
  unfold intStage readToken
  simp only
  split
  · exact ⟨_, _, rfl, by simp⟩
  · rename_i hsuccess
    exact ⟨_, _, rfl, fun _ => not_not.mp hsuccess⟩

theorem readOnboarding_log (sdk : Sdk σ) (c : Call σ) :
    ∃ result written, (intStage (prvThingIfParseOnboardingResponse sdk) c).2.kii.log =
      c.kii.log ++ [.readAuthor result written] := by
  unfold intStage prvThingIfParseOnboardingResponse
  simp only
  split <;> exact ⟨_, _, rfl⟩

theorem passive_refusedPath (c : Call σ) :
    ∃ es, (refusedPath c).kii.log = c.kii.log ++ es ∧ ∀ e ∈ es, e.isPassive = true :=
  ⟨[.assertion, .pathTooLong], List.append_assoc _ _ _, by simp [Event.isPassive]⟩

/-- The token request, as far as it comes. -/
theorem tokenStages_inOrder (sdk : Sdk σ) (c : Call σ) :
    ∃ es, (tokenStages sdk c).2.kii.log = c.kii.log ++ es ∧
      handshakeMonitor.Safe (inOrder sdk c.kii) es ∧
      ((tokenStages sdk c).1 = true → handshakeMonitor.after es = .authorised) := by
  obtain ⟨es, hlog, hes⟩ := exchange_log
    (fun c => ⟨[.tokenPathTooLong], rfl, by simp [Event.isPassive]⟩ :
      ∀ c : Call σ, ∃ es, ((c.emit .tokenPathTooLong).setCode .insufficientBuffer).kii.log =
        c.kii.log ++ es ∧ ∀ e ∈ es, e.isPassive = true)
    (tokenBody_appends sdk) contentTypeJson false c
  have hsafe : handshakeMonitor.Safe (inOrder sdk c.kii) es ∧
      ((exchange sdk (tokenPath sdk)
        (fun c => (c.emit .tokenPathTooLong).setCode .insufficientBuffer) contentTypeJson false
        (tokenBody sdk) c).1 = true → handshakeMonitor.after es = .tokenAnswered) := by
    rcases hes with ⟨hfalse, hes⟩ | ⟨resourcePath, ps, hpath, hes⟩
    · exact ⟨safeFrom_passive hes _, fun h => absurd (hfalse.symm.trans h) Bool.false_ne_true⟩
    · obtain rfl := tokenPath_eq hpath
      exact safeFrom_exchange opens_token (fun _ => .inl ⟨rfl, rfl⟩) hes
  rw [tokenStages_eq]
  cases hgoes : (exchange sdk (tokenPath sdk)
      (fun c => (c.emit .tokenPathTooLong).setCode .insufficientBuffer) contentTypeJson false
      (tokenBody sdk) c).1 with
  | false =>
      rw [Stage.andThen_of_false hgoes]
      exact ⟨es, hlog, hsafe.1, by simp⟩
  | true =>
      rw [Stage.andThen_of_true hgoes]
      obtain ⟨result, written, hread, hresult⟩ := readToken_log sdk (exchange sdk (tokenPath sdk)
        (fun c => (c.emit .tokenPathTooLong).setCode .insufficientBuffer) contentTypeJson false
        (tokenBody sdk) c).2
      refine ⟨es ++ [.readAuthor result written], ?_, ?_, fun htrue => ?_⟩
      · rw [hread, hlog, List.append_assoc]
      · rw [Monitor.safe_append]
        exact ⟨hsafe.1, trivial, trivial⟩
      · rw [Monitor.after_append, hsafe.2 hgoes, hresult htrue]
        rfl

/-- What a held token leaves of the identity. -/
theorem TokenYielded.identity {sdk : Sdk σ} {before after : Kii σ} {token : Bytes}
    (h : TokenYielded sdk before token after) :
    after.appId = before.appId ∧ after.appKey = before.appKey ∧
      after.author = { before.author with accessToken := token } := by
  obtain ⟨-, kii, hanswered, -, rfl⟩ := h
  obtain ⟨_, _, -, hkey, hlogs⟩ := hanswered.logs
  refine ⟨hlogs.appId_eq, hkey, ?_⟩
  show { kii.author with accessToken := token } = { before.author with accessToken := token }
  rw [hlogs.author_eq]

/-- The handshake, as far as it comes. -/
theorem vendor_inOrder {sdk : Sdk σ} (hjson : CopiesFields sdk.json) (args : OnboardArgs)
    (c : Call σ) :
    handshakeMonitor.Safe (inOrder sdk c.kii)
      (newEvents c.kii (prvOnboardWithVendorThingId sdk args c).2.kii) := by
  obtain ⟨es, hlog, hsafe, hafter⟩ := tokenStages_inOrder sdk c
  rw [vendorStages_eq]
  cases htoken : (tokenStages sdk c).1 with
  | false =>
      rw [Stage.andThen_of_false htoken, newEvents_eq hlog]
      exact hsafe
  | true =>
      obtain ⟨token, kii₁, hyielded⟩ := yielded_of_tokenStages hjson htoken
      have hstages := tokenStages_of_yielded hyielded
      obtain ⟨happ, hkey, hauthor⟩ := hyielded.identity
      rw [hstages] at hlog
      rw [Stage.andThen_of_goesOn hstages]
      obtain ⟨es', hlog', hes'⟩ := @exchange_log σ sdk
        (fun kii => prvSetOnboardResourcePath sdk.platform kii.appId 64) refusedPath
        passive_refusedPath _ _ (fun _ => onboardBody_appends sdk (ascii "vendorThingID") args)
        contentTypeVendorThingId true { c with kii := kii₁ }
      -- The token request has been answered, so the monitor stands at the second exchange.
      have hsafe' : handshakeMonitor.SafeFrom (inOrder sdk c.kii) .authorised es' := by
        rcases hes' with ⟨-, hes'⟩ | ⟨resourcePath, ps, hpath, hes'⟩
        · exact safeFrom_passive hes' _
        · obtain rfl := onboardPath_eq hpath
          refine (safeFrom_exchange opens_onboard (fun _ => .inr ⟨rfl, token, ⟨kii₁, hyielded⟩, ?_⟩)
            hes').1
          simp only [Kii.apiCall, vendorCall, happ, hkey, hauthor]
      have hboth : handshakeMonitor.Safe (inOrder sdk c.kii) (es ++ es') := by
        rw [Monitor.safe_append, hafter htoken]
        exact ⟨hsafe, hsafe'⟩
      simp only at hlog hlog'
      rw [hlog, List.append_assoc] at hlog'
      cases hgoes : (exchange sdk
          (fun kii => prvSetOnboardResourcePath sdk.platform kii.appId 64) refusedPath
          contentTypeVendorThingId true (fun _ => onboardBody sdk (ascii "vendorThingID") args)
          { c with kii := kii₁ }).1 with
      | false =>
          rw [Stage.andThen_of_false hgoes, newEvents_eq hlog']
          exact hboth
      | true =>
          rw [Stage.andThen_of_true hgoes]
          obtain ⟨result, written, hread⟩ := readOnboarding_log sdk (exchange sdk
            (fun kii => prvSetOnboardResourcePath sdk.platform kii.appId 64) refusedPath
            contentTypeVendorThingId true (fun _ => onboardBody sdk (ascii "vendorThingID") args)
            { c with kii := kii₁ }).2
          rw [hlog', List.append_assoc] at hread
          rw [newEvents_eq hread, Monitor.safe_append]
          exact ⟨hboth, trivial, trivial⟩

/-! ## The public function -/

/-- The handshake of `onboard_with_vendor_thing_id` is exact: its requests come in
order, it succeeds exactly when both are answered and yield what they should, and
then both instances hold what they yielded. -/
structure ExactHandshake (sdk : Sdk σ) (args : OnboardArgs) (thing : KiiThingIf σ)
    (error : ErrorSlot) (out : Outcome σ) : Prop where
  ordered : handshakeMonitor.Safe (inOrder sdk thing.commandHandler)
    (newEvents thing.commandHandler out.thing.commandHandler)
  atMostTwo : ((newEvents thing.commandHandler out.thing.commandHandler).filter
    Event.isRun).length ≤ 2
  succeeds_iff : out.ret = true ↔ ∃ author, Completed sdk args thing.commandHandler author
  holds : ∀ author, Completed sdk args thing.commandHandler author →
    out.thing.state = .onboarded ∧ out.thing.commandHandler.author = author ∧
      out.thing.stateUpdater.author = author
  /-- The copy into the other instance does not fail. -/
  copies : (prvOnboardWithVendorThingId sdk args ⟨thing.commandHandler, error⟩).1 = true →
    prvSetAuthor sdk.platform out.thing.commandHandler.author.authorId
      out.thing.commandHandler.author.accessToken ≠ none

/-- What was read into its fields can be copied. -/
theorem prvSetAuthor_of_yields {sdk : Sdk σ} {text : Bytes} {author : Author}
    (h : YieldsAuthor sdk text author) :
    prvSetAuthor sdk.platform author.authorId author.accessToken = some author := by
  unfold prvSetAuthor
  rw [if_neg (Nat.not_le.mpr h.fitsId), if_neg (Nat.not_le.mpr h.fitsToken)]

/-- The outcome of a handshake that completes. -/
theorem onboardWithVendorThingId_completed {sdk : Sdk σ} {args : OnboardArgs}
    {thing : KiiThingIf σ} (hstate : thing.state ≠ .started) (error : ErrorSlot)
    {author : Author} (h : Completed sdk args thing.commandHandler author) :
    let out := onboardWithVendorThingId sdk args thing error
    out.ret = true ∧ out.thing.state = .onboarded ∧ out.thing.commandHandler.author = author ∧
      out.thing.stateUpdater.author = author := by
  obtain ⟨kii, hrun, rfl⟩ := vendor_of_completed (c := ⟨thing.commandHandler, error⟩) h
  obtain ⟨token, kii₁, kii₂, -, -, -, hyields⟩ := h.requests
  simp only [onboardWithVendorThingId, onboardWith, if_neg hstate, hrun,
    prvSetAuthor_of_yields hyields, reduceCtorEq, if_false]
  exact ⟨trivial, trivial, trivial, trivial⟩

theorem onboardWithVendorThingId_commandHandler {sdk : Sdk σ} {args : OnboardArgs}
    {thing : KiiThingIf σ} (hstate : thing.state ≠ .started) (error : ErrorSlot) :
    (onboardWithVendorThingId sdk args thing error).thing.commandHandler =
      (prvOnboardWithVendorThingId sdk args ⟨thing.commandHandler, error⟩).2.kii := by
  unfold onboardWithVendorThingId onboardWith
  rw [if_neg hstate]
  simp only
  split
  · rfl
  · split <;> rfl

/-- For every instance that is not started and all outcomes, the handshake is exact. -/
theorem onboardWithVendorThingId_exact {sdk : Sdk σ} (hjson : CopiesFields sdk.json)
    (args : OnboardArgs) {thing : KiiThingIf σ}
    (hstate : thing.state = .initialized ∨ thing.state = .onboarded) (error : ErrorSlot) :
    ExactHandshake sdk args thing error (onboardWithVendorThingId sdk args thing error) := by
  have hne : thing.state ≠ .started := by
    rcases hstate with h | h <;> rw [h] <;> decide
  have hkii : (onboardWithVendorThingId sdk args thing error).thing.commandHandler =
      (prvOnboardWithVendorThingId sdk args ⟨thing.commandHandler, error⟩).2.kii :=
    onboardWithVendorThingId_commandHandler hne error
  have hordered := vendor_inOrder hjson args ⟨thing.commandHandler, error⟩
  constructor
  · rw [hkii]
    exact hordered
  · rw [hkii]
    exact runs_le_runsLeft hordered
  · constructor
    · intro hret
      apply completed_of_vendor hjson (c := ⟨thing.commandHandler, error⟩)
      by_contra hfalse
      unfold onboardWithVendorThingId onboardWith at hret
      rw [if_neg hne] at hret
      simp only [eq_false_of_ne_true hfalse, if_true, reduceCtorEq] at hret
    · rintro ⟨author, h⟩
      exact (onboardWithVendorThingId_completed hne error h).1
  · intro author h
    exact (onboardWithVendorThingId_completed hne error h).2
  · intro hrun
    obtain ⟨author, h⟩ := completed_of_vendor hjson hrun
    obtain ⟨token, kii₁, kii₂, -, -, -, hyields⟩ := h.requests
    obtain ⟨-, -, hauthor, -⟩ := onboardWithVendorThingId_completed hne error h
    rw [hauthor, prvSetAuthor_of_yields hyields]
    exact Option.some_ne_none author

/-! ## Sample parser -/

theorem readField_copied {d : Doc} {f : JsonField} {size : Nat}
    (hsize : f.fieldCopyBuffSize = some size) (h : (readField d f).result = .success) :
    ∃ s, (readField d f).copied = some s ∧ s.length < size := by
  unfold readField at h ⊢
  split at h
  · cases h
  · split at h
    · cases h
    · rename_i v _ hkind
      rw [if_neg hkind, hsize]
      simp only [hsize] at h ⊢
      split at h
      · rename_i hfits
        rw [if_pos hfits]
        exact ⟨_, rfl, hfits⟩
      · cases h

theorem referenceJson_copiesFields (budget : Nat) : CopiesFields (referenceJson budget) := by
  intro text fields hsuccess i f size hf hsize
  simp only [referenceJson, referenceRead] at hsuccess ⊢
  cases hparse : parseDoc text with
  | none =>
      simp only [hparse] at hsuccess
      cases hsuccess
  | some d =>
      simp only [hparse] at hsuccess ⊢
      split at hsuccess
      · cases hsuccess
      · rename_i hbudget
        rw [if_neg hbudget]
        split at hsuccess
        · rename_i hkind
          rw [if_pos hkind]
          simp only at hsuccess
          split at hsuccess
          · rename_i hall
            rw [List.all_eq_true] at hall
            have hout := hall (readField d f) (List.mem_map_of_mem (List.mem_of_getElem? hf))
            have hget : ((fields.map (readField d))[i]?).getD missingField = readField d f := by
              rw [List.getElem?_map, hf]
              rfl
            rw [decide_eq_true_eq] at hout
            simp only [hget]
            exact readField_copied hsize hout
          · cases hsuccess
        · cases hsuccess

/-- An instance before its first onboarding, with replies to come. -/
def scriptedThing (replies : List Reply) : KiiThingIf Script where
  commandHandler := scriptedKii replies
  stateUpdater := scriptedKii []
  stateUpdatePeriod := 60
  state := .initialized

theorem onboardWithVendorThingId_exact_scripted :
    ExactHandshake (scriptedSdk 1000) plainArgs
      (scriptedThing [.ok tokenResponse, .ok onboardResponse]) freshError
      (onboardWithVendorThingId (scriptedSdk 1000) plainArgs
        (scriptedThing [.ok tokenResponse, .ok onboardResponse]) freshError) :=
  onboardWithVendorThingId_exact (referenceJson_copiesFields 64) plainArgs (.inl rfl) freshError

end ThingIfSdk
