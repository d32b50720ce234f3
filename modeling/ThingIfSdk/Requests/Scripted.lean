import ThingIfSdk.Command.Reference
import ThingIfSdk.Requests.Bodies

/-!
# Scripted requests

Request functions that follow a script: `Reply` says what happens to one request,
and the replies are used up in order.  With the parsers of `referenceJson` they
give the statements about requests something to run on.
-/

namespace ThingIfSdk

open ByteText JsonText Staging

/-- What happens to one request. -/
structure Reply where
  startRet : Int
  ret : Int
  httpError : HttpError
  responseCode : Int
  responseBody : Bytes

/-- The room in the request buffer and the replies to come. -/
structure Script where
  room : Nat
  replies : List Reply

def scriptedApi (capacity : Nat) : RequestApi Script where
  zeroed := ⟨0, []⟩
  kiiInitWithInfo core _ appId appKey _ :=
    { ret := 0, appId := appId, appKey := appKey, core := core }
  setBuffer core size := { core with room := size }
  kiiApiCallStart core _ :=
    match core.replies with
    | [] => (-1, core)
    | reply :: _ =>
        if reply.startRet ≠ 0 then (reply.startRet, core) else (0, { core with room := capacity })
  kiiApiCallAppendBody core bytes :=
    if bytes.length ≤ core.room then (0, { core with room := core.room - bytes.length })
    else (-1, core)
  kiiApiCallRun core :=
    match core.replies with
    | [] => { ret := -1, httpError := .socket, responseCode := 0, responseBody := [], core := core }
    | reply :: rest =>
        { ret := reply.ret
          httpError := reply.httpError
          responseCode := reply.responseCode
          responseBody := reply.responseBody
          core := { core with replies := rest } }
  kiiPushStartRoutine core := (0, core)
  taskCreateCb core _ := (true, core)

theorem scriptedApi_fixedBuffer (capacity : Nat) :
    FixedBuffer (scriptedApi capacity) Script.room where
  fits := by
    intro core bytes hle
    simp [scriptedApi, hle]
  refused := by
    intro core bytes hlt
    simp [scriptedApi, Nat.not_le.mpr hlt]

def scriptedSdk (capacity : Nat) : Sdk Script where
  api := scriptedApi capacity
  json := referenceJson 64
  platform := referencePlatform

/-- A `kii_t` of an onboarded instance, with replies to come. -/
def scriptedKii (replies : List Reply) : Kii Script where
  appId := ascii "app"
  appKey := ascii "key"
  author := { authorId := ascii "th.1", accessToken := ascii "token" }
  httpError := .none
  responseCode := 0
  responseBody := []
  core := { room := 0, replies := replies }
  log := []

/-- A caller's error record, as it was before the call. -/
def freshError : ErrorSlot where
  record := some { code := .http, httpStatusCode := 0, errorCode := [] }
  codes := []

/-- A reply with a response body. -/
def Reply.ok (d : Doc) : Reply :=
  { startRet := 0, ret := 0, httpError := .none, responseCode := 200, responseBody := d.render }

/-- A response without a body. -/
def notFound : Reply where
  startRet := 0
  ret := 0
  httpError := .none
  responseCode := 404
  responseBody := []

theorem plain_thingID : ∀ b ∈ ascii "thingID", isPlain b = true := all_plain rfl

/-- `{"access_token":"t"}` -/
def tokenResponse : Doc where
  pre := .none
  val := objectOf (Str.ofPlain (ascii "access_token") (all_plain rfl))
    (.str (Str.ofPlain (ascii "t") (all_plain rfl)))
  post := .none

/-- `{"thingID":"th.2","accessToken":"a"}` -/
def onboardResponse : Doc where
  pre := .none
  val := .obj (.more .none (Str.ofPlain (ascii "thingID") plain_thingID) .none .none
    (.str (Str.ofPlain (ascii "th.2") (all_plain rfl))) .none
    (.last .none (Str.ofPlain (ascii "accessToken") (all_plain rfl)) .none .none
      (.str (Str.ofPlain (ascii "a") (all_plain rfl))) .none))
  post := .none

theorem tokenResponse_read :
    ((referenceJson 64).kiiJsonReadObject tokenResponse.render
        [tokenField referencePlatform]).1 = .success ∧
      (((referenceJson 64).kiiJsonReadObject tokenResponse.render
        [tokenField referencePlatform]).2 0).copied = some (ascii "t") := by
  simp only [referenceJson, referenceRead, parseDoc_render]
  exact ⟨rfl, rfl⟩

theorem onboardResponse_read :
    let r := (referenceJson 64).kiiJsonReadObject onboardResponse.render
      [thingIdField referencePlatform, accessTokenField referencePlatform]
    r.1 = .success ∧ (r.2 0).copied = some (ascii "th.2") ∧ (r.2 1).copied = some (ascii "a") := by
  simp only [referenceJson, referenceRead, parseDoc_render]
  exact ⟨rfl, rfl, rfl⟩

/-- The arguments of an onboarding call without the optional members. -/
def plainArgs : OnboardArgs where
  id := ascii "th.2"
  password := ascii "pass"
  thingType := none
  thingProperties := none
  firmwareVersion := none
  layoutPosition := none

/-! ## Steps of the script -/

theorem append_replies (capacity : Nat) (bytes : Bytes) (kii : Kii Script) :
    (kiiApiCallAppendBody (scriptedSdk capacity) bytes kii).2.core.replies = kii.core.replies := by
  unfold kiiApiCallAppendBody
  simp only [scriptedSdk, scriptedApi, Kii.emit_core]
  split <;> rfl

theorem appendPieces_replies (capacity : Nat) (pieces : List Bytes) (kii : Kii Script) :
    (appendPieces (scriptedSdk capacity) pieces kii).2.core.replies = kii.core.replies := by
  induction pieces generalizing kii with
  | nil => rfl
  | cons p ps ih =>
      rw [appendPieces_cons]
      split
      · exact append_replies capacity p kii
      · rw [ih, append_replies]

/-- A start that fails leaves the request of before as it is. -/
theorem scriptedStart_fails {capacity : Nat} {kii : Kii Script} {reply : Reply}
    {rest : List Reply} (h : kii.core.replies = { reply with startRet := -1 } :: rest)
    (resourcePath : Bytes) (contentType : Option Bytes) :
    let r := kiiApiCallStart (scriptedSdk capacity) kii (ascii "POST") resourcePath contentType
      true
    r.1 = -1 ∧ r.2.core.room = kii.core.room := by
  unfold kiiApiCallStart
  simp only [scriptedSdk, scriptedApi, h]
  exact ⟨rfl, rfl⟩

/-- A start that succeeds empties the request buffer. -/
theorem scriptedStart_succeeds {capacity : Nat} {kii : Kii Script} {reply : Reply}
    {rest : List Reply} (h : kii.core.replies = reply :: rest) (hret : reply.startRet = 0)
    (httpMethod resourcePath : Bytes) (contentType : Option Bytes)
    (setAuthenticationHeader : Bool) :
    let r := kiiApiCallStart (scriptedSdk capacity) kii httpMethod resourcePath contentType
      setAuthenticationHeader
    r.1 = 0 ∧ r.2.core = ⟨capacity, reply :: rest⟩ := by
  unfold kiiApiCallStart
  simp only [scriptedSdk, scriptedApi, h, hret, ne_eq, not_true_eq_false, if_false]
  exact ⟨trivial, rfl⟩

/-- A body that fits is accepted, and the replies stay. -/
theorem bodyStage_scripted {capacity : Nat}
    {body : Kii Script → List (Kii Script → Int × Kii Script)}
    {pieces : Kii Script → List (List Bytes)}
    (hbody : ∀ kii, List.Forall₂ (Appends (scriptedSdk capacity)) (body kii) (pieces kii))
    (failed : Call Script → Call Script) (c : Call Script)
    (hle : (pieces c.kii).flatten.flatten.length ≤ c.kii.core.room) :
    ∃ kii, bodyStage body failed c = (true, { c with kii := kii }) ∧
      kii.appId = c.kii.appId ∧ kii.author = c.kii.author ∧
      kii.core.room = c.kii.core.room - (pieces c.kii).flatten.flatten.length ∧
      kii.core.replies = c.kii.core.replies := by
  have hbuf : FixedBuffer (scriptedSdk capacity).api Script.room := scriptedApi_fixedBuffer capacity
  obtain ⟨hdone, hroom⟩ := hbuf.appendPieces_fits (pieces c.kii).flatten c.kii hle
  have hadds := (appendPieces_effect _ (pieces c.kii).flatten c.kii).done hdone
  refine ⟨_, ?_, hadds.appId_eq, hadds.author_eq, hroom, appendPieces_replies capacity _ c.kii⟩
  unfold bodyStage
  simp only [anyFails_appends (hbody c.kii), hdone, Bool.false_eq_true, if_false]

/-- A `kii_t` behind a good reply. -/
def Kii.answered (kii : Kii Script) (d : Doc) (rest : List Reply) : Kii Script :=
  { kii with
    httpError := .none
    responseCode := 200
    responseBody := d.render
    core := { kii.core with replies := rest }
    log := kii.log ++ [.callRun 0 .none 200] }

theorem session_scripted {capacity : Nat} {c : Call Script} {d : Doc} {rest : List Reply}
    (h : c.kii.core.replies = .ok d :: rest) :
    prvExecuteHttpSession (scriptedSdk capacity) c =
      (true, { c with kii := c.kii.answered d rest }) := by
  have hrun : kiiApiCallRun (scriptedSdk capacity) c.kii = (0, c.kii.answered d rest) := by
    unfold kiiApiCallRun
    simp only [scriptedSdk, scriptedApi, h]
    rfl
  unfold prvExecuteHttpSession
  rw [hrun]
  rfl

/-- With a token response to come, the token request succeeds and uses it up. -/
theorem token_scripted (rest : List Reply) :
    ∃ kii, tokenStages (scriptedSdk 1000)
        ⟨scriptedKii (.ok tokenResponse :: rest), freshError⟩ = (true, ⟨kii, freshError⟩) ∧
      kii.appId = ascii "app" ∧ kii.author = ⟨ascii "th.1", ascii "t"⟩ ∧
      kii.core.replies = rest ∧ 500 ≤ kii.core.room := by
  have hopen : ∃ kii, openStage (scriptedSdk 1000) (tokenPath (scriptedSdk 1000))
      (fun c => (c.emit .tokenPathTooLong).setCode .insufficientBuffer) (ascii "POST")
      (some contentTypeJson) false giveUpInsufficient
      ⟨scriptedKii (.ok tokenResponse :: rest), freshError⟩ = (true, ⟨kii, freshError⟩) ∧
      kii.appId = ascii "app" ∧ kii.appKey = ascii "key" ∧
      kii.author = ⟨ascii "th.1", ascii "token"⟩ ∧
      kii.core = ⟨1000, .ok tokenResponse :: rest⟩ := ⟨_, rfl, rfl, rfl, rfl, rfl⟩
  obtain ⟨kii₁, hopen, happ, hkey, hauthor, hcore⟩ := hopen
  have hlen : (tokenPieces kii₁).flatten.flatten.length ≤ 100 := by
    unfold tokenPieces
    rw [happ, hkey]
    decide
  obtain ⟨kii₂, hbody, happ₂, hauthor₂, hroom, hreplies⟩ := bodyStage_scripted
    (tokenBody_appends (scriptedSdk 1000)) (fun c => c.setCode .insufficientBuffer)
    ⟨kii₁, freshError⟩ (by simp only [hcore]; omega)
  simp only [hcore] at hroom hreplies
  have hsession : prvExecuteHttpSession (scriptedSdk 1000) ⟨kii₂, freshError⟩ =
      (true, ⟨kii₂.answered tokenResponse rest, freshError⟩) := session_scripted hreplies
  obtain ⟨hsuccess, hcopied⟩ := tokenResponse_read
  have hread : ∃ kii, intStage (readToken (scriptedSdk 1000))
      ⟨kii₂.answered tokenResponse rest, freshError⟩ = (true, ⟨kii, freshError⟩) ∧
      kii.appId = kii₂.appId ∧ kii.author = ⟨kii₂.author.authorId, ascii "t"⟩ ∧
      kii.core = { kii₂.core with replies := rest } := by
    unfold intStage readToken prvKiiThingIfJsonReadObject
    simp only [scriptedSdk, Kii.answered, hsuccess, hcopied, ne_eq, not_true_eq_false, if_false]
    exact ⟨_, rfl, rfl, rfl, rfl⟩
  obtain ⟨kii₃, hread, happ₃, hauthor₃, hcore₃⟩ := hread
  refine ⟨kii₃, ?_, ?_, ?_, ?_, ?_⟩
  · rw [tokenStages, Stage.andThen_of_goesOn hopen, Stage.andThen_of_goesOn hbody,
      Stage.andThen_of_goesOn hsession]
    exact hread
  · rw [happ₃, happ₂, happ]
  · rw [hauthor₃, hauthor₂, hauthor]
  · rw [hcore₃]
  · rw [hcore₃]
    show 500 ≤ kii₂.core.room
    omega

end ThingIfSdk
