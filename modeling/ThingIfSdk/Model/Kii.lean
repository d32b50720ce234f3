import ThingIfSdk.Lib.JsonToken

/-!
# The kii_t instance and the submodule behind it

The SDK drives a `kii_t` through the functions of the kii submodule, whose code
is not part of the repository.  The submodule is a parameter here: `RequestApi`
holds what the request functions do to the submodule's own data `σ` (the
request buffer, the socket), `JsonApi` the two parsers, which are functions of
the text they read.

A `kii_t` also carries a log of the calls made on it and of the outcomes that
the functions of the SDK act on.  The log is only written, never read, by the
modelled code; it is what statements about whole runs speak about.
-/

namespace ThingIfSdk

open ByteText JsonText

/-! ## Constants -/

def emessageSize : Nat := 50

def appPath : Bytes := ascii "api/apps/"
def oauthPath : Bytes := ascii "/oauth2/token"
def thingIfAppPath : Bytes := ascii "thing-if/apps/"
def onboardingPath : Bytes := ascii "/onboardings"
def targetPart : Bytes := ascii "/targets/thing:"
def commandPart : Bytes := ascii "/commands/"
def resultsPart : Bytes := ascii "/action-results"
def statesPart : Bytes := ascii "/states"
def thingsPart : Bytes := ascii "/things/"
def firmwareVersionPart : Bytes := ascii "/firmware-version"
def thingTypePart : Bytes := ascii "/thing-type"
def contentTypeJson : Bytes := ascii "application/json"
def contentTypeVendorThingId : Bytes :=
  ascii "application/vnd.kii.OnboardingWithVendorThingIDByThing+json"
def contentTypeThingId : Bytes :=
  ascii "application/vnd.kii.OnboardingWithThingIDByThing+json"
def contentUpdateFirmwareVersion : Bytes :=
  ascii "application/vnd.kii.ThingFirmwareVersionUpdateRequest+json"
def contentUpdateThingType : Bytes :=
  ascii "application/vnd.kii.ThingTypeUpdateRequest+json"
def contentUpdateState : Bytes :=
  ascii "application/vnd.kii.MultipleTraitState+json"
def thingIfInfo : Bytes := ascii "sn=tic;sv=1.0.1"

/-! ## Data -/

/-- `kii_thing_if_state_t`. -/
inductive ThingIfState where
  | initialized
  | onboarded
  | started
deriving DecidableEq, Repr

/-- `kii_thing_if_error_code_t`. -/
inductive ErrorCode where
  | invalidState
  | http
  | socket
  | insufficientBuffer
  | insufficientArgBuffer
  | invalidPayload
deriving DecidableEq, Repr

/-- `kii_thing_if_error_t`; the array `error_code` by the string it holds. -/
structure KiiThingIfError where
  code : ErrorCode
  httpStatusCode : Int
  errorCode : Bytes
deriving DecidableEq

/-- `kii_http_error_t`: why `kii_api_call_run` failed. -/
inductive HttpError where
  | none
  | insufficientBuffer
  | socket
  | invalidResponse
deriving DecidableEq, Repr

/-- `kii_author_t`, by the strings its two arrays hold. -/
structure Author where
  authorId : Bytes
  accessToken : Bytes
deriving DecidableEq

/-- Sizes of the arrays of `kii_author_t`, which its header in the submodule fixes. -/
structure AuthorSizes where
  authorId : Nat
  accessToken : Nat

/-- The arguments of `kii_api_call_start`, with the identity of the `kii_t` that
the headers of the request carry. -/
structure ApiCall where
  appId : Bytes
  appKey : Bytes
  author : Author
  httpMethod : Bytes
  resourcePath : Bytes
  contentType : Option Bytes
  setAuthenticationHeader : Bool
deriving DecidableEq

/-! ## The JSON parsers -/

/-- `kii_json_parse_result_t`. -/
inductive JsonParseResult where
  | success
  | partialSuccess
  | rootTypeError
  | invalidInput
deriving DecidableEq, Repr

/-- `kii_json_field_parse_result_t`, as far as the SDK tells its values apart. -/
inductive JsonFieldResult where
  | success
  | copyFailed
  | other
deriving DecidableEq, Repr

/-- `kii_json_field_type_t`, as far as the SDK requests it. -/
inductive JsonFieldType where
  | string
  | object
  | array
deriving DecidableEq, Repr

/-- A field is asked for by `path` or by `name`. -/
inductive FieldKey where
  | path (p : Bytes)
  | name (n : Bytes)
deriving DecidableEq

/-- The request half of `kii_json_field_t`: no copy buffer, or one of a given size. -/
structure JsonField where
  key : FieldKey
  type : JsonFieldType
  fieldCopyBuffSize : Option Nat
deriving DecidableEq

/-- The answer half of `kii_json_field_t`; `copied` is the string that the copy
buffer holds afterwards, when the parser wrote to it. -/
structure JsonFieldOut where
  result : JsonFieldResult
  start : Nat
  stop : Nat
  copied : Option Bytes

/-- `jsmn_parse` and `kii_json_read_object`.  `jsmn_parse` is given the contents
of the token array and returns the new ones; a negative result is an error. -/
structure JsonApi where
  jsmnParse : Bytes → (Nat → Token) → Int × (Nat → Token)
  kiiJsonReadObject : Bytes → List JsonField → JsonParseResult × (Nat → JsonFieldOut)

/-! ## The request functions -/

/-- What `kii_api_call_run` leaves in the `kii_t`. -/
structure RunResult (σ : Type) where
  ret : Int
  httpError : HttpError
  responseCode : Int
  responseBody : Bytes
  core : σ

/-- What `_kii_init_with_info` leaves in the `kii_t`; it sets the app id and the
app key to its arguments when it succeeds. -/
structure InitResult (σ : Type) where
  ret : Int
  appId : Bytes
  appKey : Bytes
  core : σ

/-- The functions of the submodule that send requests and start tasks. -/
structure RequestApi (σ : Type) where
  /-- The submodule's data in a zeroed `kii_t`. -/
  zeroed : σ
  kiiInitWithInfo : σ → Bytes → Bytes → Bytes → Bytes → InitResult σ
  /-- Hand over the HTTP buffer, by its size. -/
  setBuffer : σ → Nat → σ
  kiiApiCallStart : σ → ApiCall → Int × σ
  kiiApiCallAppendBody : σ → Bytes → Int × σ
  kiiApiCallRun : σ → RunResult σ
  kiiPushStartRoutine : σ → Int × σ
  /-- `task_create_cb`; true for `KII_TASKC_OK`. -/
  taskCreateCb : σ → Bytes → Bool × σ

/-- What the build fixes: the widths of `size_t` and `int`, and the author arrays. -/
structure Platform where
  sizeBits : Nat
  intBits : Nat
  authorSizes : AuthorSizes

/-- The value of an integer expression of type `size_t`. -/
def Platform.sizeT (p : Platform) (x : Int) : Nat :=
  (x % 2 ^ p.sizeBits).toNat

/-- The values of type `int`. -/
def Platform.isInt (p : Platform) (x : Int) : Bool :=
  -2 ^ (p.intBits - 1) ≤ x && x < 2 ^ (p.intBits - 1)

/-- A product of type `int`; when it overflows it has no defined value. -/
def Platform.intMul? (p : Platform) (x y : Int) : Option Int :=
  if p.isInt (x * y) then some (x * y) else none

/-- The conversion of an `int` to `unsigned int`. -/
def Platform.unsignedInt (p : Platform) (x : Int) : Nat :=
  (x % 2 ^ p.intBits).toNat

/-- Everything the SDK is linked with. -/
structure Sdk (σ : Type) where
  api : RequestApi σ
  json : JsonApi
  platform : Platform

/-! ## Instances and their logs -/

/-- One entry of the log of a `kii_t`. -/
inductive Event where
  | callStart (call : ApiCall) (ret : Int)
  /-- A piece of the body appended by the SDK. -/
  | appendBody (bytes : Bytes) (ret : Int)
  /-- A piece of the body appended by `prv_writer` for a state handler. -/
  | write (bytes : Bytes) (ret : Int)
  | stateHandler (ret : Bool)
  | callRun (ret : Int) (httpError : HttpError) (responseCode : Int)
  /-- The resource path of the token request did not fit its array. -/
  | tokenPathTooLong
  /-- The resource path of any other request did not fit its array. -/
  | pathTooLong
  /-- A response was read into the author, and whether a string was written there. -/
  | readAuthor (result : JsonParseResult) (written : Bool)
  /-- A response was read for a property, and whether the copy of it failed. -/
  | readProperty (result : JsonParseResult) (copyFailed : Bool)
  /-- A call of the action handler; with the error message when it returned `KII_FALSE`. -/
  | action (aliasName actionName actionParams : Bytes) (errorMessage : Option Bytes)
  /-- A call of `delay_ms_cb`, with its argument when that has a defined value. -/
  | delayMs (msec : Option Nat)
  | pushStartRoutine (ret : Int)
  | taskCreate (ok : Bool)
  /-- `M_KII_THING_IF_ASSERT(0)`. -/
  | assertion
deriving DecidableEq

/-- A `kii_t`: the fields the SDK reads or writes, and the submodule's data. -/
structure Kii (σ : Type) where
  appId : Bytes
  appKey : Bytes
  author : Author
  httpError : HttpError
  responseCode : Int
  responseBody : Bytes
  core : σ
  log : List Event

variable {σ : Type}

def Kii.emit (kii : Kii σ) (e : Event) : Kii σ :=
  { kii with log := kii.log ++ [e] }

@[simp] theorem Kii.emit_appId (kii : Kii σ) (e : Event) : (kii.emit e).appId = kii.appId := rfl

@[simp] theorem Kii.emit_appKey (kii : Kii σ) (e : Event) : (kii.emit e).appKey = kii.appKey := rfl

@[simp] theorem Kii.emit_author (kii : Kii σ) (e : Event) : (kii.emit e).author = kii.author := rfl

@[simp] theorem Kii.emit_core (kii : Kii σ) (e : Event) : (kii.emit e).core = kii.core := rfl

@[simp] theorem Kii.emit_log (kii : Kii σ) (e : Event) : (kii.emit e).log = kii.log ++ [e] := rfl

/-- Between two states of a `kii_t` only the submodule's data has changed, and
the given entries were added to the log. -/
structure Kii.Adds (before after : Kii σ) (es : List Event) : Prop where
  frame : after = { before with core := after.core, log := after.log }
  log_eq : after.log = before.log ++ es

namespace Kii.Adds

theorem refl (kii : Kii σ) : kii.Adds kii [] :=
  ⟨rfl, (List.append_nil _).symm⟩

theorem trans {k₁ k₂ k₃ : Kii σ} {es es' : List Event} (h : k₁.Adds k₂ es)
    (h' : k₂.Adds k₃ es') : k₁.Adds k₃ (es ++ es') := by
  refine ⟨?_, by rw [h'.log_eq, h.log_eq, List.append_assoc]⟩
  rw [h'.frame, h.frame]

theorem emit (kii : Kii σ) (e : Event) : kii.Adds (kii.emit e) [e] :=
  ⟨rfl, rfl⟩

theorem appId_eq {before after : Kii σ} {es : List Event} (h : before.Adds after es) :
    after.appId = before.appId := by
  rw [h.frame]

theorem author_eq {before after : Kii σ} {es : List Event} (h : before.Adds after es) :
    after.author = before.author := by
  rw [h.frame]

end Kii.Adds

/-! ## Calls into the submodule -/

/-- What a start call hands to the submodule. -/
def Kii.apiCall (kii : Kii σ) (httpMethod resourcePath : Bytes) (contentType : Option Bytes)
    (setAuthenticationHeader : Bool) : ApiCall :=
  { appId := kii.appId
    appKey := kii.appKey
    author := kii.author
    httpMethod := httpMethod
    resourcePath := resourcePath
    contentType := contentType
    setAuthenticationHeader := setAuthenticationHeader }

def kiiApiCallStart (sdk : Sdk σ) (kii : Kii σ) (httpMethod resourcePath : Bytes)
    (contentType : Option Bytes) (setAuthenticationHeader : Bool) : Int × Kii σ :=
  let call := kii.apiCall httpMethod resourcePath contentType setAuthenticationHeader
  let r := sdk.api.kiiApiCallStart kii.core call
  (r.1, { kii with core := r.2 }.emit (.callStart call r.1))

theorem adds_start (sdk : Sdk σ) (kii : Kii σ) (httpMethod resourcePath : Bytes)
    (contentType : Option Bytes) (setAuthenticationHeader : Bool) :
    kii.Adds
      (kiiApiCallStart sdk kii httpMethod resourcePath contentType setAuthenticationHeader).2
      [.callStart (kii.apiCall httpMethod resourcePath contentType setAuthenticationHeader)
        (kiiApiCallStart sdk kii httpMethod resourcePath contentType
          setAuthenticationHeader).1] :=
  ⟨rfl, rfl⟩

def kiiApiCallAppendBody (sdk : Sdk σ) (bytes : Bytes) (kii : Kii σ) : Int × Kii σ :=
  let r := sdk.api.kiiApiCallAppendBody kii.core bytes
  (r.1, { kii with core := r.2 }.emit (.appendBody bytes r.1))

theorem adds_append (sdk : Sdk σ) (bytes : Bytes) (kii : Kii σ) :
    kii.Adds (kiiApiCallAppendBody sdk bytes kii).2
      [.appendBody bytes (kiiApiCallAppendBody sdk bytes kii).1] :=
  ⟨rfl, rfl⟩

def kiiApiCallRun (sdk : Sdk σ) (kii : Kii σ) : Int × Kii σ :=
  let r := sdk.api.kiiApiCallRun kii.core
  (r.ret,
    { kii with
      httpError := r.httpError
      responseCode := r.responseCode
      responseBody := r.responseBody
      core := r.core }.emit (.callRun r.ret r.httpError r.responseCode))

theorem kiiApiCallRun_log (sdk : Sdk σ) (kii : Kii σ) :
    (kiiApiCallRun sdk kii).2.log = kii.log ++ [.callRun (kiiApiCallRun sdk kii).1
      (kiiApiCallRun sdk kii).2.httpError (kiiApiCallRun sdk kii).2.responseCode] := rfl

end ThingIfSdk
