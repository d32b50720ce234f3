import ThingIfSdk.Model.Body

/-!
# Resource paths, HTTP sessions and response bodies

The helpers that every request of the SDK shares.  A request function works on
a `Call`: the `kii_t` it was given and the error record of its caller.
-/

namespace ThingIfSdk

open ByteText JsonText

variable {σ : Type}

/-! ## The caller's error record -/

/-- The `error` argument of an API function: the record, absent for NULL, and
the codes stored in it so far, oldest first. -/
structure ErrorSlot where
  record : Option KiiThingIfError
  codes : List ErrorCode

/-- `if (error != NULL) { error->code = code; }` -/
def ErrorSlot.setCode (e : ErrorSlot) (code : ErrorCode) : ErrorSlot :=
  match e.record with
  | none => e
  | some r => { record := some { r with code := code }, codes := e.codes ++ [code] }

/-- What a request function works on. -/
structure Call (σ : Type) where
  kii : Kii σ
  error : ErrorSlot

def Call.setCode (c : Call σ) (code : ErrorCode) : Call σ :=
  { c with error := c.error.setCode code }

def Call.emit (c : Call σ) (e : Event) : Call σ :=
  { c with kii := c.kii.emit e }

@[simp] theorem Call.setCode_kii (c : Call σ) (code : ErrorCode) : (c.setCode code).kii = c.kii :=
  rfl

@[simp] theorem Call.emit_error (c : Call σ) (e : Event) : (c.emit e).error = c.error := rfl

@[simp] theorem Call.emit_kii (c : Call σ) (e : Event) : (c.emit e).kii = c.kii.emit e := rfl

/-! ## Resource paths -/

/-- The sum of the lengths of the parts of a path, as a `size_t`. -/
def resourcePathLength (p : Platform) (parts : List Bytes) : Nat :=
  p.sizeT ((parts.map List.length).sum : Nat)

/-- Write the parts of a path one behind the other into an array of
`resourcePathLen` bytes, unless the guard on the summed lengths refuses. -/
def prvSetResourcePath (p : Platform) (parts : List Bytes) (resourcePathLen : Nat) :
    Option Bytes :=
  if resourcePathLen ≤ resourcePathLength p parts then none else some parts.flatten

def prvSetOnboardResourcePath (p : Platform) (appId : Bytes) (resourcePathLen : Nat) :
    Option Bytes :=
  prvSetResourcePath p [thingIfAppPath, appId, onboardingPath] resourcePathLen

def prvSetStateResourcePath (p : Platform) (appId authorId : Bytes) (resourcePathLen : Nat) :
    Option Bytes :=
  prvSetResourcePath p [thingIfAppPath, appId, targetPart, authorId, statesPart] resourcePathLen

def prvSetFirmwareVersionResourcePath (p : Platform) (appId authorId : Bytes)
    (resourcePathLen : Nat) : Option Bytes :=
  prvSetResourcePath p [thingIfAppPath, appId, thingsPart, authorId, firmwareVersionPart]
    resourcePathLen

def prvSetThingTypeResourcePath (p : Platform) (appId authorId : Bytes)
    (resourcePathLen : Nat) : Option Bytes :=
  prvSetResourcePath p [thingIfAppPath, appId, thingsPart, authorId, thingTypePart]
    resourcePathLen

/-- The refusal of a path builder: it asserts, and its caller gives up. -/
def Kii.refusePath (kii : Kii σ) : Kii σ :=
  (kii.emit .assertion).emit .pathTooLong

/-! ## Sessions -/

/-- `prv_kii_thing_if_json_read_object`; what it adds to the parser is a log line. -/
def prvKiiThingIfJsonReadObject (sdk : Sdk σ) (jsonString : Bytes) (fields : List JsonField) :
    JsonParseResult × (Nat → JsonFieldOut) :=
  sdk.json.kiiJsonReadObject jsonString fields

/-- `prv_kii_api_call_start`: start a request and store the code when it fails. -/
def prvKiiApiCallStart (sdk : Sdk σ) (c : Call σ) (httpMethod resourcePath : Bytes)
    (contentType : Option Bytes) (setAuthenticationHeader : Bool) : Int × Call σ :=
  let r := kiiApiCallStart sdk c.kii httpMethod resourcePath contentType setAuthenticationHeader
  let c' : Call σ := { c with kii := r.2 }
  if r.1 ≠ 0 then (r.1, c'.setCode .insufficientBuffer) else (r.1, c')

def errorCodeField : JsonField :=
  { key := .path (ascii "/errorCode"), type := .string, fieldCopyBuffSize := some 64 }

/-- The branch of `prv_execute_http_session` for a failed `kii_api_call_run`. -/
def sessionNotRun (c : Call σ) : Call σ :=
  match c.error.record with
  | none => c
  | some _ =>
      match c.kii.httpError with
      | .none => c.setCode .insufficientBuffer
      | .insufficientBuffer => c.setCode .insufficientBuffer
      | .socket => c.setCode .socket
      | .invalidResponse => c.emit .assertion

/-- The branch of `prv_execute_http_session` for a status outside 200..299. -/
def sessionRejected (sdk : Sdk σ) (c : Call σ) : Call σ :=
  match c.error.record with
  | none => c
  | some e =>
      let fields := prvKiiThingIfJsonReadObject sdk c.kii.responseBody [errorCodeField]
      { c with
        error :=
          { record := some
              { code := .http
                httpStatusCode := c.kii.responseCode
                errorCode := (fields.2 0).copied.getD e.errorCode }
            codes := c.error.codes ++ [.http] } }

def statusOk (responseCode : Int) : Bool :=
  200 ≤ responseCode && responseCode < 300

def prvExecuteHttpSession (sdk : Sdk σ) (c : Call σ) : Bool × Call σ :=
  let r := kiiApiCallRun sdk c.kii
  let c' : Call σ := { c with kii := r.2 }
  if r.1 ≠ 0 then (false, sessionNotRun c')
  else if statusOk c'.kii.responseCode then (true, c')
  else (false, sessionRejected sdk c')

/-! ## Response bodies -/

def thingIdField (p : Platform) : JsonField :=
  { key := .name (ascii "thingID")
    type := .string
    fieldCopyBuffSize := some p.authorSizes.authorId }

def accessTokenField (p : Platform) : JsonField :=
  { key := .name (ascii "accessToken")
    type := .string
    fieldCopyBuffSize := some p.authorSizes.accessToken }

/-- The strings that a parser wrote into the two arrays of an author. -/
def Author.overwrite (a : Author) (authorId accessToken : Option Bytes) : Author :=
  { authorId := authorId.getD a.authorId, accessToken := accessToken.getD a.accessToken }

/-- `prv_thing_if_parse_onboarding_response`: the fields are copied straight into
the author of the `kii_t`, whatever the overall result. -/
def prvThingIfParseOnboardingResponse (sdk : Sdk σ) (c : Call σ) : Int × Call σ :=
  let r := prvKiiThingIfJsonReadObject sdk c.kii.responseBody
    [thingIdField sdk.platform, accessTokenField sdk.platform]
  let kii : Kii σ :=
    { c.kii with author := c.kii.author.overwrite (r.2 0).copied (r.2 1).copied }
  let written := (r.2 0).copied.isSome || (r.2 1).copied.isSome
  let c' : Call σ := { c with kii := kii.emit (.readAuthor r.1 written) }
  if r.1 ≠ .success then (-1, c'.setCode .invalidPayload) else (0, c')

end ThingIfSdk
