import ThingIfSdk.Model.Request

/-!
# Onboarding

The anonymous token request and the two onboarding requests.  The two are
separate functions in the source and are kept separate here, because they do
not treat a failed start and a failed append alike.
-/

namespace ThingIfSdk

open ByteText JsonText

variable {σ : Type}

/-! ## The anonymous token -/

def tokenField (p : Platform) : JsonField :=
  { key := .path (ascii "/access_token")
    type := .string
    fieldCopyBuffSize := some p.authorSizes.accessToken }

/-- The chain of appends of the token request. -/
def tokenBody (sdk : Sdk σ) (kii : Kii σ) : List (Kii σ → Int × Kii σ) :=
  [kiiApiCallAppendBody sdk (ascii "\x7b"),
    prvAppendKeyValueString sdk (some (ascii "grant_type"))
      (some (ascii "client_credentials")) false,
    prvAppendKeyValueString sdk (some (ascii "client_id")) (some kii.appId) true,
    prvAppendKeyValueString sdk (some (ascii "client_secret")) (some kii.appKey) true,
    kiiApiCallAppendBody sdk (ascii "\x7d")]

/-- The last step of the token request: the token is copied straight into the
author of the `kii_t`. -/
def readToken (sdk : Sdk σ) (c : Call σ) : Int × Call σ :=
  let r := prvKiiThingIfJsonReadObject sdk c.kii.responseBody [tokenField sdk.platform]
  let kii : Kii σ :=
    { c.kii with author := c.kii.author.overwrite none (r.2 0).copied }
  let c' : Call σ := { c with kii := kii.emit (.readAuthor r.1 (r.2 0).copied.isSome) }
  if r.1 ≠ .success then (-1, c'.setCode .invalidPayload) else (0, c')

def prvKiiThingIfGetAnonymousToken (sdk : Sdk σ) (c : Call σ) : Int × Call σ :=
  let parts := [appPath, c.kii.appId, oauthPath]
  if 64 ≤ resourcePathLength sdk.platform parts then
    (-1, (c.emit .tokenPathTooLong).setCode .insufficientBuffer)
  else
    let start := kiiApiCallStart sdk c.kii (ascii "POST") parts.flatten (some contentTypeJson)
      false
    if start.1 ≠ 0 then
      (-1, { c with kii := start.2 }.setCode .insufficientBuffer)
    else
      let body := anyFails (tokenBody sdk c.kii) start.2
      if body.1 then
        (-1, { c with kii := body.2 }.setCode .insufficientBuffer)
      else
        let session := prvExecuteHttpSession sdk { c with kii := body.2 }
        if session.1 = false then (-1, session.2) else readToken sdk session.2

/-! ## Onboarding requests -/

/-- The arguments of an onboarding call; a NULL argument is `none`. -/
structure OnboardArgs where
  id : Bytes
  password : Bytes
  thingType : Option Bytes
  thingProperties : Option Bytes
  firmwareVersion : Option Bytes
  layoutPosition : Option Bytes

/-- The chain of appends of an onboarding request; `idKey` names the id member. -/
def onboardBody (sdk : Sdk σ) (idKey : Bytes) (args : OnboardArgs) :
    List (Kii σ → Int × Kii σ) :=
  [kiiApiCallAppendBody sdk (ascii "\x7b"),
    prvAppendKeyValueString sdk (some idKey) (some args.id) false,
    prvAppendKeyValueString sdk (some (ascii "thingPassword")) (some args.password) true,
    prvAppendKeyValueStringOptional sdk (some (ascii "thingType")) args.thingType true,
    prvAppendKeyValueObjectOptional sdk (some (ascii "thingProperties")) args.thingProperties
      true,
    prvAppendKeyValueStringOptional sdk (some (ascii "firmwareVersion")) args.firmwareVersion
      true,
    prvAppendKeyValueStringOptional sdk (some (ascii "layoutPosition")) args.layoutPosition true,
    kiiApiCallAppendBody sdk (ascii "\x7d")]

def prvOnboardWithVendorThingId (sdk : Sdk σ) (args : OnboardArgs) (c : Call σ) :
    Bool × Call σ :=
  let token := prvKiiThingIfGetAnonymousToken sdk c
  if token.1 ≠ 0 then
    (false, token.2)
  else
    let c := token.2
    match prvSetOnboardResourcePath sdk.platform c.kii.appId 64 with
    | none => (false, { c with kii := c.kii.refusePath })
    | some resourcePath =>
        let start := kiiApiCallStart sdk c.kii (ascii "POST") resourcePath
          (some contentTypeVendorThingId) true
        if start.1 ≠ 0 then
          (false, { c with kii := start.2 }.setCode .insufficientBuffer)
        else
          let body := anyFails (onboardBody sdk (ascii "vendorThingID") args) start.2
          if body.1 then
            (false, { c with kii := body.2 }.setCode .insufficientBuffer)
          else
            let session := prvExecuteHttpSession sdk { c with kii := body.2 }
            if session.1 = false then
              (false, session.2)
            else
              let response := prvThingIfParseOnboardingResponse sdk session.2
              (response.1 = 0, response.2)

/-- The sibling of `prvOnboardWithVendorThingId`: a failed start is only logged,
and a failed append stores no code. -/
def prvOnboardWithThingId (sdk : Sdk σ) (args : OnboardArgs) (c : Call σ) : Bool × Call σ :=
  let token := prvKiiThingIfGetAnonymousToken sdk c
  if token.1 ≠ 0 then
    (false, token.2)
  else
    let c := token.2
    match prvSetOnboardResourcePath sdk.platform c.kii.appId 64 with
    | none => (false, { c with kii := c.kii.refusePath })
    | some resourcePath =>
        let start := kiiApiCallStart sdk c.kii (ascii "POST") resourcePath
          (some contentTypeThingId) true
        let body := anyFails (onboardBody sdk (ascii "thingID") args) start.2
        if body.1 then
          (false, { c with kii := body.2 })
        else
          let session := prvExecuteHttpSession sdk { c with kii := body.2 }
          if session.1 = false then
            (false, session.2)
          else
            let response := prvThingIfParseOnboardingResponse sdk session.2
            (response.1 = 0, response.2)

end ThingIfSdk
