import ThingIfSdk.Model.Onboarding

/-!
# The public functions

Initialisation, onboarding, start, and the functions that read and update the
firmware version and the thing type, each as a function from the instance and
the caller's error record to an `Outcome`.  `Operation` collects them, so that a
run of an application is a list of operations.
-/

namespace ThingIfSdk

open ByteText JsonText

variable {σ : Type}

/-- `kii_thing_if_t`.  The handlers it holds are used by the two tasks only and
are arguments of those. -/
structure KiiThingIf (σ : Type) where
  commandHandler : Kii σ
  stateUpdater : Kii σ
  stateUpdatePeriod : Int
  state : ThingIfState

/-- What an API function returns and leaves behind.  `out` is the string in the
buffer of a getter, when the getter wrote to it. -/
structure Outcome (σ : Type) where
  ret : Bool
  thing : KiiThingIf σ
  error : ErrorSlot
  out : Option Bytes

/-! ## Authors -/

/-- `prv_set_author`: the new author, unless one of the strings is too long. -/
def prvSetAuthor (p : Platform) (thingId accessToken : Bytes) : Option Author :=
  if p.authorSizes.authorId ≤ thingId.length then none
  else if p.authorSizes.accessToken ≤ accessToken.length then none
  else some { authorId := thingId, accessToken := accessToken }

/-! ## Onboarding -/

/-- The common text of the two onboarding functions; `prvOnboard` is the private
function that each of them calls. -/
def onboardWith (sdk : Sdk σ) (prvOnboard : Call σ → Bool × Call σ) (thing : KiiThingIf σ)
    (error : ErrorSlot) : Outcome σ :=
  if thing.state = .started then
    { ret := false, thing := thing, error := error.setCode .invalidState, out := none }
  else
    let r := prvOnboard { kii := thing.commandHandler, error := error }
    let thing' := { thing with commandHandler := r.2.kii }
    if r.1 = false then
      { ret := false, thing := thing', error := r.2.error, out := none }
    else
      match prvSetAuthor sdk.platform r.2.kii.author.authorId r.2.kii.author.accessToken with
      | none => { ret := false, thing := thing', error := r.2.error, out := none }
      | some author =>
          { ret := true
            thing :=
              { thing' with
                stateUpdater := { thing'.stateUpdater with author := author }
                state := .onboarded }
            error := r.2.error
            out := none }

def onboardWithVendorThingId (sdk : Sdk σ) (args : OnboardArgs) (thing : KiiThingIf σ)
    (error : ErrorSlot) : Outcome σ :=
  onboardWith sdk (prvOnboardWithVendorThingId sdk args) thing error

def onboardWithThingId (sdk : Sdk σ) (args : OnboardArgs) (thing : KiiThingIf σ)
    (error : ErrorSlot) : Outcome σ :=
  onboardWith sdk (prvOnboardWithThingId sdk args) thing error

/-! ## Firmware version and thing type -/

/-- A builder of a resource path from the app id and the author id. -/
abbrev PathBuilder := Bytes → Bytes → Nat → Option Bytes

def propertyField (path : Bytes) (size : Nat) : JsonField :=
  { key := .path path, type := .string, fieldCopyBuffSize := some size }

/-- The last step of a getter: clear the caller's buffer and copy the field into it. -/
def readProperty (sdk : Sdk σ) (path : Bytes) (size : Nat) (c : Call σ) :
    Bool × Call σ × Option Bytes :=
  let r := prvKiiThingIfJsonReadObject sdk c.kii.responseBody [propertyField path size]
  let copyFailed : Bool := (r.2 0).result = .copyFailed
  let c' := c.emit (.readProperty r.1 copyFailed)
  let out := some ((r.2 0).copied.getD [])
  if r.1 ≠ .success then
    (false,
      if copyFailed then c'.setCode .insufficientArgBuffer else c'.setCode .invalidPayload, out)
  else
    (true, c', out)

/-- The `KII_THING_IF_STATE_ONBOARDED` branch of a getter. -/
def requestProperty (sdk : Sdk σ) (setPath : PathBuilder) (path : Bytes) (size : Nat)
    (c : Call σ) : Bool × Call σ × Option Bytes :=
  match setPath c.kii.appId c.kii.author.authorId 128 with
  | none => (false, { c with kii := c.kii.refusePath }, none)
  | some resourcePath =>
      let start := prvKiiApiCallStart sdk c (ascii "GET") resourcePath none true
      if start.1 ≠ 0 then
        (false, start.2, none)
      else
        let session := prvExecuteHttpSession sdk start.2
        if session.1 = false then (false, session.2, none)
        else readProperty sdk path size session.2

/-- The chain of appends of an update request. -/
def updateBody (sdk : Sdk σ) (key value : Bytes) : List (Kii σ → Int × Kii σ) :=
  [kiiApiCallAppendBody sdk (ascii "\x7b"),
    prvAppendKeyValueString sdk (some key) (some value) false,
    kiiApiCallAppendBody sdk (ascii "\x7d")]

/-- The `KII_THING_IF_STATE_ONBOARDED` branch of an update function. -/
def updateProperty (sdk : Sdk σ) (setPath : PathBuilder) (contentType key value : Bytes)
    (c : Call σ) : Bool × Call σ :=
  match setPath c.kii.appId c.kii.author.authorId 128 with
  | none => (false, { c with kii := c.kii.refusePath })
  | some resourcePath =>
      let start := prvKiiApiCallStart sdk c (ascii "PUT") resourcePath (some contentType) true
      if start.1 ≠ 0 then
        (false, start.2)
      else
        let body := anyFails (updateBody sdk key value) start.2.kii
        let c' := { start.2 with kii := body.2 }
        if body.1 then (false, c'.setCode .insufficientBuffer)
        else prvExecuteHttpSession sdk c'

/-- The `switch` on the state that getters and update functions start with. -/
def whenOnboarded (thing : KiiThingIf σ) (error : ErrorSlot)
    (request : Call σ → Bool × Call σ × Option Bytes) : Outcome σ :=
  match thing.state with
  | .initialized =>
      { ret := false, thing := thing, error := error.setCode .invalidState, out := none }
  | .started =>
      { ret := false, thing := thing, error := error.setCode .invalidState, out := none }
  | .onboarded =>
      let r := request { kii := thing.commandHandler, error := error }
      { ret := r.1
        thing := { thing with commandHandler := r.2.1.kii }
        error := r.2.1.error
        out := r.2.2 }

def getFirmwareVersion (sdk : Sdk σ) (firmwareVersionLen : Nat) (thing : KiiThingIf σ)
    (error : ErrorSlot) : Outcome σ :=
  whenOnboarded thing error
    (requestProperty sdk (prvSetFirmwareVersionResourcePath sdk.platform)
      (ascii "/firmwareVersion") firmwareVersionLen)

def updateFirmwareVersion (sdk : Sdk σ) (firmwareVersion : Bytes) (thing : KiiThingIf σ)
    (error : ErrorSlot) : Outcome σ :=
  whenOnboarded thing error fun c =>
    let r := updateProperty sdk (prvSetFirmwareVersionResourcePath sdk.platform)
      contentUpdateFirmwareVersion (ascii "firmwareVersion") firmwareVersion c
    (r.1, r.2, none)

def getThingType (sdk : Sdk σ) (thingTypeLen : Nat) (thing : KiiThingIf σ)
    (error : ErrorSlot) : Outcome σ :=
  whenOnboarded thing error
    (requestProperty sdk (prvSetThingTypeResourcePath sdk.platform)
      (ascii "/thingType") thingTypeLen)

def updateThingType (sdk : Sdk σ) (thingType : Bytes) (thing : KiiThingIf σ)
    (error : ErrorSlot) : Outcome σ :=
  whenOnboarded thing error fun c =>
    let r := updateProperty sdk (prvSetThingTypeResourcePath sdk.platform)
      contentUpdateThingType (ascii "thingType") thingType c
    (r.1, r.2, none)

/-! ## Initialisation and start -/

/-- The arguments of the init functions that the modelled code keeps. -/
structure InitArgs where
  appId : Bytes
  appKey : Bytes
  appHost : Bytes
  commandBufferSize : Nat
  updaterBufferSize : Nat
  period : Int

/-- A `kii_t` after `memset(kii_thing_if, 0x00, ...)`. -/
def Kii.zeroed (sdk : Sdk σ) : Kii σ :=
  { appId := []
    appKey := []
    author := { authorId := [], accessToken := [] }
    httpError := .none
    responseCode := 0
    responseBody := []
    core := sdk.api.zeroed
    log := [] }

/-- `_kii_init_with_info` on a zeroed `kii_t`, and the hand-over of its buffer. -/
def initKii (sdk : Sdk σ) (args : InitArgs) (bufferSize : Nat) : Int × Kii σ :=
  let r := sdk.api.kiiInitWithInfo sdk.api.zeroed args.appHost args.appId args.appKey thingIfInfo
  if r.ret ≠ 0 then
    (r.ret, { Kii.zeroed sdk with appId := r.appId, appKey := r.appKey, core := r.core })
  else
    (0,
      { Kii.zeroed sdk with
        appId := args.appId
        appKey := args.appKey
        core := sdk.api.setBuffer r.core bufferSize })

/-- `prv_init_kii_thing_if`; the zeroed `state` field reads
`KII_THING_IF_STATE_INITIALIZED`. -/
def prvInitKiiThingIf (sdk : Sdk σ) (args : InitArgs) : Bool × KiiThingIf σ :=
  let commandHandler := initKii sdk args args.commandBufferSize
  if commandHandler.1 ≠ 0 then
    (false,
      { commandHandler := commandHandler.2
        stateUpdater := Kii.zeroed sdk
        stateUpdatePeriod := 0
        state := .initialized })
  else
    let stateUpdater := initKii sdk args args.updaterBufferSize
    if stateUpdater.1 ≠ 0 then
      (false,
        { commandHandler := commandHandler.2
          stateUpdater := stateUpdater.2
          stateUpdatePeriod := 0
          state := .initialized })
    else
      (true,
        { commandHandler := commandHandler.2
          stateUpdater := stateUpdater.2
          stateUpdatePeriod := args.period
          state := .initialized })

def initKiiThingIf (sdk : Sdk σ) (args : InitArgs) : Bool × KiiThingIf σ :=
  prvInitKiiThingIf sdk args

def initKiiThingIfWithOnboardedThing (sdk : Sdk σ) (args : InitArgs)
    (thingId accessToken : Bytes) : Bool × KiiThingIf σ :=
  let r := prvInitKiiThingIf sdk args
  if r.1 = false then
    (false, r.2)
  else
    match prvSetAuthor sdk.platform thingId accessToken with
    | none => (false, r.2)
    | some commandAuthor =>
        let thing :=
          { r.2 with commandHandler := { r.2.commandHandler with author := commandAuthor } }
        match prvSetAuthor sdk.platform thingId accessToken with
        | none => (false, thing)
        | some updaterAuthor =>
            (true,
              { thing with
                stateUpdater := { thing.stateUpdater with author := updaterAuthor }
                state := .onboarded })

/-- `start`.  The result of `task_create_cb` is not looked at, and `state` is not
assigned. -/
def start (sdk : Sdk σ) (thing : KiiThingIf σ) : Bool × KiiThingIf σ :=
  if thing.state ≠ .onboarded then
    (false, thing)
  else
    let push := sdk.api.kiiPushStartRoutine thing.commandHandler.core
    let commandHandler := { thing.commandHandler with core := push.2 }.emit
      (.pushStartRoutine push.1)
    if push.1 ≠ 0 then
      (false, { thing with commandHandler := commandHandler })
    else
      let task := sdk.api.taskCreateCb thing.stateUpdater.core (ascii "status_update_task")
      (true,
        { thing with
          commandHandler := commandHandler
          stateUpdater := { thing.stateUpdater with core := task.2 }.emit
            (.taskCreate task.1) })

/-! ## Operations -/

/-- A call that an application makes on its instance. -/
inductive Operation where
  | init (args : InitArgs)
  | initWithOnboardedThing (args : InitArgs) (thingId accessToken : Bytes)
  | onboardWithVendorThingId (args : OnboardArgs)
  | onboardWithThingId (args : OnboardArgs)
  | start
  | getFirmwareVersion (firmwareVersionLen : Nat)
  | updateFirmwareVersion (firmwareVersion : Bytes)
  | getThingType (thingTypeLen : Nat)
  | updateThingType (thingType : Bytes)

/-- Make one call. -/
def Operation.run (sdk : Sdk σ) (thing : KiiThingIf σ) (error : ErrorSlot) :
    Operation → Outcome σ
  | .init args =>
      let r := initKiiThingIf sdk args
      { ret := r.1, thing := r.2, error := error, out := none }
  | .initWithOnboardedThing args thingId accessToken =>
      let r := initKiiThingIfWithOnboardedThing sdk args thingId accessToken
      { ret := r.1, thing := r.2, error := error, out := none }
  | .onboardWithVendorThingId args => ThingIfSdk.onboardWithVendorThingId sdk args thing error
  | .onboardWithThingId args => ThingIfSdk.onboardWithThingId sdk args thing error
  | .start =>
      let r := ThingIfSdk.start sdk thing
      { ret := r.1, thing := r.2, error := error, out := none }
  | .getFirmwareVersion len => ThingIfSdk.getFirmwareVersion sdk len thing error
  | .updateFirmwareVersion v => ThingIfSdk.updateFirmwareVersion sdk v thing error
  | .getThingType len => ThingIfSdk.getThingType sdk len thing error
  | .updateThingType v => ThingIfSdk.updateThingType sdk v thing error

end ThingIfSdk
