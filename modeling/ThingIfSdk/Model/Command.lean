import ThingIfSdk.Model.Request

/-!
# Commands

What the push task does with a message: `received_callback`, `handle_command`
and the helpers they use.  The message buffer is edited in place, so the state
that the loops work on contains it, and every offset is an offset into it.

A pointer or a length that leads outside the message buffer has no defined
meaning; a run that comes to one ends in `Flow.undefined`.  The loops of the
source have no bound of their own; here each has as many rounds as the fuel it
is given, and a run that needs more ends in `Flow.outOfFuel`.
-/

namespace ThingIfSdk

open ByteText JsonText

variable {σ δ : Type}

/-! ## Callbacks -/

/-- The array `char error[EMESSAGE_SIZE + 1]`. -/
structure ErrorBuff where
  bytes : Bytes
  length_eq : bytes.length = emessageSize + 1

theorem length_zeros : (List.replicate (emessageSize + 1) (0 : Byte)).length = emessageSize + 1 :=
  List.length_replicate

/-- What an action handler returns, writes and does to the device. -/
structure HandlerResult (δ : Type) where
  succeeded : Bool
  error : ErrorBuff
  device : δ

/-- The calls that a state handler makes on its writer, each depending on the
results of the earlier ones, and what it returns in the end. -/
inductive WriterProgram where
  | done (ret : Bool)
  | write (buff : Bytes) (next : Bool → WriterProgram)

/-- The callbacks of the application.  `KII_THING_IF_ACTION_HANDLER` is given
the contents of the error array as it finds them; its other arguments are
`const`. -/
structure Handlers (σ δ : Type) where
  actionHandler : δ → Bytes → Bytes → Bytes → ErrorBuff → HandlerResult δ
  stateHandlerForCommandReaction : δ → WriterProgram
  stateHandlerForPeriod : δ → WriterProgram
  customPushHandler : Option (Kii σ → δ → Bytes → Bool × Kii σ × δ)

/-- The contents of automatic arrays that the source reads or hands out without
having initialised them: the token array of each call that splits an alias or an
action, and the error array of each action with the bytes behind it. -/
structure Stack where
  tokens : Nat → Option Nat → Nat → Token
  error : Nat → Nat → ErrorBuff
  behindError : Nat → Nat → Bytes

/-! ## Sending the state -/

def prvWriter (sdk : Sdk σ) (buff : Bytes) (kii : Kii σ) : Bool × Kii σ :=
  let r := sdk.api.kiiApiCallAppendBody kii.core buff
  let kii' := { kii with core := r.2 }.emit (.write buff r.1)
  if r.1 ≠ 0 then (false, kii') else (true, kii')

/-- Run the calls of a state handler. -/
def runWriter (sdk : Sdk σ) : WriterProgram → Kii σ → Bool × Kii σ
  | .done ret, kii => (ret, kii.emit (.stateHandler ret))
  | .write buff next, kii =>
      let r := prvWriter sdk buff kii
      runWriter sdk (next r.1) r.2

def prvSendState (sdk : Sdk σ) (stateHandler : WriterProgram) (kii : Kii σ) : Bool × Kii σ :=
  match prvSetStateResourcePath sdk.platform kii.appId kii.author.authorId 256 with
  | none => (false, kii.refusePath)
  | some resourcePath =>
      let start := kiiApiCallStart sdk kii (ascii "PUT") resourcePath (some contentUpdateState)
        true
      if start.1 ≠ 0 then
        (false, start.2)
      else
        let written := runWriter sdk stateHandler start.2
        if written.1 = false then
          (false, written.2)
        else
          let run := kiiApiCallRun sdk written.2
          if run.1 ≠ 0 then (false, run.2) else (true, run.2)

/-! ## Elements of an array in the message buffer -/

/-- A key and a value by their offsets in the message buffer and their lengths. -/
structure KeyValue where
  key : Int
  keyLen : Int
  value : Int
  valueLen : Int
deriving DecidableEq

/-- `prv_get_key_and_value_t`, with the output arguments of a success. -/
inductive GetKeyAndValue where
  | success (kv : KeyValue)
  | fail
  | finish
deriving DecidableEq

/-- `prv_kii_thing_if_get_key_and_value_from_json`.  The first three entries of
the token array are looked at whatever number of tokens the parse returned; a
length is the difference of two offsets, so that pointer plus length is always
the end offset of the token. -/
def prvKiiThingIfGetKeyAndValueFromJson (json : JsonApi) (jsonString : Bytes) (base : Int)
    (tokens : Nat → Token) : Option KeyValue :=
  let r := json.jsmnParse jsonString tokens
  if 0 ≤ r.1 then
    if (r.2 0).kind ≠ .object then none
    else if (r.2 1).kind ≠ .string then none
    else some
      { key := base + (r.2 1).start
        keyLen := (r.2 1).stop - (r.2 1).start
        value := base + (r.2 2).start
        valueLen := (r.2 2).stop - (r.2 2).start }
  else
    none

/-- `sprintf(index_str, "/[%lu]", index)`. -/
def indexStr (index : Nat) : Bytes :=
  ascii "/[" ++ ((Nat.toDigits 10 index).map (fun c => c.toNat.toUInt8) ++ ascii "]")

def indexField (index : Nat) : JsonField :=
  { key := .path (indexStr index), type := .object, fieldCopyBuffSize := none }

/-- `get_key_and_value_at_index` on an array in the message buffer. -/
def getKeyAndValueAtIndex (json : JsonApi) (buffer : Bytes) (arrayStr arrayLen : Int)
    (index : Nat) (tokens : Nat → Token) : Option GetKeyAndValue :=
  match slice? buffer arrayStr arrayLen with
  | none => none
  | some array =>
      let r := json.kiiJsonReadObject array [indexField index]
      match r.1 with
      | .success =>
          let itemStr := arrayStr + (r.2 0).start
          match slice? buffer itemStr ((r.2 0).stop - (r.2 0).start) with
          | none => none
          | some item =>
              match prvKiiThingIfGetKeyAndValueFromJson json item itemStr tokens with
              | none => some .fail
              | some kv => some (.success kv)
      -- the source takes this answer for the end of the array
      | .partialSuccess => some .finish
      | .rootTypeError => some .fail
      | .invalidInput => some .fail

/-! ## The dispatch loops -/

/-- How a loop or the function it stands in ends. -/
inductive Flow where
  | finished
  | returned
  | undefined
  | outOfFuel
deriving DecidableEq, Repr

/-- The `kii_t` of the push task and the device its handlers act on. -/
structure Machine (σ δ : Type) where
  kii : Kii σ
  device : δ

/-- What `handle_command` works on. -/
structure CommandState (σ δ : Type) where
  machine : Machine σ δ
  buffer : Bytes

/-- The chain of appends for one entry of the results. -/
def resultBody (sdk : Sdk σ) (name : Bytes) (errorMessage : Option Bytes) :
    List (Kii σ → Int × Kii σ) :=
  [kiiApiCallAppendBody sdk (ascii "\x7b\""),
    kiiApiCallAppendBody sdk name,
    kiiApiCallAppendBody sdk (ascii "\":\x7b"),
    prvAppendKeyValueBool sdk (some (ascii "succeeded")) errorMessage.isNone false,
    prvAppendKeyValueStringOptional sdk (some (ascii "errorMessage")) errorMessage true,
    kiiApiCallAppendBody sdk (ascii "\x7d\x7d")]

/-- Call the action handler.  The error message is what stands in the error array
up to the first NUL from its start on. -/
def callHandler (handlers : Handlers σ δ) (stack : Stack) (aliasIndex actionIndex : Nat)
    (aliasName name value : Bytes) (device : δ) : Option Bytes × δ :=
  let r := handlers.actionHandler device aliasName name value
    (stack.error aliasIndex actionIndex)
  (if r.succeeded then none
    else some (cstr (r.error.bytes ++ stack.behindError aliasIndex actionIndex)), r.device)

/-- Call the action handler and append its result. -/
def performAction (sdk : Sdk σ) (handlers : Handlers σ δ) (stack : Stack)
    (aliasIndex actionIndex : Nat) (aliasName name value : Bytes) (m : Machine σ δ) :
    Bool × Machine σ δ :=
  let r := callHandler handlers stack aliasIndex actionIndex aliasName name value m.device
  let called := m.kii.emit (.action aliasName name value r.1)
  -- a refused comma is logged and otherwise ignored
  let separated :=
    if 0 < aliasIndex ∨ 0 < actionIndex then (kiiApiCallAppendBody sdk (ascii ",") called).2
    else called
  let body := anyFails (resultBody sdk name r.1) separated
  (body.1, { kii := body.2, device := r.2 })

/-- The inner loop body for an action that was found: terminate its name and its
value in place, perform it, and put the two bytes back. -/
def runAction (sdk : Sdk σ) (handlers : Handlers σ δ) (stack : Stack)
    (aliasIndex actionIndex : Nat) (aliasName : Int) (kv : KeyValue) (s : CommandState σ δ) :
    Flow × CommandState σ δ :=
  match peek? s.buffer (kv.key + kv.keyLen), peek? s.buffer (kv.value + kv.valueLen) with
  | some nameSwap, some valueSwap =>
      let buffer := poke (poke s.buffer (kv.key + kv.keyLen) 0) (kv.value + kv.valueLen) 0
      match cstrAt? buffer aliasName, cstrAt? buffer kv.key, cstrAt? buffer kv.value with
      | some aliasText, some name, some value =>
          let r := performAction sdk handlers stack aliasIndex actionIndex aliasText name value
            s.machine
          if r.1 then
            (.returned, { machine := r.2, buffer := buffer })
          else
            (.finished,
              { machine := r.2
                buffer := poke (poke buffer (kv.key + kv.keyLen) nameSwap)
                  (kv.value + kv.valueLen) valueSwap })
      | _, _, _ => (.undefined, { s with buffer := buffer })
  | _, _ => (.undefined, s)

/-- The inner loop, from `action_index` on. -/
def actionLoop (sdk : Sdk σ) (handlers : Handlers σ δ) (stack : Stack) (aliasIndex : Nat)
    (aliasName actions actionsLen : Int) :
    Nat → Nat → CommandState σ δ → Flow × CommandState σ δ
  | 0, _, s => (.outOfFuel, s)
  | fuel + 1, actionIndex, s =>
      match getKeyAndValueAtIndex sdk.json s.buffer actions actionsLen actionIndex
        (stack.tokens aliasIndex (some actionIndex)) with
      | none => (.undefined, s)
      | some .fail => (.returned, s)
      | some .finish => (.finished, s)
      | some (.success kv) =>
          match runAction sdk handlers stack aliasIndex actionIndex aliasName kv s with
          | (.finished, s') =>
              actionLoop sdk handlers stack aliasIndex aliasName actions actionsLen fuel
                (actionIndex + 1) s'
          | r => r

/-- The outer loop body for an alias that was found: terminate its name in place
for the time of the inner loop. -/
def runAlias (sdk : Sdk σ) (handlers : Handlers σ δ) (stack : Stack) (fuel aliasIndex : Nat)
    (kv : KeyValue) (s : CommandState σ δ) : Flow × CommandState σ δ :=
  match peek? s.buffer (kv.key + kv.keyLen) with
  | none => (.undefined, s)
  | some aliasNameSwap =>
      match actionLoop sdk handlers stack aliasIndex kv.key kv.value kv.valueLen fuel 0
        { s with buffer := poke s.buffer (kv.key + kv.keyLen) 0 } with
      | (.finished, s') =>
          (.finished,
            { s' with buffer := poke s'.buffer (kv.key + kv.keyLen) aliasNameSwap })
      | r => r

/-- The outer loop, from `alias_index` on. -/
def aliasLoop (sdk : Sdk σ) (handlers : Handlers σ δ) (stack : Stack)
    (aliasActionsStr aliasActionsLen : Int) (innerFuel : Nat) :
    Nat → Nat → CommandState σ δ → Flow × CommandState σ δ
  | 0, _, s => (.outOfFuel, s)
  | fuel + 1, aliasIndex, s =>
      match getKeyAndValueAtIndex sdk.json s.buffer aliasActionsStr aliasActionsLen aliasIndex
        (stack.tokens aliasIndex none) with
      | none => (.undefined, s)
      | some .fail => (.returned, s)
      | some .finish => (.finished, s)
      | some (.success kv) =>
          match runAlias sdk handlers stack innerFuel aliasIndex kv s with
          | (.finished, s') =>
              aliasLoop sdk handlers stack aliasActionsStr aliasActionsLen innerFuel fuel
                (aliasIndex + 1) s'
          | r => r

/-! ## handle_command -/

def commandIdField : JsonField :=
  { key := .path (ascii "/commandID"), type := .string, fieldCopyBuffSize := none }

def actionsField : JsonField :=
  { key := .path (ascii "/actions"), type := .array, fieldCopyBuffSize := none }

def commandFields : List JsonField :=
  [commandIdField, actionsField]

/-- The `size_t` that the guard of `handle_command` compares with 256. -/
def resultsPathLength (p : Platform) (appId authorId : Bytes) (start stop : Nat) : Nat :=
  p.sizeT
    ((thingIfAppPath.length + appId.length + targetPart.length + authorId.length +
      commandPart.length : Nat) + ((stop : Int) - start - 1) + (resultsPart.length : Nat))

/-- The path that the `strcat` chain assembles. -/
def resultsPath (appId authorId commandId : Bytes) : Bytes :=
  thingIfAppPath ++ (appId ++ (targetPart ++ (authorId ++
    (commandPart ++ (cstr commandId ++ resultsPart)))))

/-- Start the results request. -/
def resultsStart (sdk : Sdk σ) (kii : Kii σ) (commandId : Bytes) : Int × Kii σ :=
  kiiApiCallStart sdk kii (ascii "PUT") (resultsPath kii.appId kii.author.authorId commandId)
    (some contentTypeJson) true

def resultsOpening : Bytes := ascii "\x7b\"actionResults\":["
def resultsClosing : Bytes := ascii "]\x7d"

/-- The end of `handle_command`: close the body, run the request, send the state. -/
def finishCommand (sdk : Sdk σ) (handlers : Handlers σ δ) (m : Machine σ δ) : Machine σ δ :=
  let closing := kiiApiCallAppendBody sdk resultsClosing m.kii
  if closing.1 ≠ 0 then
    { m with kii := closing.2 }
  else
    let run := kiiApiCallRun sdk closing.2
    if run.1 ≠ 0 then
      { m with kii := run.2 }
    else
      { m with
        kii := (prvSendState sdk (handlers.stateHandlerForCommandReaction m.device) run.2).2 }

/-- The part of `handle_command` behind the two fields: both loops, then the end. -/
def dispatchCommand (sdk : Sdk σ) (handlers : Handlers σ δ) (stack : Stack) (fuel : Nat)
    (aliasActionsStr aliasActionsLen : Int) (s : CommandState σ δ) :
    Flow × CommandState σ δ :=
  let opening := kiiApiCallAppendBody sdk resultsOpening s.machine.kii
  let s' := { s with machine := { s.machine with kii := opening.2 } }
  if opening.1 ≠ 0 then
    (.returned, s')
  else
    match aliasLoop sdk handlers stack aliasActionsStr aliasActionsLen fuel fuel 0 s' with
    | (.finished, s'') =>
        (.returned, { s'' with machine := finishCommand sdk handlers s''.machine })
    | r => r

/-- The `switch` on the result of reading the two fields. -/
def commandGoesOn (r : JsonParseResult × (Nat → JsonFieldOut)) : Bool :=
  match r.1 with
  | .success => true
  -- a partial success is let through when the command id was found
  | .partialSuccess => (r.2 0).result = .success
  | .rootTypeError => false
  | .invalidInput => false

/-- `handle_command`. -/
def handleCommand (sdk : Sdk σ) (handlers : Handlers σ δ) (stack : Stack) (fuel : Nat)
    (s : CommandState σ δ) : Flow × CommandState σ δ :=
  let r := prvKiiThingIfJsonReadObject sdk s.buffer commandFields
  let commandId := r.2 0
  let actions := r.2 1
  if commandGoesOn r = false then
    (.returned, s)
  -- the sum leaves out a byte: a path of 256 bytes goes on, although its NUL is written
  -- behind `resource_path`, and the run is modelled as if there were room for it
  else if 256 ≤ resultsPathLength sdk.platform s.machine.kii.appId s.machine.kii.author.authorId
      commandId.start commandId.stop then
    (.returned, s)
  else
    match slice? s.buffer commandId.start ((commandId.stop : Int) - commandId.start) with
    | none => (.undefined, s)
    | some commandIdText =>
        let start := resultsStart sdk s.machine.kii commandIdText
        let s' := { s with machine := { s.machine with kii := start.2 } }
        if start.1 ≠ 0 then
          (.returned, s')
        else
          dispatchCommand sdk handlers stack fuel actions.start
            ((actions.stop : Int) - actions.start) s'

/-- `received_callback`. -/
def receivedCallback (sdk : Sdk σ) (handlers : Handlers σ δ) (stack : Stack) (fuel : Nat)
    (s : CommandState σ δ) : Flow × CommandState σ δ :=
  match handlers.customPushHandler with
  | none => handleCommand sdk handlers stack fuel s
  | some handler =>
      let r := handler s.machine.kii s.machine.device s.buffer
      let s' := { s with machine := { kii := r.2.1, device := r.2.2 } }
      if r.1 then (.returned, s') else handleCommand sdk handlers stack fuel s'

end ThingIfSdk
