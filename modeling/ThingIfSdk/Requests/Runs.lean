import ThingIfSdk.Lib.Run
import ThingIfSdk.Requests.Assertions

/-!
# Runs of an application

An application initialises an instance and then calls the public functions on it,
in any order, with the init functions among them.
-/

namespace ThingIfSdk

open ByteText JsonText Staging Running

variable {σ : Type}

/-- A call of a public function, with its `error` argument. -/
structure Invocation where
  operation : Operation
  error : ErrorSlot

/-- The public functions as a machine on the instance. -/
def apiMachine (sdk : Sdk σ) : Transducer (KiiThingIf σ) Invocation (Outcome σ) where
  step thing call :=
    let out := call.operation.run sdk thing call.error
    (out, out.thing)

/-- The call by which an application comes to its instance. -/
inductive Initialisation where
  | plain (args : InitArgs)
  | withOnboardedThing (args : InitArgs) (thingId accessToken : Bytes)

/-- The instance that it leaves, whether it succeeds or not. -/
def Initialisation.thing (sdk : Sdk σ) : Initialisation → KiiThingIf σ
  | .plain args => (initKiiThingIf sdk args).2
  | .withOnboardedThing args thingId accessToken =>
      (initKiiThingIfWithOnboardedThing sdk args thingId accessToken).2

/-- The calls behind an initialisation. -/
def apiSteps (sdk : Sdk σ) (init : Initialisation) (calls : List Invocation) :
    List (Step (KiiThingIf σ) Invocation (Outcome σ)) :=
  (apiMachine sdk).steps (init.thing sdk) calls

/-- The init functions. -/
def Operation.isInit : Operation → Bool
  | .init _ => true
  | .initWithOnboardedThing .. => true
  | _ => false

/-- An initialisation leaves two empty logs. -/
theorem Initialisation.thing_log (sdk : Sdk σ) (init : Initialisation) :
    (init.thing sdk).commandHandler.log = [] ∧ (init.thing sdk).stateUpdater.log = [] := by
  cases init with
  | plain args => exact prvInitKiiThingIf_log sdk args
  | withOnboardedThing args thingId accessToken =>
      exact initWithOnboardedThing_log sdk args thingId accessToken

theorem isInit_log (sdk : Sdk σ) (thing : KiiThingIf σ) (error : ErrorSlot) {op : Operation}
    (hop : op.isInit = true) :
    (op.run sdk thing error).thing.commandHandler.log = [] ∧
      (op.run sdk thing error).thing.stateUpdater.log = [] := by
  cases op with
  | init args => exact prvInitKiiThingIf_log sdk args
  | initWithOnboardedThing args thingId accessToken =>
      exact initWithOnboardedThing_log sdk args thingId accessToken
  | _ => cases hop

/-- A function is an init function, or `start`, or has an `error` argument. -/
theorem Operation.cases_kind (op : Operation) :
    op.isInit = true ∨ op = .start ∨ op.takesError = true := by
  cases op with
  | init args => exact .inl rfl
  | initWithOnboardedThing args thingId accessToken => exact .inl rfl
  | start => exact .inr (.inl rfl)
  | _ => exact .inr (.inr rfl)

theorem after_eq_of_mem {sdk : Sdk σ} {init : Initialisation} {calls : List Invocation}
    {x : Step (KiiThingIf σ) Invocation (Outcome σ)} (h : x ∈ apiSteps sdk init calls) :
    x.output = x.input.operation.run sdk x.before x.input.error ∧ x.after = x.output.thing := by
  have hx := Transducer.eq_stepAt_of_mem h
  rw [hx]
  exact ⟨rfl, rfl⟩

/-- The arguments of a sample initialisation. -/
def sampleInit : InitArgs where
  appId := ascii "app"
  appKey := ascii "key"
  appHost := ascii "host"
  commandBufferSize := 1000
  updaterBufferSize := 1000
  period := 60

end ThingIfSdk
