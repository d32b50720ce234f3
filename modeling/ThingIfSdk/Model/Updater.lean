import ThingIfSdk.Model.Command

/-!
# The status update task

`prv_update_status` builds its resource path once and then sends the state in
rounds that never end.  A run is cut off after a number of rounds.
-/

namespace ThingIfSdk

open ByteText JsonText

variable {σ δ : Type}

/-- `state_update_period * 1000`, as the `unsigned int` that `delay_ms_cb` takes. -/
def delayArgument (p : Platform) (stateUpdatePeriod : Int) : Option Nat :=
  (p.intMul? stateUpdatePeriod 1000).map p.unsignedInt

/-- One round of the loop of `prv_update_status`.  Every failure goes on with the
next round. -/
def updateStatusRound (sdk : Sdk σ) (stateUpdatePeriod : Int) (resourcePath : Bytes)
    (stateHandler : WriterProgram) (kii : Kii σ) : Kii σ :=
  let waited := kii.emit (.delayMs (delayArgument sdk.platform stateUpdatePeriod))
  let start := kiiApiCallStart sdk waited (ascii "PUT") resourcePath (some contentUpdateState)
    true
  if start.1 ≠ 0 then
    start.2
  else
    let written := runWriter sdk stateHandler start.2
    if written.1 = false then written.2 else (kiiApiCallRun sdk written.2).2

/-- The first rounds of the loop; `devices` is the device as each of them finds it. -/
def updateStatusRounds (sdk : Sdk σ) (stateUpdatePeriod : Int) (resourcePath : Bytes)
    (handlers : Handlers σ δ) (devices : Nat → δ) (kii : Kii σ) : Nat → Kii σ
  | 0 => kii
  | rounds + 1 =>
      updateStatusRound sdk stateUpdatePeriod resourcePath
        (handlers.stateHandlerForPeriod (devices rounds))
        (updateStatusRounds sdk stateUpdatePeriod resourcePath handlers devices kii rounds)

/-- `prv_update_status`, cut off after some rounds. -/
def prvUpdateStatus (sdk : Sdk σ) (stateUpdatePeriod : Int) (handlers : Handlers σ δ)
    (devices : Nat → δ) (rounds : Nat) (kii : Kii σ) : Kii σ :=
  match prvSetStateResourcePath sdk.platform kii.appId kii.author.authorId 256 with
  | none => kii.refusePath
  | some resourcePath =>
      updateStatusRounds sdk stateUpdatePeriod resourcePath handlers devices kii rounds

end ThingIfSdk
