import ThingIfSdk.Requests.Discipline
import ThingIfSdk.Requests.Failures

/-!
# The two onboarding functions in parts

Both make a token request and then their own, `vendorStage` and `thingIdRequest`.
`prv_onboard_with_thing_id` differs from its sibling in two steps: it goes on when its
request was not started, and it stores no code when the body is refused.
-/

namespace ThingIfSdk

open ByteText JsonText Staging

variable {σ : Type}

/-- The body of the onboarding request is refused, whether it was started or not. -/
def RefusesBody (sdk : Sdk σ) (args : OnboardArgs) (c : Call σ) : Prop :=
  ∃ resourcePath, prvSetOnboardResourcePath sdk.platform c.kii.appId 64 = some resourcePath ∧
    let start := kiiApiCallStart sdk c.kii (ascii "POST") resourcePath (some contentTypeThingId)
      true
    (anyFails (onboardBody sdk (ascii "thingID") args) start.2).1 = true

/-- What follows the request of an onboarding call. -/
def onboardSession (sdk : Sdk σ) : Stage (Call σ) :=
  Stage.andThen (prvExecuteHttpSession sdk) (intStage (prvThingIfParseOnboardingResponse sdk))

/-- `prv_onboard_with_thing_id` behind its token request. -/
def thingIdRequest (sdk : Sdk σ) (args : OnboardArgs) : Stage (Call σ) :=
  (thingIdOpen sdk).andThen
    ((bodyStage (fun _ => onboardBody sdk (ascii "thingID") args) id).andThen (onboardSession sdk))

theorem prvOnboardWithThingId_request (sdk : Sdk σ) (args : OnboardArgs) :
    prvOnboardWithThingId sdk args = (tokenStages sdk).andThen (thingIdRequest sdk args) := by
  rw [prvOnboardWithThingId_eq]
  rfl

theorem Kii.Logs.trans {k₁ k₂ k₃ : Kii σ} {es es' : List Event} (h : k₁.Logs k₂ es)
    (h' : k₂.Logs k₃ es') : k₁.Logs k₃ (es ++ es') :=
  ⟨h'.appId_eq.trans h.appId_eq, h'.author_eq.trans h.author_eq,
    by rw [h'.log_eq, h.log_eq, List.append_assoc]⟩

/-- `prv_onboard_with_vendor_thing_id` behind its token request. -/
def vendorStage (sdk : Sdk σ) (args : OnboardArgs) : Stage (Call σ) :=
  (openStage sdk (fun kii => prvSetOnboardResourcePath sdk.platform kii.appId 64) refusedPath
      (ascii "POST") (some contentTypeVendorThingId) true giveUpInsufficient).andThen
    ((bodyStage (fun _ => onboardBody sdk (ascii "vendorThingID") args)
      fun c => c.setCode .insufficientBuffer).andThen (onboardSession sdk))

theorem prvOnboardWithVendorThingId_request (sdk : Sdk σ) (args : OnboardArgs) :
    prvOnboardWithVendorThingId sdk args = (tokenStages sdk).andThen (vendorStage sdk args) := by
  rw [prvOnboardWithVendorThingId_eq]
  rfl

section

variable {sdk : Sdk σ}

/-- With a token, the private functions come to what follows the token request. -/
theorem prvOnboardWithVendorThingId_of_token {c : Call σ} (h : (tokenStages sdk c).1 = true)
    (args : OnboardArgs) :
    prvOnboardWithVendorThingId sdk args c = vendorStage sdk args (tokenStages sdk c).2 := by
  rw [prvOnboardWithVendorThingId_request]
  exact Stage.andThen_of_true h _

theorem prvOnboardWithThingId_of_token {c : Call σ} (h : (tokenStages sdk c).1 = true)
    (args : OnboardArgs) :
    prvOnboardWithThingId sdk args c = thingIdRequest sdk args (tokenStages sdk c).2 := by
  rw [prvOnboardWithThingId_request]
  exact Stage.andThen_of_true h _

theorem tokenStages_of_zero {c : Call σ} (h : (prvKiiThingIfGetAnonymousToken sdk c).1 = 0) :
    tokenStages sdk c = (true, (prvKiiThingIfGetAnonymousToken sdk c).2) := by
  rw [← intStage_token, intStage, h]
  rfl

end

/-! ## The public functions around the private ones -/

theorem onboardWith_started (sdk : Sdk σ) (f : Call σ → Bool × Call σ) {thing : KiiThingIf σ}
    (h : thing.state = .started) (error : ErrorSlot) :
    onboardWith sdk f thing error =
      { ret := false, thing := thing, error := error.setCode .invalidState, out := none } := by
  unfold onboardWith
  exact if_pos h

/-- A private function that fails ends the public one. -/
theorem onboardWith_of_failed (sdk : Sdk σ) {f : Call σ → Bool × Call σ} {thing : KiiThingIf σ}
    (h : thing.state ≠ .started) {error : ErrorSlot} {c : Call σ}
    (hf : f ⟨thing.commandHandler, error⟩ = (false, c)) :
    onboardWith sdk f thing error =
      { ret := false
        thing := { thing with commandHandler := c.kii }
        error := c.error
        out := none } := by
  unfold onboardWith
  rw [if_neg h]
  simp only [hf, if_true]

/-- What the public function takes over from the private one. -/
theorem onboardWith_passes (sdk : Sdk σ) (f : Call σ → Bool × Call σ) {thing : KiiThingIf σ}
    (h : thing.state ≠ .started) (error : ErrorSlot) :
    (onboardWith sdk f thing error).error = (f ⟨thing.commandHandler, error⟩).2.error ∧
      (onboardWith sdk f thing error).thing.commandHandler =
        (f ⟨thing.commandHandler, error⟩).2.kii := by
  unfold onboardWith
  rw [if_neg h]
  simp only
  split
  · exact ⟨rfl, rfl⟩
  · split <;> exact ⟨rfl, rfl⟩

end ThingIfSdk
