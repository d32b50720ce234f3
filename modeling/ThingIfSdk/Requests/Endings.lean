import ThingIfSdk.Requests.Handshake
import ThingIfSdk.Requests.Siblings

/-!
# How calls of the public functions end

A call goes well, or gives up at a step whose failure it stores, or comes to one of
the steps whose failure it passes over: a `Lapse`.  `Operation.lapse` computes from
the instance and the transport which of these a call comes to, and `operation_ends`
lists what each ending leaves behind.
-/

namespace ThingIfSdk

open ByteText JsonText Staging

variable {σ : Type}

/-! ## Lapses -/

/-- A step whose failure is not stored, or not even acted on. -/
inductive Lapse where
  /-- A path builder refuses, and its caller gives up without a code. -/
  | pathRefused
  /-- `prv_onboard_with_thing_id` gives up at its body without a code. -/
  | bodyRefused
  /-- `prv_onboard_with_thing_id` goes on with a request that was not started. -/
  | startIgnored
deriving DecidableEq, Repr

def pathLapse : Option Bytes → Option Lapse
  | none => some .pathRefused
  | some _ => none

/-- `prv_onboard_with_vendor_thing_id` behind its token request. -/
def vendorLapse (sdk : Sdk σ) (c : Call σ) : Option Lapse :=
  pathLapse (prvSetOnboardResourcePath sdk.platform c.kii.appId 64)

/-- `prv_onboard_with_thing_id` behind its token request. -/
def thingIdLapse (sdk : Sdk σ) (args : OnboardArgs) (c : Call σ) : Option Lapse :=
  match prvSetOnboardResourcePath sdk.platform c.kii.appId 64 with
  | none => some .pathRefused
  | some resourcePath =>
      let start := kiiApiCallStart sdk c.kii (ascii "POST") resourcePath (some contentTypeThingId)
        true
      if (anyFails (onboardBody sdk (ascii "thingID") args) start.2).1 then some .bodyRefused
      else if start.1 ≠ 0 then some .startIgnored
      else none

/-- An onboarding function comes to a lapse only with a token. -/
def onboardLapse (sdk : Sdk σ) (lapse : Call σ → Option Lapse) (c : Call σ) : Option Lapse :=
  let token := prvKiiThingIfGetAnonymousToken sdk c
  if token.1 ≠ 0 then none else lapse token.2

/-- The states in which an operation does something. -/
def Operation.admits : Operation → ThingIfState → Bool
  | .onboardWithVendorThingId _, state => state ≠ .started
  | .onboardWithThingId _, state => state ≠ .started
  | .getFirmwareVersion _, state => state = .onboarded
  | .updateFirmwareVersion _, state => state = .onboarded
  | .getThingType _, state => state = .onboarded
  | .updateThingType _, state => state = .onboarded
  | _, _ => true

/-- The functions with an `error` argument. -/
def Operation.takesError : Operation → Bool
  | .init _ => false
  | .initWithOnboardedThing .. => false
  | .start => false
  | _ => true

/-- The lapse that a call comes to. -/
def Operation.lapse (sdk : Sdk σ) (thing : KiiThingIf σ) (error : ErrorSlot) :
    Operation → Option Lapse
  | .onboardWithVendorThingId _ =>
      onboardLapse sdk (vendorLapse sdk) ⟨thing.commandHandler, error⟩
  | .onboardWithThingId args =>
      onboardLapse sdk (thingIdLapse sdk args) ⟨thing.commandHandler, error⟩
  | .getFirmwareVersion _ =>
      pathLapse (prvSetFirmwareVersionResourcePath sdk.platform thing.commandHandler.appId
        thing.commandHandler.author.authorId 128)
  | .updateFirmwareVersion _ =>
      pathLapse (prvSetFirmwareVersionResourcePath sdk.platform thing.commandHandler.appId
        thing.commandHandler.author.authorId 128)
  | .getThingType _ =>
      pathLapse (prvSetThingTypeResourcePath sdk.platform thing.commandHandler.appId
        thing.commandHandler.author.authorId 128)
  | .updateThingType _ =>
      pathLapse (prvSetThingTypeResourcePath sdk.platform thing.commandHandler.appId
        thing.commandHandler.author.authorId 128)
  | _ => none

/-! ## Endings -/

/-- How the private function behind a call ends, by the lapse that it comes to. -/
inductive CallEnds (sdk : Sdk σ) (before : Call σ) : Option Lapse → Bool → Call σ → Prop where
  | goesOn {c : Call σ} (h : Going before c) : CallEnds sdk before none true c
  | givesUp {c : Call σ} (h : GaveUp sdk before c) : CallEnds sdk before none false c
  | pathRefused {c : Call σ} (h : Going before c) :
      CallEnds sdk before (some .pathRefused) false (refusedPath c)
  | bodyRefused {c : Call σ} (h : Going before c) {call : ApiCall} {ret : Int}
      {front : List Bytes} {p : Bytes} {ret' : Int} {kii : Kii σ}
      (hlogs : c.kii.Logs kii (.callStart call ret :: (accepted front ++ [.appendBody p ret']))) :
      CallEnds sdk before (some .bodyRefused) false { c with kii := kii }
  | startIgnored {c c' : Call σ} (h : Going before c) {call : ApiCall} {ret : Int}
      (hret : ret ≠ 0) {pieces : List Bytes} {kii : Kii σ}
      (hlogs : c.kii.Logs kii (.callStart call ret :: accepted pieces)) {goesOn : Bool}
      (hon : goesOn = true → Going { c with kii := kii } c')
      (hup : goesOn = false → GaveUp sdk { c with kii := kii } c') :
      CallEnds sdk before (some .startIgnored) goesOn c'

section

variable {sdk : Sdk σ} {before : Call σ}

theorem CallEnds.of_triple {f : Stage (Call σ)} {P : Call σ → Prop}
    (h : Stage.Triple P f (Going before) (GaveUp sdk before)) {c : Call σ} (hc : P c) :
    CallEnds sdk before none (f c).1 (f c).2 := by
  cases hend : (f c).1 with
  | true => exact .goesOn (h.goesOn c hc hend)
  | false => exact .givesUp (h.givesUp c hc hend)

/-- A call that has gone on so far ends as what follows ends. -/
theorem CallEnds.behind {c c' : Call σ} {lapse : Option Lapse} {goesOn : Bool}
    (h : Going before c) (hend : CallEnds sdk c lapse goesOn c') :
    CallEnds sdk before lapse goesOn c' := by
  have hgoing : ∀ {c'}, Going c c' → Going before c' := by
    rintro c' ⟨herror, happ, es, hlog, hes⟩
    exact h.append herror happ hlog hes
  have hgaveUp : ∀ {c'}, GaveUp sdk c c' → GaveUp sdk before c' := by
    rintro c' ⟨es, last, hlog, hes, hlast⟩
    exact h.givesUp hlog hes hlast
  cases hend with
  | goesOn hon => exact .goesOn (hgoing hon)
  | givesUp hup => exact .givesUp (hgaveUp hup)
  | pathRefused hon => exact .pathRefused (hgoing hon)
  | bodyRefused hon hlogs => exact .bodyRefused (hgoing hon) hlogs
  | startIgnored hon hret hlogs hgoesOn hgivesUp =>
      exact .startIgnored (hgoing hon) hret hlogs hgoesOn hgivesUp

/-! ## Onboarding -/

theorem vendorStage_ends (args : OnboardArgs) (c : Call σ) :
    CallEnds sdk c (vendorLapse sdk c) (vendorStage sdk args c).1 (vendorStage sdk args c).2 := by
  unfold vendorLapse
  cases hpath : prvSetOnboardResourcePath sdk.platform c.kii.appId 64 with
  | none =>
      have hrefused : vendorStage sdk args c = (false, refusedPath c) :=
        Stage.andThen_of_givesUp (openStage_of_no_path sdk _ _ _ _ _ hpath) _
      rw [hrefused]
      exact .pathRefused (.refl c)
  | some resourcePath =>
      exact .of_triple (ends_vendorRequest args (by simp [hpath])) (Going.refl c)

theorem thingIdRequest_ends (args : OnboardArgs) (c : Call σ) :
    CallEnds sdk c (thingIdLapse sdk args c) (thingIdRequest sdk args c).1
      (thingIdRequest sdk args c).2 := by
  unfold thingIdRequest thingIdLapse
  cases hpath : prvSetOnboardResourcePath sdk.platform c.kii.appId 64 with
  | none =>
      have hopen : thingIdOpen sdk c = (false, refusedPath c) :=
        openStage_of_no_path sdk _ _ _ _ _ hpath
      rw [Stage.andThen_of_givesUp hopen]
      exact .pathRefused (.refl c)
  | some resourcePath =>
      have hstart := (adds_start sdk c.kii (ascii "POST") resourcePath (some contentTypeThingId)
        true).logs
      rw [Stage.andThen_of_goesOn (thingIdOpen_of_path sdk hpath)]
      simp only
      generalize kiiApiCallStart sdk c.kii (ascii "POST") resourcePath
        (some contentTypeThingId) true = r at hstart
      have hbody : ∀ kii : Kii σ, List.Forall₂ (Appends sdk)
          ((fun _ => onboardBody sdk (ascii "thingID") args) kii)
          ((fun _ => onboardPieces (ascii "thingID") args) kii) :=
        fun _ => onboardBody_appends sdk (ascii "thingID") args
      cases hflag : (anyFails (onboardBody sdk (ascii "thingID") args) r.2).1 with
      | true =>
          obtain ⟨front, p, ret, -, hlogs, h⟩ :=
            @bodyStage_refused _ _ _ _ hbody id ⟨r.2, c.error⟩ hflag
          rw [Stage.andThen_of_givesUp h, if_pos rfl]
          exact .bodyRefused (.refl c) (hstart.trans hlogs)
      | false =>
          obtain ⟨hlogs, h⟩ := @bodyStage_accepted _ _ _ _ hbody id ⟨r.2, c.error⟩ hflag
          have hgood : r.1 = 0 → Going c
              ⟨(anyFails (onboardBody sdk (ascii "thingID") args) r.2).2, c.error⟩ := by
            intro hret
            rw [hret] at hstart
            have hlogs' := hstart.trans hlogs
            refine (Going.refl c).append rfl hlogs'.appId_eq hlogs'.log_eq fun e he => ?_
            rcases List.mem_append.mp he with he | he
            · rw [List.mem_singleton.mp he]
              rfl
            · exact isGood_of_mem_accepted he
          rw [Stage.andThen_of_goesOn h, if_neg Bool.false_ne_true]
          by_cases hret : r.1 = 0
          · rw [if_neg (not_not.mpr hret)]
            exact .of_triple ends_onboardSession (hgood hret)
          · rw [if_pos hret]
            exact .startIgnored (.refl c) hret (hstart.trans hlogs)
              (ends_onboardSession.goesOn _ (Going.refl _))
              (ends_onboardSession.givesUp _ (Going.refl _))

/-- The two onboarding functions, whatever follows their token requests. -/
theorem onboard_ends {prvOnboard : Call σ → Bool × Call σ} {request : Stage (Call σ)}
    (hparts : prvOnboard = (tokenStages sdk).andThen request) {lapse : Call σ → Option Lapse}
    (hrequest : ∀ c, CallEnds sdk c (lapse c) (request c).1 (request c).2) (c : Call σ) :
    CallEnds sdk c (onboardLapse sdk lapse c) (prvOnboard c).1 (prvOnboard c).2 := by
  have hstages := intStage_token sdk
  unfold onboardLapse
  rw [hparts]
  cases hok : (tokenStages sdk c).1 with
  | false =>
      have hret : (prvKiiThingIfGetAnonymousToken sdk c).1 ≠ 0 := by
        rw [← hstages, intStage, decide_eq_false_iff_not] at hok
        exact hok
      rw [Stage.andThen_of_false hok]
      simp only [if_pos hret]
      exact .givesUp (ends_token.givesUp c (Going.refl c) hok)
  | true =>
      obtain ⟨hret, hcall⟩ := token_of_stages (Prod.ext hok rfl)
      rw [Stage.andThen_of_true hok]
      simp only [hret, hcall, ne_eq, not_true_eq_false, if_false]
      exact (hrequest _).behind (ends_token.goesOn c (Going.refl c) hok)

/-! ## Properties -/

theorem requestProperty_ends (setPath : PathBuilder) (path : Bytes) (size : Nat) (c : Call σ) :
    CallEnds sdk c (pathLapse (setPath c.kii.appId c.kii.author.authorId 128))
      (requestProperty sdk setPath path size c).1
      (requestProperty sdk setPath path size c).2.1 := by
  cases hpath : setPath c.kii.appId c.kii.author.authorId 128 with
  | none =>
      unfold requestProperty
      simp only [hpath]
      exact .pathRefused (.refl c)
  | some resourcePath =>
      exact .of_triple (ends_requestProperty path size (by simp [hpath])) rfl

theorem updateProperty_ends (setPath : PathBuilder) (contentType key value : Bytes)
    (c : Call σ) :
    CallEnds sdk c (pathLapse (setPath c.kii.appId c.kii.author.authorId 128))
      (updateProperty sdk setPath contentType key value c).1
      (updateProperty sdk setPath contentType key value c).2 := by
  cases hpath : setPath c.kii.appId c.kii.author.authorId 128 with
  | none =>
      unfold updateProperty
      simp only [hpath]
      exact .pathRefused (.refl c)
  | some resourcePath =>
      exact .of_triple (ends_updateProperty contentType key value (by simp [hpath])) rfl

/-! ## The public functions -/

/-- Between the ends of a call of a public function stands a private one. -/
structure OperationEnds (sdk : Sdk σ) (thing : KiiThingIf σ) (error : ErrorSlot)
    (lapse : Option Lapse) (out : Outcome σ) : Prop where
  ends : ∃ goesOn, CallEnds sdk ⟨thing.commandHandler, error⟩ lapse goesOn
      ⟨out.thing.commandHandler, out.error⟩ ∧
    (CopiesFields sdk.json → out.ret = goesOn)

theorem operationEnds_onboardWith {prvOnboard : Call σ → Bool × Call σ} {thing : KiiThingIf σ}
    {error : ErrorSlot} {lapse : Option Lapse} (hstate : thing.state ≠ .started)
    (hend : CallEnds sdk ⟨thing.commandHandler, error⟩ lapse
      (prvOnboard ⟨thing.commandHandler, error⟩).1 (prvOnboard ⟨thing.commandHandler, error⟩).2)
    (hauthor : CopiesFields sdk.json → (prvOnboard ⟨thing.commandHandler, error⟩).1 = true →
      prvSetAuthor sdk.platform
        (prvOnboard ⟨thing.commandHandler, error⟩).2.kii.author.authorId
        (prvOnboard ⟨thing.commandHandler, error⟩).2.kii.author.accessToken ≠ none) :
    OperationEnds sdk thing error lapse (onboardWith sdk prvOnboard thing error) := by
  obtain ⟨hslot, hkii⟩ := onboardWith_passes sdk prvOnboard hstate error
  refine ⟨(prvOnboard ⟨thing.commandHandler, error⟩).1, ?_, ?_⟩
  · rw [hslot, hkii]
    exact hend
  · intro hjson
    unfold onboardWith
    rw [if_neg hstate]
    simp only
    cases hret : (prvOnboard ⟨thing.commandHandler, error⟩).1 with
    | false => rfl
    | true =>
        cases hset : prvSetAuthor sdk.platform
            (prvOnboard ⟨thing.commandHandler, error⟩).2.kii.author.authorId
            (prvOnboard ⟨thing.commandHandler, error⟩).2.kii.author.accessToken with
        | none => exact absurd hset (hauthor hjson hret)
        | some author => rfl

theorem whenOnboarded_of_onboarded {thing : KiiThingIf σ} (h : thing.state = .onboarded)
    (error : ErrorSlot) (request : Call σ → Bool × Call σ × Option Bytes) :
    whenOnboarded thing error request =
      let r := request { kii := thing.commandHandler, error := error }
      { ret := r.1
        thing := { thing with commandHandler := r.2.1.kii }
        error := r.2.1.error
        out := r.2.2 } := by
  unfold whenOnboarded
  rw [h]

/-- Where the stage goes on, the author of its `kii_t` can be copied. -/
def LeavesAuthor (sdk : Sdk σ) (f : Stage (Call σ)) : Prop :=
  f.Ensures fun c => prvSetAuthor sdk.platform c.kii.author.authorId
    c.kii.author.accessToken ≠ none

/-- The strings of a good response fit the other author. -/
theorem leavesAuthor_readResponse (hjson : CopiesFields sdk.json) :
    LeavesAuthor sdk (intStage (prvThingIfParseOnboardingResponse sdk)) := by
  intro c hend
  have hsuccess : (sdk.json.kiiJsonReadObject c.kii.responseBody
      [thingIdField sdk.platform, accessTokenField sdk.platform]).1 = .success := by
    by_contra hne
    unfold intStage prvThingIfParseOnboardingResponse prvKiiThingIfJsonReadObject at hend
    simp [hne] at hend
  obtain ⟨author, hyields⟩ := exists_yieldsAuthor hjson hsuccess
  rw [intStage_parseOnboardingResponse sdk c hyields]
  show prvSetAuthor sdk.platform author.authorId author.accessToken ≠ none
  unfold prvSetAuthor
  rw [if_neg (Nat.not_le.mpr hyields.fitsId), if_neg (Nat.not_le.mpr hyields.fitsToken)]
  simp

theorem leavesAuthor_onboardWithVendorThingId (hjson : CopiesFields sdk.json)
    (args : OnboardArgs) : LeavesAuthor sdk (prvOnboardWithVendorThingId sdk args) := by
  rw [prvOnboardWithVendorThingId_request]
  have hresponse := leavesAuthor_readResponse hjson
  unfold LeavesAuthor at hresponse ⊢
  exact hresponse.andThen.andThen.andThen.andThen

theorem leavesAuthor_onboardWithThingId (hjson : CopiesFields sdk.json) (args : OnboardArgs) :
    LeavesAuthor sdk (prvOnboardWithThingId sdk args) := by
  rw [prvOnboardWithThingId_request]
  have hresponse := leavesAuthor_readResponse hjson
  unfold LeavesAuthor at hresponse ⊢
  exact hresponse.andThen.andThen.andThen.andThen

/-- How every call that is admitted ends. -/
theorem operation_ends (thing : KiiThingIf σ) (error : ErrorSlot) {op : Operation}
    (hop : op.takesError = true) (hadmits : op.admits thing.state = true) :
    OperationEnds sdk thing error (op.lapse sdk thing error) (op.run sdk thing error) := by
  cases op with
  | init args => cases hop
  | initWithOnboardedThing args thingId accessToken => cases hop
  | start => cases hop
  | onboardWithVendorThingId args =>
      refine operationEnds_onboardWith (of_decide_eq_true hadmits)
        (onboard_ends (prvOnboardWithVendorThingId_request sdk args) (vendorStage_ends args) _) ?_
      exact fun hjson => leavesAuthor_onboardWithVendorThingId hjson args _
  | onboardWithThingId args =>
      refine operationEnds_onboardWith (of_decide_eq_true hadmits)
        (onboard_ends (prvOnboardWithThingId_request sdk args) (thingIdRequest_ends args) _) ?_
      exact fun hjson => leavesAuthor_onboardWithThingId hjson args _
  | getFirmwareVersion len =>
      show OperationEnds sdk thing error _ (whenOnboarded thing error _)
      rw [whenOnboarded_of_onboarded (of_decide_eq_true hadmits)]
      exact ⟨_, requestProperty_ends _ _ _ ⟨thing.commandHandler, error⟩, fun _ => rfl⟩
  | updateFirmwareVersion v =>
      simp only [Operation.run, updateFirmwareVersion]
      rw [whenOnboarded_of_onboarded (of_decide_eq_true hadmits)]
      exact ⟨_, updateProperty_ends _ _ _ _ ⟨thing.commandHandler, error⟩, fun _ => rfl⟩
  | getThingType len =>
      show OperationEnds sdk thing error _ (whenOnboarded thing error _)
      rw [whenOnboarded_of_onboarded (of_decide_eq_true hadmits)]
      exact ⟨_, requestProperty_ends _ _ _ ⟨thing.commandHandler, error⟩, fun _ => rfl⟩
  | updateThingType v =>
      simp only [Operation.run, updateThingType]
      rw [whenOnboarded_of_onboarded (of_decide_eq_true hadmits)]
      exact ⟨_, updateProperty_ends _ _ _ _ ⟨thing.commandHandler, error⟩, fun _ => rfl⟩

/-- A call that is not admitted only stores its code. -/
theorem operation_refused (thing : KiiThingIf σ) (error : ErrorSlot) {op : Operation}
    (hadmits : op.admits thing.state = false) :
    op.run sdk thing error =
      { ret := false, thing := thing, error := error.setCode .invalidState, out := none } := by
  have hproperty : ∀ request : Call σ → Bool × Call σ × Option Bytes,
      decide (thing.state = .onboarded) = false → whenOnboarded thing error request =
        { ret := false, thing := thing, error := error.setCode .invalidState, out := none } := by
    intro request hstate
    unfold whenOnboarded
    cases h : thing.state with
    | initialized => rfl
    | started => rfl
    | onboarded =>
        rw [h] at hstate
        cases hstate
  have honboard : ∀ f : Call σ → Bool × Call σ,
      decide (thing.state ≠ .started) = false → onboardWith sdk f thing error =
        { ret := false, thing := thing, error := error.setCode .invalidState, out := none } := by
    intro f hstate
    rw [decide_eq_false_iff_not, not_not] at hstate
    exact onboardWith_started sdk f hstate error
  cases op with
  | init args => cases hadmits
  | initWithOnboardedThing args thingId accessToken => cases hadmits
  | start => cases hadmits
  | onboardWithVendorThingId args => exact honboard _ hadmits
  | onboardWithThingId args => exact honboard _ hadmits
  | getFirmwareVersion len => exact hproperty _ hadmits
  | getThingType len => exact hproperty _ hadmits
  | updateFirmwareVersion v =>
      simp only [Operation.run, updateFirmwareVersion]
      exact hproperty _ hadmits
  | updateThingType v =>
      simp only [Operation.run, updateThingType]
      exact hproperty _ hadmits

end

end ThingIfSdk
