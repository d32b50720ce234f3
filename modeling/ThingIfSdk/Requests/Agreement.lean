import ThingIfSdk.Requests.Handshake
import ThingIfSdk.Requests.Siblings
import ThingIfSdk.Requests.Twins

/-!
# The two onboarding functions against each other

`onboard_with_thing_id` is a copy of `onboard_with_vendor_thing_id`.  With the same
outcomes of corresponding steps the two end alike and send corresponding requests,
`Agree`, unless the copy comes to one of the two steps in which it has drifted away
from its sibling.
-/

namespace ThingIfSdk

open ByteText JsonText Monitoring Staging

variable {σ τ : Type}

/-! ## Requests that were sent -/

/-- A request as it was run: the last start call before, and the pieces of the body. -/
structure SentRequest where
  call : Option ApiCall
  pieces : List Bytes

/-- Follows the request under construction. -/
def requestReader : Monitor Event SentRequest where
  start := ⟨none, []⟩
  step q e :=
    match e with
    | .callStart call _ => ⟨some call, []⟩
    | .appendBody bytes ret => if ret = 0 then { q with pieces := q.pieces ++ [bytes] } else q
    | _ => q

/-- The requests that are run, given what is under construction. -/
def sentRequests (q : SentRequest) : List Event → List SentRequest
  | [] => []
  | e :: rest => (if e.isRun then [q] else []) ++ sentRequests (requestReader.step q e) rest

/-- The requests that were run between two states of a `kii_t`. -/
def sent (before after : Kii σ) : List SentRequest :=
  sentRequests requestReader.start (newEvents before after)

theorem sentRequests_append (q : SentRequest) (es es' : List Event) :
    sentRequests q (es ++ es') =
      sentRequests q es ++ sentRequests (requestReader.runFrom q es) es' := by
  induction es generalizing q with
  | nil => rfl
  | cons e es ih =>
      simp only [List.cons_append, sentRequests, ih, List.append_assoc, Monitor.runFrom_cons]

theorem sentRequests_of_no_run {es : List Event} (h : ∀ e ∈ es, e.isRun = false)
    (q : SentRequest) : sentRequests q es = [] := by
  induction es generalizing q with
  | nil => rfl
  | cons e es ih =>
      rw [sentRequests, h e List.mem_cons_self, if_neg Bool.false_ne_true, List.nil_append]
      exact ih (fun e' he' => h e' (List.mem_cons_of_mem _ he')) _

theorem length_sentRequests (q : SentRequest) (es : List Event) :
    (sentRequests q es).length = es.countP Event.isRun := by
  induction es generalizing q with
  | nil => rfl
  | cons e es ih =>
      rw [sentRequests, List.length_append, ih, List.countP_cons]
      cases e.isRun with
      | true => exact Nat.add_comm 1 _
      | false => exact Nat.zero_add _

/-- Requests that differ at most in the content type and in the key of the id. -/
structure SameRequest (q q' : SentRequest) : Prop where
  call : Option.Rel SameCall q.call q'.call
  pieces : List.Forall₂ SamePiece q.pieces q'.pieces

theorem SameRequest.step {q q' : SentRequest} (h : SameRequest q q') {e e' : Event}
    (he : SameEvent e e') : SameRequest (requestReader.step q e) (requestReader.step q' e') := by
  have hpiece : ∀ {p p' : Bytes} (ret : Int), SamePiece p p' →
      SameRequest (requestReader.step q (.appendBody p ret))
        (requestReader.step q' (.appendBody p' ret)) := by
    intro p p' ret hp
    simp only [requestReader]
    split
    · exact ⟨h.call, List.rel_append h.pieces (.cons hp .nil)⟩
    · exact h
  cases he with
  | same e =>
      cases e with
      | callStart call ret => exact ⟨.some (.refl call), .nil⟩
      | appendBody p ret => exact hpiece ret (.inl rfl)
      | _ => exact h
  | callStart hcall ret => exact ⟨.some hcall, .nil⟩
  | appendBody hp ret => exact hpiece ret hp

theorem SameEvent.isRun_eq {e e' : Event} (h : SameEvent e e') : e.isRun = e'.isRun := by
  cases h <;> rfl

/-- Corresponding logs send corresponding requests. -/
theorem sameRequests_of_sameEvents {es es' : List Event} (h : List.Forall₂ SameEvent es es')
    {q q' : SentRequest} (hq : SameRequest q q') :
    List.Forall₂ SameRequest (sentRequests q es) (sentRequests q' es') := by
  induction h generalizing q q' with
  | nil => exact .nil
  | @cons e e' es es' he _ ih =>
      rw [sentRequests, sentRequests, he.isRun_eq]
      refine List.rel_append ?_ (ih (hq.step he))
      split
      · exact .cons hq .nil
      · exact .nil

/-! ## Agreement -/

/-- The two instances hold the same, but for what their submodules hold. -/
structure SameInstance (thing : KiiThingIf σ) (thing' : KiiThingIf τ) : Prop where
  appId : thing.commandHandler.appId = thing'.commandHandler.appId
  appKey : thing.commandHandler.appKey = thing'.commandHandler.appKey
  author : thing.commandHandler.author = thing'.commandHandler.author
  httpError : thing.commandHandler.httpError = thing'.commandHandler.httpError
  responseCode : thing.commandHandler.responseCode = thing'.commandHandler.responseCode
  responseBody : thing.commandHandler.responseBody = thing'.commandHandler.responseBody
  updaterAuthor : thing.stateUpdater.author = thing'.stateUpdater.author
  state : thing.state = thing'.state

theorem SameInstance.calls {thing : KiiThingIf σ} {thing' : KiiThingIf τ}
    (h : SameInstance thing thing') (sdk : Sdk σ) (sdk' : Sdk τ) (error : ErrorSlot) :
    SameCalls sdk sdk' thing.commandHandler thing'.commandHandler ⟨thing.commandHandler, error⟩
      ⟨thing'.commandHandler, error⟩ :=
  ⟨.refl h.appId h.appKey h.author h.httpError h.responseCode h.responseBody, rfl⟩

/-- The two calls return and write the same, leave the same state and authors, and
have run as many requests, which correspond. -/
structure Agree (thing : KiiThingIf σ) (thing' : KiiThingIf τ) (out : Outcome σ)
    (out' : Outcome τ) : Prop where
  ret : out.ret = out'.ret
  error : out.error = out'.error
  state : out.thing.state = out'.thing.state
  commandAuthor : out.thing.commandHandler.author = out'.thing.commandHandler.author
  updaterAuthor : out.thing.stateUpdater.author = out'.thing.stateUpdater.author
  runs : (newEvents thing.commandHandler out.thing.commandHandler).countP Event.isRun =
    (newEvents thing'.commandHandler out'.thing.commandHandler).countP Event.isRun
  requests : List.Forall₂ SameRequest (sent thing.commandHandler out.thing.commandHandler)
    (sent thing'.commandHandler out'.thing.commandHandler)

/-- `onboard_with_thing_id` comes to a step in which it differs from its sibling: its
request is not started and goes out all the same, or its body is refused and the
caller, who gave a record, is not told. -/
def Drifts (sdk : Sdk σ) (args : OnboardArgs) (thing : KiiThingIf σ) (error : ErrorSlot) :
    Prop :=
  let token := prvKiiThingIfGetAnonymousToken sdk ⟨thing.commandHandler, error⟩
  thing.state ≠ .started ∧ token.1 = 0 ∧
    (IgnoresStart sdk args token.2 ∨ RefusesBody sdk args token.2 ∧ error.record ≠ none)

theorem drifts_of_ignoresStart {sdk : Sdk σ} {args : OnboardArgs} {thing : KiiThingIf σ}
    (hstate : thing.state ≠ .started) {error : ErrorSlot} {c : Call σ}
    (htoken : tokenStages sdk ⟨thing.commandHandler, error⟩ = (true, c))
    (h : IgnoresStart sdk args c) : Drifts sdk args thing error := by
  obtain ⟨hret, hcall⟩ := token_of_stages htoken
  refine ⟨hstate, hret, .inl ?_⟩
  rwa [hcall]

/-- The private functions, called with `before` and `before'`, return the same, store
the same, leave the same author and have sent corresponding requests. -/
structure Alike (before : Kii σ) (before' : Kii τ) (r : Bool × Call σ) (r' : Bool × Call τ) :
    Prop where
  ret : r.1 = r'.1
  error : r.2.error = r'.2.error
  author : r.2.kii.author = r'.2.kii.author
  requests : List.Forall₂ SameRequest (sent before r.2.kii) (sent before' r'.2.kii)

/-- Private functions that end alike make the public ones agree. -/
theorem agree_of_alike {sdk : Sdk σ} {sdk' : Sdk τ}
    (hplatform : sdk'.platform = sdk.platform) {thing : KiiThingIf σ} {thing' : KiiThingIf τ}
    (hthing : SameInstance thing thing') (hstate : thing.state ≠ .started) {error : ErrorSlot}
    {f : Call σ → Bool × Call σ} {f' : Call τ → Bool × Call τ}
    (h : Alike thing.commandHandler thing'.commandHandler (f ⟨thing.commandHandler, error⟩)
      (f' ⟨thing'.commandHandler, error⟩)) :
    Agree thing thing' (onboardWith sdk f thing error) (onboardWith sdk' f' thing' error) := by
  have hstate' : thing'.state ≠ .started := hthing.state ▸ hstate
  obtain ⟨hslot, hkii⟩ := onboardWith_passes sdk f hstate error
  obtain ⟨hslot', hkii'⟩ := onboardWith_passes sdk' f' hstate' error
  have hends : (onboardWith sdk f thing error).ret = (onboardWith sdk' f' thing' error).ret ∧
      (onboardWith sdk f thing error).thing.state =
        (onboardWith sdk' f' thing' error).thing.state ∧
      (onboardWith sdk f thing error).thing.stateUpdater.author =
        (onboardWith sdk' f' thing' error).thing.stateUpdater.author := by
    unfold onboardWith
    rw [if_neg hstate, if_neg hstate']
    simp only [h.ret, h.author, hplatform]
    -- Both public functions copy the author to the updater by the same bounded copy.
    cases (f' ⟨thing'.commandHandler, error⟩).1 with
    | false => exact ⟨rfl, hthing.state, hthing.updaterAuthor⟩
    | true =>
        cases prvSetAuthor sdk.platform (f' ⟨thing'.commandHandler, error⟩).2.kii.author.authorId
          (f' ⟨thing'.commandHandler, error⟩).2.kii.author.accessToken with
        | none => exact ⟨rfl, hthing.state, hthing.updaterAuthor⟩
        | some author => exact ⟨rfl, rfl, rfl⟩
  have hlength := h.requests.length_eq
  unfold sent at hlength
  rw [length_sentRequests, length_sentRequests] at hlength
  exact
    { ret := hends.1
      error := by rw [hslot, hslot', h.error]
      state := hends.2.1
      commandAuthor := by rw [hkii, hkii', h.author]
      updaterAuthor := hends.2.2
      runs := by rw [hkii, hkii']; exact hlength
      requests := by rw [hkii, hkii']; exact h.requests }

/-! ## The requests behind the token -/

theorem sent_of_quiet_tail {before mid after : Kii σ} (hgrown : ∃ es, mid.log = before.log ++ es)
    {tail : List Event} (hlog : after.log = mid.log ++ tail)
    (htail : ∀ e ∈ tail, e.isRun = false) : sent before after = sent before mid := by
  obtain ⟨es, hes⟩ := hgrown
  rw [hes, List.append_assoc] at hlog
  unfold sent
  rw [newEvents_eq hlog, newEvents_eq hes, sentRequests_append, sentRequests_of_no_run htail,
    List.append_nil]

section

variable {sdk : Sdk σ} {sdk' : Sdk τ} {before : Kii σ} {before' : Kii τ}

theorem SameCalls.requests {c : Call σ} {c' : Call τ}
    (h : SameCalls sdk sdk' before before' c c') :
    List.Forall₂ SameRequest (sent before c.kii) (sent before' c'.kii) := by
  obtain ⟨es, es', hlog, hlog', hsame⟩ := h.kii.log
  unfold sent
  rw [newEvents_eq hlog, newEvents_eq hlog']
  exact sameRequests_of_sameEvents hsame ⟨.none, .nil⟩

theorem alike_of_related {r : Bool × Call σ} {r' : Bool × Call τ}
    (h : r.1 = r'.1 ∧ SameCalls sdk sdk' before before' r.2 r'.2) : Alike before before' r r' :=
  ⟨h.1, h.2.error, h.2.kii.author, h.2.requests⟩

/-- Both give up, and neither has run a request since they went the same way. -/
theorem alike_of_quiet {c c₁ : Call σ} {c' c₁' : Call τ}
    (h : SameCalls sdk sdk' before before' c c') {tail tail' : List Event}
    (hlogs : c.kii.Logs c₁.kii tail) (hlogs' : c'.kii.Logs c₁'.kii tail')
    (htail : ∀ e ∈ tail, e.isRun = false) (htail' : ∀ e ∈ tail', e.isRun = false)
    (herror : c₁.error = c₁'.error) : Alike before before' (false, c₁) (false, c₁') := by
  obtain ⟨es, es', hlog, hlog', -⟩ := h.kii.log
  refine ⟨rfl, herror, ?_, ?_⟩
  · rw [hlogs.author_eq, hlogs'.author_eq, h.kii.author]
  · rw [sent_of_quiet_tail ⟨es, hlog⟩ hlogs.log_eq htail,
      sent_of_quiet_tail ⟨es', hlog'⟩ hlogs'.log_eq htail']
    exact h.requests

theorem isRun_of_mem_refused {front : List Bytes} {p : Bytes} {ret : Int} {e : Event}
    (h : e ∈ accepted front ++ [.appendBody p ret]) : e.isRun = false := by
  rcases List.mem_append.mp h with h | h
  · exact isRun_of_mem_accepted h
  · rw [List.mem_singleton.mp h]
    rfl

/-- The sibling gives up at a failed start and at a refused body alike. -/
theorem vendorStage_givesUp (args : OnboardArgs) {c : Call σ} {resourcePath : Bytes}
    (hpath : prvSetOnboardResourcePath sdk.platform c.kii.appId 64 = some resourcePath)
    {start : Int × Kii σ}
    (hstart : kiiApiCallStart sdk c.kii (ascii "POST") resourcePath
      (some contentTypeVendorThingId) true = start)
    (h : start.1 ≠ 0 ∨
      (anyFails (onboardBody sdk (ascii "vendorThingID") args) start.2).1 = true) :
    ∃ kii tail, vendorStage sdk args c =
        (false, ({ c with kii := kii } : Call σ).setCode .insufficientBuffer) ∧
      c.kii.Logs kii tail ∧ ∀ e ∈ tail, e.isRun = false := by
  have hopen := @openStage_of_path _ sdk
    (fun kii => prvSetOnboardResourcePath sdk.platform kii.appId 64) refusedPath (ascii "POST")
    (some contentTypeVendorThingId) true giveUpInsufficient c resourcePath hpath
  have hlogs := (adds_start sdk c.kii (ascii "POST") resourcePath
    (some contentTypeVendorThingId) true).logs
  simp only [hstart] at hopen hlogs
  by_cases hret : start.1 ≠ 0
  · rw [if_pos hret] at hopen
    exact ⟨start.2, _, Stage.andThen_of_givesUp hopen _, hlogs, by simp [Event.isRun]⟩
  · rw [if_neg hret] at hopen
    obtain ⟨front, p, ret, -, hlogs', hbody⟩ := @bodyStage_refused _ _ _ _
      (fun _ => onboardBody_appends sdk (ascii "vendorThingID") args)
      (fun c => c.setCode .insufficientBuffer) ⟨start.2, c.error⟩ (h.resolve_left hret)
    refine ⟨_, _, ?_, hlogs.trans hlogs', ?_⟩
    · rw [vendorStage, Stage.andThen_of_goesOn hopen]
      exact Stage.andThen_of_givesUp hbody _
    · intro e he
      rcases List.mem_cons.mp he with rfl | he
      · rfl
      · exact isRun_of_mem_refused he

/-! ### Behind the start -/

variable {script : List ApiResult}

theorem makes_refusedPath {υ : Type} (sdk : Sdk υ) (c : Call υ) :
    ∃ made, Makes sdk c.kii (refusedPath c).kii made := by
  have hasserted : Makes sdk c.kii (c.kii.emit .assertion) [] := .quiet rfl rfl rfl
  exact ⟨_, hasserted.trans (.quiet (e := .pathTooLong) rfl rfl rfl)⟩

theorem makesCalls_onboardSession {υ : Type} (sdk : Sdk υ) : MakesCalls sdk (onboardSession sdk) :=
  makesCalls_session.andThen makesCalls_readResponse

theorem makesCalls_onboardBody {υ : Type} (sdk : Sdk υ) (idKey : Bytes) (args : OnboardArgs)
    (failed : Call υ → Call υ) (hfailed : ∀ c, (failed c).kii = c.kii) :
    MakesCalls sdk ((bodyStage (fun _ => onboardBody sdk idKey args) failed).andThen
      (onboardSession sdk)) :=
  (makesCalls_bodyStage (fun _ => onboardBody_appends sdk idKey args) failed hfailed).andThen
    (makesCalls_onboardSession sdk)

/-- The start calls of both requests come to the same. -/
theorem SameCalls.opened (args : OnboardArgs) {c : Call σ} {c' : Call τ}
    (h : SameCalls sdk sdk' before before' c c') {resourcePath : Bytes}
    (hpath : prvSetOnboardResourcePath sdk.platform c.kii.appId 64 = some resourcePath)
    (hpath' : prvSetOnboardResourcePath sdk'.platform c'.kii.appId 64 = some resourcePath)
    (hobeys : Obeys sdk script before (vendorStage sdk args c).2.kii)
    (hobeys' : Obeys sdk' script before' (thingIdRequest sdk' args c').2.kii) :
    let start := kiiApiCallStart sdk c.kii (ascii "POST") resourcePath
      (some contentTypeVendorThingId) true
    let start' := kiiApiCallStart sdk' c'.kii (ascii "POST") resourcePath
      (some contentTypeThingId) true
    start.1 = start'.1 ∧
      SameCalls sdk sdk' before before' { c with kii := start.2 } { c' with kii := start'.2 } := by
  have hopen := @openStage_of_path _ sdk
    (fun kii => prvSetOnboardResourcePath sdk.platform kii.appId 64) refusedPath (ascii "POST")
    (some contentTypeVendorThingId) true giveUpInsufficient c resourcePath hpath
  have hopen' := thingIdOpen_of_path sdk' hpath'
  have hstarted : Obeys sdk script before (kiiApiCallStart sdk c.kii (ascii "POST") resourcePath
      (some contentTypeVendorThingId) true).2 := by
    have hend := Stage.Related.of_andThen (makesCalls_onboardBody sdk (ascii "vendorThingID") args
      (fun c => c.setCode .insufficientBuffer) fun _ => rfl).reflects hobeys
    rw [hopen] at hend
    simp only [giveUpInsufficient] at hend
    split at hend <;> exact hend
  have hstarted' : Obeys sdk' script before' (kiiApiCallStart sdk' c'.kii (ascii "POST")
      resourcePath (some contentTypeThingId) true).2 := by
    have hend := Stage.Related.of_andThen (makesCalls_onboardBody sdk' (ascii "thingID") args
      id fun _ => rfl).reflects hobeys'
    rwa [hopen'] at hend
  obtain ⟨hret, hkept⟩ := h.kii.start (ascii "POST") resourcePath
    (.inr ⟨rfl, rfl⟩ : some contentTypeThingId = some contentTypeVendorThingId ∨ _) true
    hstarted hstarted'
  exact ⟨hret, hkept, h.error⟩

/-- Behind a start that has succeeded, the bodies go equally far. -/
theorem SameCalls.filled (args : OnboardArgs) {c : Call σ} {c' : Call τ}
    (h : SameCalls sdk sdk' before before' c c') (failed : Call σ → Call σ)
    (hfailed : ∀ c, (failed c).kii = c.kii)
    (hobeys : Obeys sdk script before ((bodyStage (fun _ => onboardBody sdk (ascii "vendorThingID")
      args) failed).andThen (onboardSession sdk) c).2.kii)
    (hobeys' : Obeys sdk' script before' ((bodyStage (fun _ => onboardBody sdk' (ascii "thingID")
      args) id).andThen (onboardSession sdk') c').2.kii) :
    let body := anyFails (onboardBody sdk (ascii "vendorThingID") args) c.kii
    let body' := anyFails (onboardBody sdk' (ascii "thingID") args) c'.kii
    body.1 = body'.1 ∧
      SameCalls sdk sdk' before before' { c with kii := body.2 } { c' with kii := body'.2 } := by
  have hend := Stage.Related.of_andThen (makesCalls_onboardSession sdk).reflects hobeys
  have hend' := Stage.Related.of_andThen (makesCalls_onboardSession sdk').reflects hobeys'
  obtain ⟨hflag, hbody⟩ := h.kii.body (onboardBody_appends sdk (ascii "vendorThingID") args)
    (onboardBody_appends sdk' (ascii "thingID") args) (samePieces_onboard args)
    (obeys_bodyStage failed hfailed hend) (obeys_bodyStage id (fun _ => rfl) hend')
  exact ⟨hflag, hbody, h.error⟩

theorem setCode_of_null {e : ErrorSlot} (h : e.record = none) (code : ErrorCode) :
    e.setCode code = e := by
  unfold ErrorSlot.setCode
  rw [h]

/-- Behind alike token requests the two go on alike, where the copy has not drifted. -/
theorem requests_alike (hplatform : sdk'.platform = sdk.platform) (hjson : sdk'.json = sdk.json)
    (args : OnboardArgs) {c : Call σ} {c' : Call τ} (h : SameCalls sdk sdk' before before' c c')
    (hobeys : Obeys sdk script before (vendorStage sdk args c).2.kii)
    (hobeys' : Obeys sdk' script before' (thingIdRequest sdk' args c').2.kii)
    (hignores : ¬ IgnoresStart sdk' args c')
    (hrefuses : ¬ (RefusesBody sdk' args c' ∧ c'.error.record ≠ none)) :
    Alike before before' (vendorStage sdk args c) (thingIdRequest sdk' args c') := by
  have hsame : prvSetOnboardResourcePath sdk.platform c.kii.appId 64 =
      prvSetOnboardResourcePath sdk'.platform c'.kii.appId 64 := by
    rw [h.kii.appId, hplatform]
  cases hpath' : prvSetOnboardResourcePath sdk'.platform c'.kii.appId 64 with
  | none =>
      have hopen : vendorStage sdk args c = (false, refusedPath c) :=
        Stage.andThen_of_givesUp (openStage_of_no_path sdk _ _ _ _ _ (hsame.trans hpath')) _
      have hopen' : thingIdRequest sdk' args c' = (false, refusedPath c') :=
        Stage.andThen_of_givesUp (openStage_of_no_path sdk' _ _ _ _ _ hpath') _
      rw [hopen, hopen']
      have hasserted : SameCalls sdk sdk' before before' (c.emit .assertion)
        (c'.emit .assertion) := h.emit rfl
      exact alike_of_related ⟨rfl, hasserted.emit rfl⟩
  | some resourcePath =>
      have hpath := hsame.trans hpath'
      obtain ⟨hret, hopened⟩ := h.opened args hpath hpath' hobeys hobeys'
      have hopen' := thingIdOpen_of_path sdk' hpath'
      -- what the copy does when its body is refused, where only a caller without a record is left
      have hgivesUp : (anyFails (onboardBody sdk' (ascii "thingID") args) (kiiApiCallStart sdk'
            c'.kii (ascii "POST") resourcePath (some contentTypeThingId) true).2).1 = true →
          ((kiiApiCallStart sdk c.kii (ascii "POST") resourcePath
              (some contentTypeVendorThingId) true).1 ≠ 0 ∨
            (anyFails (onboardBody sdk (ascii "vendorThingID") args) (kiiApiCallStart sdk c.kii
              (ascii "POST") resourcePath (some contentTypeVendorThingId) true).2).1 = true) →
          Alike before before' (vendorStage sdk args c) (thingIdRequest sdk' args c') := by
        intro hbody' hstops
        have hnull : c'.error.record = none := by
          by_contra hne
          exact hrefuses ⟨⟨resourcePath, hpath', hbody'⟩, hne⟩
        obtain ⟨kii, tail, hvendor, hlogs, htail⟩ := vendorStage_givesUp args hpath rfl hstops
        obtain ⟨front, p, ret, -, hlogs', hrefused⟩ := @bodyStage_refused _ _ _ _
          (fun _ => onboardBody_appends sdk' (ascii "thingID") args) id ⟨_, c'.error⟩ hbody'
        have hstart' := (adds_start sdk' c'.kii (ascii "POST") resourcePath
          (some contentTypeThingId) true).logs
        rw [hvendor, thingIdRequest, Stage.andThen_of_goesOn hopen',
          Stage.andThen_of_givesUp hrefused]
        refine alike_of_quiet h hlogs (hstart'.trans hlogs') htail ?_ ?_
        · intro e he
          rcases List.mem_cons.mp he with rfl | he
          · rfl
          · exact isRun_of_mem_refused he
        · show c.error.setCode .insufficientBuffer = c'.error
          rw [h.error, setCode_of_null hnull]
      by_cases hstart : (kiiApiCallStart sdk c.kii (ascii "POST") resourcePath
          (some contentTypeVendorThingId) true).1 ≠ 0
      · -- a failed start that the copy does not go out with
        refine hgivesUp ?_ (.inl hstart)
        by_contra haccepted
        exact hignores ⟨resourcePath, hpath', hret ▸ hstart, eq_false_of_ne_true haccepted⟩
      · have hopen := @openStage_of_path _ sdk
          (fun kii => prvSetOnboardResourcePath sdk.platform kii.appId 64) refusedPath
          (ascii "POST") (some contentTypeVendorThingId) true giveUpInsufficient c resourcePath
          hpath
        simp only at hopen
        rw [if_neg hstart] at hopen
        rw [vendorStage, Stage.andThen_of_goesOn hopen] at hobeys
        rw [thingIdRequest, Stage.andThen_of_goesOn hopen'] at hobeys'
        obtain ⟨hflag, hfilled⟩ := hopened.filled args (fun c => c.setCode .insufficientBuffer)
          (fun _ => rfl) hobeys hobeys'
        cases hbody' : (anyFails (onboardBody sdk' (ascii "thingID") args) (kiiApiCallStart sdk'
            c'.kii (ascii "POST") resourcePath (some contentTypeThingId) true).2).1 with
        | true => exact hgivesUp hbody' (.inr (hflag.trans hbody'))
        | false =>
            obtain ⟨-, haccepted⟩ := @bodyStage_accepted _ _ _ _
              (fun _ => onboardBody_appends sdk (ascii "vendorThingID") args)
              (fun c => c.setCode .insufficientBuffer) ⟨_, c.error⟩ (hflag.trans hbody')
            obtain ⟨-, haccepted'⟩ := @bodyStage_accepted _ _ _ _
              (fun _ => onboardBody_appends sdk' (ascii "thingID") args) id ⟨_, c'.error⟩ hbody'
            rw [Stage.andThen_of_goesOn haccepted] at hobeys
            rw [Stage.andThen_of_goesOn haccepted'] at hobeys'
            rw [vendorStage, Stage.andThen_of_goesOn hopen, Stage.andThen_of_goesOn haccepted,
              thingIdRequest, Stage.andThen_of_goesOn hopen', Stage.andThen_of_goesOn haccepted']
            exact alike_of_related ((related_session hjson).andThen
              (related_readResponse hjson hplatform) makesCalls_readResponse.reflects
              makesCalls_readResponse.reflects _ _ hfilled hobeys hobeys')

theorem newEvents_append {before mid after : Kii σ} {es tail : List Event}
    (hes : mid.log = before.log ++ es) (hlog : after.log = mid.log ++ tail) :
    newEvents before after = newEvents before mid ++ tail := by
  rw [hes, List.append_assoc] at hlog
  rw [newEvents_eq hlog, newEvents_eq hes]

/-- The copy runs a request that was not started; its sibling has given up. -/
theorem runs_ne_of_ignored (hplatform : sdk'.platform = sdk.platform) {args : OnboardArgs}
    {c : Call σ} {c' : Call τ} (h : SameCalls sdk sdk' before before' c c')
    (hobeys : Obeys sdk script before (vendorStage sdk args c).2.kii)
    (hobeys' : Obeys sdk' script before' (thingIdRequest sdk' args c').2.kii)
    (hignores : IgnoresStart sdk' args c') :
    (newEvents before (vendorStage sdk args c).2.kii).countP Event.isRun ≠
      (newEvents before' (thingIdRequest sdk' args c').2.kii).countP Event.isRun := by
  obtain ⟨resourcePath, hpath', hne, hbody'⟩ := hignores
  have hpath : prvSetOnboardResourcePath sdk.platform c.kii.appId 64 = some resourcePath := by
    rw [h.kii.appId, ← hplatform]
    exact hpath'
  obtain ⟨hret, -⟩ := h.opened args hpath hpath' hobeys hobeys'
  -- The sibling sees the same failed start and returns, so its log ends without a run.
  obtain ⟨kii, tail, hvendor, hlogs, htail⟩ :=
    vendorStage_givesUp args hpath rfl (.inl (hret ▸ hne))
  obtain ⟨hlogs', haccepted'⟩ := @bodyStage_accepted _ _ _ _
    (fun _ => onboardBody_appends sdk' (ascii "thingID") args) id ⟨_, c'.error⟩ hbody'
  have hstart' := (adds_start sdk' c'.kii (ascii "POST") resourcePath
    (some contentTypeThingId) true).logs
  -- The copy takes the body and runs the request.
  obtain ⟨ret, httpError, code, rest, hrun, hrest⟩ := session_response_log sdk'
    ⟨(anyFails (onboardBody sdk' (ascii "thingID") args) (kiiApiCallStart sdk' c'.kii
      (ascii "POST") resourcePath (some contentTypeThingId) true).2).2, c'.error⟩
  obtain ⟨es, es', hlog, hlog', hsame⟩ := h.kii.log
  have hcount : (newEvents before c.kii).countP Event.isRun =
      (newEvents before' c'.kii).countP Event.isRun := by
    have hlength := h.requests.length_eq
    unfold sent at hlength
    rw [length_sentRequests, length_sentRequests] at hlength
    exact hlength
  have hquiet : ∀ {es : List Event}, (∀ e ∈ es, e.isRun = false) → es.countP Event.isRun = 0 := by
    intro es hes
    rw [List.countP_eq_zero]
    exact fun e he => by rw [hes e he]; exact Bool.false_ne_true
  rw [(hstart'.trans hlogs').log_eq, List.append_assoc] at hrun
  rw [hvendor, thingIdRequest, Stage.andThen_of_goesOn (thingIdOpen_of_path sdk' hpath'),
    Stage.andThen_of_goesOn haccepted', onboardSession, Call.setCode_kii,
    newEvents_append hlog hlogs.log_eq, newEvents_append hlog' hrun]
  simp only [List.countP_append, List.countP_cons, hquiet htail, hquiet hrest, hcount]
  simp only [Event.isRun, if_true]
  omega

/-- The sibling tells of a refused body, the copy does not. -/
theorem error_ne_of_refused (hplatform : sdk'.platform = sdk.platform) {args : OnboardArgs}
    {c : Call σ} {c' : Call τ} (h : SameCalls sdk sdk' before before' c c')
    (hobeys : Obeys sdk script before (vendorStage sdk args c).2.kii)
    (hobeys' : Obeys sdk' script before' (thingIdRequest sdk' args c').2.kii)
    (hrefuses : RefusesBody sdk' args c') (hrecord : c'.error.record ≠ none) :
    (vendorStage sdk args c).2.error ≠ (thingIdRequest sdk' args c').2.error := by
  obtain ⟨resourcePath, hpath', hbody'⟩ := hrefuses
  have hpath : prvSetOnboardResourcePath sdk.platform c.kii.appId 64 = some resourcePath := by
    rw [h.kii.appId, ← hplatform]
    exact hpath'
  obtain ⟨hret, hopened⟩ := h.opened args hpath hpath' hobeys hobeys'
  have hopen' := thingIdOpen_of_path sdk' hpath'
  -- the sibling stops at its start or at its body
  have hstops : (kiiApiCallStart sdk c.kii (ascii "POST") resourcePath
        (some contentTypeVendorThingId) true).1 ≠ 0 ∨
      (anyFails (onboardBody sdk (ascii "vendorThingID") args) (kiiApiCallStart sdk c.kii
        (ascii "POST") resourcePath (some contentTypeVendorThingId) true).2).1 = true := by
    by_cases hstart : (kiiApiCallStart sdk c.kii (ascii "POST") resourcePath
        (some contentTypeVendorThingId) true).1 ≠ 0
    · exact .inl hstart
    · have hopen := @openStage_of_path _ sdk
        (fun kii => prvSetOnboardResourcePath sdk.platform kii.appId 64) refusedPath
        (ascii "POST") (some contentTypeVendorThingId) true giveUpInsufficient c resourcePath hpath
      simp only at hopen
      rw [if_neg hstart] at hopen
      rw [vendorStage, Stage.andThen_of_goesOn hopen] at hobeys
      rw [thingIdRequest, Stage.andThen_of_goesOn hopen'] at hobeys'
      obtain ⟨hflag, -⟩ := hopened.filled args (fun c => c.setCode .insufficientBuffer)
          (fun _ => rfl) hobeys hobeys'
      exact .inr (hflag.trans hbody')
  obtain ⟨kii, tail, hvendor, -, -⟩ := vendorStage_givesUp args hpath rfl hstops
  obtain ⟨front, p, ret, -, -, hrefused⟩ := @bodyStage_refused _ _ _ _
    (fun _ => onboardBody_appends sdk' (ascii "thingID") args) id ⟨_, c'.error⟩ hbody'
  rw [hvendor, thingIdRequest, Stage.andThen_of_goesOn (thingIdOpen_of_path sdk' hpath'),
    Stage.andThen_of_givesUp hrefused]
  show c.error.setCode .insufficientBuffer ≠ c'.error
  rw [h.error]
  intro hsame
  obtain ⟨r, hr⟩ := Option.ne_none_iff_exists'.mp hrecord
  have hcodes := congrArg (fun e : ErrorSlot => e.codes.length) hsame
  simp only [ErrorSlot.setCode, hr, List.length_append, List.length_singleton] at hcodes
  omega

end

/-! ## The comparison -/

section

variable {sdk : Sdk σ} {sdk' : Sdk τ} {thing : KiiThingIf σ} {thing' : KiiThingIf τ}
  {args : OnboardArgs} {error : ErrorSlot}

theorem agree_of_started (hthing : SameInstance thing thing') (hstate : thing.state = .started)
    (f : Call σ → Bool × Call σ) (f' : Call τ → Bool × Call τ) (error : ErrorSlot) :
    Agree thing thing' (onboardWith sdk f thing error) (onboardWith sdk' f' thing' error) := by
  rw [onboardWith_started sdk f hstate, onboardWith_started sdk' f' (hthing.state ▸ hstate)]
  refine
    { ret := rfl
      error := rfl
      state := hthing.state
      commandAuthor := hthing.author
      updaterAuthor := hthing.updaterAuthor
      runs := ?_
      requests := ?_ }
  · rw [newEvents_self, newEvents_self]
  · unfold sent
    rw [newEvents_self, newEvents_self]
    exact .nil

/-- The private functions leave what the script of the public ones says. -/
theorem obeys_onboardWith {υ : Type} {sdk : Sdk υ} {f : Call υ → Bool × Call υ}
    {thing : KiiThingIf υ} (hstate : thing.state ≠ .started) {error : ErrorSlot}
    {script : List ApiResult}
    (h : results sdk thing.commandHandler (onboardWith sdk f thing error).thing.commandHandler <+:
      script) :
    Obeys sdk script thing.commandHandler (f ⟨thing.commandHandler, error⟩).2.kii := by
  obtain ⟨-, hkii⟩ := onboardWith_passes sdk f hstate error
  rw [hkii] at h
  exact obeys_of_results h

/-- Up to the token, and behind it. -/
theorem token_related (hthing : SameInstance thing thing') (hjson : sdk'.json = sdk.json)
    (hplatform : sdk'.platform = sdk.platform) {script : List ApiResult}
    (hobeys : Obeys sdk script thing.commandHandler
      (prvOnboardWithVendorThingId sdk args ⟨thing.commandHandler, error⟩).2.kii)
    (hobeys' : Obeys sdk' script thing'.commandHandler
      (prvOnboardWithThingId sdk' args ⟨thing'.commandHandler, error⟩).2.kii) :
    let token := tokenStages sdk ⟨thing.commandHandler, error⟩
    let token' := tokenStages sdk' ⟨thing'.commandHandler, error⟩
    token.1 = token'.1 ∧
      SameCalls sdk sdk' thing.commandHandler thing'.commandHandler token.2 token'.2 := by
  have hvendor : MakesCalls sdk (vendorStage sdk args) :=
    (makesCalls_openStage (makes_refusedPath sdk) _ _ _ fun _ => rfl).andThen
      (makesCalls_onboardBody sdk _ args (fun c => c.setCode .insufficientBuffer) fun _ => rfl)
  have hthingId : MakesCalls sdk' (thingIdRequest sdk' args) :=
    (makesCalls_openStage (makes_refusedPath sdk') _ _ _ fun _ => rfl).andThen
      (makesCalls_onboardBody sdk' _ args id fun _ => rfl)
  rw [prvOnboardWithVendorThingId_request] at hobeys
  rw [prvOnboardWithThingId_request] at hobeys'
  exact related_tokenStages hjson hplatform _ _ (hthing.calls sdk sdk' error)
    (Stage.Related.of_andThen hvendor.reflects hobeys)
    (Stage.Related.of_andThen hthingId.reflects hobeys')

variable (hthing : SameInstance thing thing')
  (hsame : SameOutcomes sdk sdk' thing.commandHandler
    (onboardWithVendorThingId sdk args thing error).thing.commandHandler thing'.commandHandler
    (onboardWithThingId sdk' args thing' error).thing.commandHandler)

include hthing hsame

theorem agree_of_not_drifts (hnot : ¬ Drifts sdk' args thing' error) :
    Agree thing thing' (onboardWithVendorThingId sdk args thing error)
      (onboardWithThingId sdk' args thing' error) := by
  by_cases hstate : thing.state = .started
  · exact agree_of_started hthing hstate _ _ error
  obtain ⟨hplatform, hjson, script, hresults, hresults'⟩ := hsame
  have hobeys := obeys_onboardWith hstate hresults
  have hobeys' := obeys_onboardWith (hthing.state ▸ hstate) hresults'
  obtain ⟨hend, htoken⟩ := token_related hthing hjson hplatform hobeys hobeys'
  apply agree_of_alike hplatform hthing hstate
  cases hok : (tokenStages sdk' ⟨thing'.commandHandler, error⟩).1 with
  | false =>
      rw [prvOnboardWithVendorThingId_request, prvOnboardWithThingId_request,
        Stage.andThen_of_false (hend.trans hok), Stage.andThen_of_false hok]
      exact alike_of_related ⟨rfl, htoken⟩
  | true =>
      obtain ⟨hret, hcall⟩ := token_of_stages (Prod.ext hok rfl)
      have herror := (ends_token.goesOn _ (Going.refl ⟨thing'.commandHandler, error⟩) hok).error
      unfold Drifts at hnot
      simp only [hret, hcall, ne_eq, true_and] at hnot
      rw [prvOnboardWithVendorThingId_of_token (hend.trans hok)] at hobeys ⊢
      rw [prvOnboardWithThingId_of_token hok] at hobeys' ⊢
      refine requests_alike hplatform hjson args htoken hobeys hobeys' (fun hignores => ?_)
        fun hrefuses => ?_
      · exact hnot ⟨hthing.state ▸ hstate, .inl hignores⟩
      · rw [herror] at hrefuses
        exact hnot ⟨hthing.state ▸ hstate, .inr hrefuses⟩

theorem not_agree_of_drifts (hdrifts : Drifts sdk' args thing' error) :
    ¬ Agree thing thing' (onboardWithVendorThingId sdk args thing error)
      (onboardWithThingId sdk' args thing' error) := by
  obtain ⟨hstate', hret, hstep⟩ := hdrifts
  have hstate : thing.state ≠ .started := hthing.state ▸ hstate'
  obtain ⟨hplatform, hjson, script, hresults, hresults'⟩ := hsame
  have hobeys := obeys_onboardWith hstate hresults
  have hobeys' := obeys_onboardWith hstate' hresults'
  have hstages := tokenStages_of_zero hret
  have hok : (tokenStages sdk' ⟨thing'.commandHandler, error⟩).1 = true := by rw [hstages]
  have herror := (ends_token.goesOn _ (Going.refl ⟨thing'.commandHandler, error⟩) hok).error
  obtain ⟨hend, htoken⟩ := token_related hthing hjson hplatform hobeys hobeys'
  obtain ⟨hslot, hkii⟩ := onboardWith_passes sdk (prvOnboardWithVendorThingId sdk args) hstate
    error
  obtain ⟨hslot', hkii'⟩ := onboardWith_passes sdk' (prvOnboardWithThingId sdk' args) hstate' error
  rw [prvOnboardWithVendorThingId_of_token (hend.trans hok)] at hslot hkii hobeys
  rw [prvOnboardWithThingId_of_token hok] at hslot' hkii' hobeys'
  rw [hstages] at htoken herror hslot' hkii' hobeys'
  intro hagree
  rcases hstep with hignores | ⟨hrefuses, hrecord⟩
  · have hruns := hagree.runs
    unfold onboardWithVendorThingId onboardWithThingId at hruns
    rw [hkii, hkii'] at hruns
    exact runs_ne_of_ignored hplatform htoken hobeys hobeys' hignores hruns
  · have heq := hagree.error
    unfold onboardWithVendorThingId onboardWithThingId at heq
    rw [hslot, hslot'] at heq
    refine error_ne_of_refused hplatform htoken hobeys hobeys' hrefuses ?_ heq
    rw [herror]
    exact hrecord

/-- Two runs whose steps have the same outcomes agree unless the copy comes to a step in
which it has drifted. -/
theorem onboarding_agrees_iff :
    Agree thing thing' (onboardWithVendorThingId sdk args thing error)
        (onboardWithThingId sdk' args thing' error) ↔ ¬ Drifts sdk' args thing' error :=
  ⟨fun hagree hdrifts => not_agree_of_drifts hthing hsame hdrifts hagree,
    agree_of_not_drifts hthing hsame⟩

end

/-! ## A failed start -/

section

variable {reply : Reply} {rest : List Reply}

/-- The results of a body that is accepted, and of the run behind it. -/
def bodyResults (pieces : List Bytes) (reply : Reply) : List ApiResult :=
  List.replicate pieces.length (.appended 0) ++
    [.ran reply.ret reply.httpError reply.responseCode reply.responseBody]

theorem makes_bodyRun (idKey : Bytes) (args : OnboardArgs) (failed : Call Script → Call Script)
    {c : Call Script} (hreplies : c.kii.core.replies = reply :: rest)
    (hle : (onboardPieces idKey args).flatten.flatten.length ≤ c.kii.core.room) :
    Makes (scriptedSdk 1000) c.kii
      ((bodyStage (fun _ => onboardBody (scriptedSdk 1000) idKey args) failed).andThen
        (onboardSession (scriptedSdk 1000)) c).2.kii
      (bodyResults (onboardPieces idKey args).flatten reply) := by
  have hbuf : FixedBuffer (scriptedSdk 1000).api Script.room := scriptedApi_fixedBuffer 1000
  have happends := onboardBody_appends (scriptedSdk 1000) idKey args
  -- The body fits the buffer, so every append succeeds and the run takes the reply.
  obtain ⟨hdone, -⟩ := hbuf.appendPieces_fits (onboardPieces idKey args).flatten c.kii hle
  have hmade := makes_fitting hbuf (onboardPieces idKey args).flatten c.kii hle
  have hleft := appendPieces_replies 1000 (onboardPieces idKey args).flatten c.kii
  rw [← anyFails_appends happends] at hdone hmade hleft
  obtain ⟨-, haccepted⟩ := @bodyStage_accepted _ _ _ _ (fun _ => happends) failed c hdone
  rw [Stage.andThen_of_goesOn haccepted]
  refine hmade.trans ?_
  have hrun : ∀ kii : Kii Script, kii.core.replies = reply :: rest →
      Makes (scriptedSdk 1000) kii (kiiApiCallRun (scriptedSdk 1000) kii).2
        [.ran reply.ret reply.httpError reply.responseCode reply.responseBody] := by
    intro kii h
    have hran := @makes_run _ (scriptedSdk 1000) kii
    unfold kiiApiCallRun at hran ⊢
    simp only [scriptedSdk, scriptedApi, h] at hran ⊢
    exact hran
  have hsession : ∀ c : Call Script, c.kii.core.replies = reply :: rest →
      Makes (scriptedSdk 1000) c.kii (onboardSession (scriptedSdk 1000) c).2.kii
        [.ran reply.ret reply.httpError reply.responseCode reply.responseBody] := by
    intro c h
    have hran := (hrun c.kii h).trans (makes_session c)
    unfold onboardSession
    cases hend : (prvExecuteHttpSession (scriptedSdk 1000) c).1 with
    | false =>
        rw [Stage.andThen_of_false hend]
        exact hran
    | true =>
        rw [Stage.andThen_of_true hend]
        exact hran.trans (makes_readResponse _)
  exact hsession ⟨_, c.error⟩ (hleft.trans hreplies)

/-- A start call takes what the next reply says, and leaves room for the body. -/
theorem scriptedStart {kii : Kii Script} (h : kii.core.replies = reply :: rest)
    (hroom : 500 ≤ kii.core.room) (resourcePath : Bytes) (contentType : Option Bytes) :
    let r := kiiApiCallStart (scriptedSdk 1000) kii (ascii "POST") resourcePath contentType true
    r.1 = reply.startRet ∧ r.2.core.replies = reply :: rest ∧ 500 ≤ r.2.core.room := by
  unfold kiiApiCallStart
  by_cases hret : reply.startRet = 0
  · simp only [scriptedSdk, scriptedApi, h, hret, ne_eq, not_true_eq_false, if_false,
      Kii.emit_core, true_and]
    omega
  · simp only [scriptedSdk, scriptedApi, h, hret, ne_eq, not_false_eq_true, if_true,
      Kii.emit_core, true_and]
    exact hroom

/-- What both functions come to when their request has a token and room. -/
theorem makes_requests {c : Call Script} (happ : c.kii.appId = ascii "app")
    (hreplies : c.kii.core.replies = reply :: rest) (hroom : 500 ≤ c.kii.core.room) :
    let answers := bodyResults (onboardPieces (ascii "thingID") plainArgs).flatten reply
    (∃ made, made <+: .started reply.startRet :: answers ∧
        Makes (scriptedSdk 1000) c.kii (vendorStage (scriptedSdk 1000) plainArgs c).2.kii made) ∧
      Makes (scriptedSdk 1000) c.kii (thingIdRequest (scriptedSdk 1000) plainArgs c).2.kii
        (.started reply.startRet :: answers) := by
  have hpath : prvSetOnboardResourcePath (scriptedSdk 1000).platform c.kii.appId 64 =
      some [thingIfAppPath, ascii "app", onboardingPath].flatten := by
    rw [happ]
    rfl
  have hlength : (onboardPieces (ascii "vendorThingID") plainArgs).flatten.flatten.length ≤ 500 ∧
      (onboardPieces (ascii "thingID") plainArgs).flatten.flatten.length ≤ 500 := by decide
  have hstart := fun contentType : Bytes =>
    scriptedStart hreplies hroom [thingIfAppPath, ascii "app", onboardingPath].flatten
      (some contentType)
  have hmade := fun contentType : Bytes => @makes_start _ (scriptedSdk 1000) c.kii
    (ascii "POST") [thingIfAppPath, ascii "app", onboardingPath].flatten (some contentType) true
  constructor
  · obtain ⟨hret, hleft, hwide⟩ := hstart contentTypeVendorThingId
    have hfirst := hmade contentTypeVendorThingId
    have hopen := @openStage_of_path _ (scriptedSdk 1000)
      (fun kii => prvSetOnboardResourcePath (scriptedSdk 1000).platform kii.appId 64) refusedPath
      (ascii "POST") (some contentTypeVendorThingId) true giveUpInsufficient c _ hpath
    simp only [hret] at hopen hfirst
    -- The sibling stops at a start that fails; what it made is a front of the script.
    by_cases hzero : reply.startRet ≠ 0
    · rw [if_pos hzero] at hopen
      refine ⟨[.started reply.startRet], List.prefix_append _ _, ?_⟩
      rw [vendorStage, Stage.andThen_of_givesUp hopen]
      exact hfirst
    · rw [if_neg hzero] at hopen
      refine ⟨_, List.prefix_rfl, ?_⟩
      rw [vendorStage, Stage.andThen_of_goesOn hopen]
      exact hfirst.trans (@makes_bodyRun reply rest (ascii "vendorThingID") plainArgs
        (fun c => c.setCode .insufficientBuffer) ⟨_, c.error⟩ hleft (hlength.1.trans hwide))
  · obtain ⟨hret, hleft, hwide⟩ := hstart contentTypeThingId
    have hfirst := hmade contentTypeThingId
    simp only [hret] at hfirst
    rw [thingIdRequest, Stage.andThen_of_goesOn (thingIdOpen_of_path (scriptedSdk 1000) hpath)]
    exact hfirst.trans (@makes_bodyRun reply rest (ascii "thingID") plainArgs id ⟨_, c.error⟩
      hleft (hlength.2.trans hwide))

/-- An instance that gets a token, and then the reply. -/
def repliedThing (reply : Reply) : KiiThingIf Script :=
  scriptedThing [.ok tokenResponse, reply]

/-- On a fixed buffer, the calls of both functions come to one script. -/
theorem replied_sameOutcomes (reply : Reply) :
    SameOutcomes (scriptedSdk 1000) (scriptedSdk 1000) (repliedThing reply).commandHandler
      (onboardWithVendorThingId (scriptedSdk 1000) plainArgs (repliedThing reply)
        freshError).thing.commandHandler
      (repliedThing reply).commandHandler
      (onboardWithThingId (scriptedSdk 1000) plainArgs (repliedThing reply)
        freshError).thing.commandHandler := by
  have hstate : (repliedThing reply).state ≠ .started := nofun
  obtain ⟨kii, htoken, happ, -, hreplies, hroom⟩ := token_scripted [reply]
  have hstages : tokenStages (scriptedSdk 1000) ⟨(repliedThing reply).commandHandler, freshError⟩ =
      (true, ⟨kii, freshError⟩) := htoken
  obtain ⟨made, hmade⟩ := makesCalls_tokenStages (scriptedSdk 1000)
    ⟨(repliedThing reply).commandHandler, freshError⟩
  obtain ⟨⟨rest, hprefix, hvendor⟩, hcopy⟩ :=
    @makes_requests reply [] ⟨kii, freshError⟩ happ hreplies hroom
  rw [hstages] at hmade
  refine ⟨rfl, rfl, made ++ .started reply.startRet ::
    bodyResults (onboardPieces (ascii "thingID") plainArgs).flatten reply, ?_, ?_⟩
  · rw [onboardWithVendorThingId, (onboardWith_passes _ _ hstate freshError).2,
      prvOnboardWithVendorThingId_request, Stage.andThen_of_goesOn hstages,
      (hmade.trans hvendor).results_eq]
    exact (List.prefix_append_right_inj made).mpr hprefix
  · rw [onboardWithThingId, (onboardWith_passes _ _ hstate freshError).2,
      prvOnboardWithThingId_request, Stage.andThen_of_goesOn hstages,
      (hmade.trans hcopy).results_eq]

end

theorem SameInstance.refl (thing : KiiThingIf σ) : SameInstance thing thing :=
  ⟨rfl, rfl, rfl, rfl, rfl, rfl, rfl, rfl⟩

/-- Both functions on a fixed buffer, up to the response of the onboarding request. -/
theorem onboarding_agrees_iff_replied :
    Agree (repliedThing (.ok onboardResponse)) (repliedThing (.ok onboardResponse))
        (onboardWithVendorThingId (scriptedSdk 1000) plainArgs (repliedThing (.ok onboardResponse))
          freshError)
        (onboardWithThingId (scriptedSdk 1000) plainArgs (repliedThing (.ok onboardResponse))
          freshError) ↔
      ¬ Drifts (scriptedSdk 1000) plainArgs (repliedThing (.ok onboardResponse)) freshError :=
  onboarding_agrees_iff (.refl _) (replied_sameOutcomes (.ok onboardResponse))

/-- A request that does not start, on a connection that would answer it. -/
def unstarted : Reply :=
  { Reply.ok onboardResponse with startRet := -1 }

/-- A good token response, and a request that does not start: the vendor thing id is
given up, the thing id is sent. -/
theorem failedStart_disagrees :
    SameInstance (repliedThing unstarted) (repliedThing unstarted) ∧
      SameOutcomes (scriptedSdk 1000) (scriptedSdk 1000) (repliedThing unstarted).commandHandler
        (onboardWithVendorThingId (scriptedSdk 1000) plainArgs (repliedThing unstarted)
          freshError).thing.commandHandler
        (repliedThing unstarted).commandHandler
        (onboardWithThingId (scriptedSdk 1000) plainArgs (repliedThing unstarted)
          freshError).thing.commandHandler ∧
      ¬ Agree (repliedThing unstarted) (repliedThing unstarted)
        (onboardWithVendorThingId (scriptedSdk 1000) plainArgs (repliedThing unstarted) freshError)
        (onboardWithThingId (scriptedSdk 1000) plainArgs (repliedThing unstarted) freshError) := by
  have hsame := replied_sameOutcomes unstarted
  refine ⟨.refl _, hsame, ?_⟩
  obtain ⟨kii, htoken, happ, -, hreplies, hroom⟩ := token_scripted [unstarted]
  have hstages : tokenStages (scriptedSdk 1000)
      ⟨(repliedThing unstarted).commandHandler, freshError⟩ = (true, ⟨kii, freshError⟩) := htoken
  have hpath : prvSetOnboardResourcePath (scriptedSdk 1000).platform kii.appId 64 =
      some [thingIfAppPath, ascii "app", onboardingPath].flatten := by
    rw [happ]
    rfl
  obtain ⟨hstart, -, hwide⟩ := scriptedStart hreplies hroom
    [thingIfAppPath, ascii "app", onboardingPath].flatten (some contentTypeThingId)
  apply not_agree_of_drifts (.refl _) hsame
  apply drifts_of_ignoresStart (nofun : (repliedThing unstarted).state ≠ .started) hstages
  refine ⟨_, hpath, ?_, ?_⟩
  · rw [hstart]
    decide
  · have hbuf : FixedBuffer (scriptedSdk 1000).api Script.room := scriptedApi_fixedBuffer 1000
    rw [anyFails_appends (onboardBody_appends (scriptedSdk 1000) (ascii "thingID") plainArgs)]
    have hlength : (onboardPieces (ascii "thingID") plainArgs).flatten.flatten.length ≤ 500 := by
      decide
    exact (hbuf.appendPieces_fits _ _ (hlength.trans hwide)).1

end ThingIfSdk
