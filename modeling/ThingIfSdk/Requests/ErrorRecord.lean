import ThingIfSdk.Requests.ErrorCodes
import ThingIfSdk.Requests.Runs

/-!
# The error record over runs

An application may give one `kii_thing_if_error_t` to call after call.  The header
says what its three fields hold behind a failed call; what they held before shows
through wherever a failure writes only one of them.
-/

namespace ThingIfSdk

open ByteText JsonText Staging Running

variable {σ : Type}

/-- An instance, and the record that the application gives to its calls. -/
structure Recording (σ : Type) where
  thing : KiiThingIf σ
  record : KiiThingIfError

/-- A call with the record, or with another `error` argument. -/
structure RecordedCall where
  operation : Operation
  other : Option ErrorSlot

def recordingMachine (sdk : Sdk σ) : Transducer (Recording σ) RecordedCall (Outcome σ) where
  step t call :=
    let out := call.operation.run sdk t.thing
      (call.other.getD { record := some t.record, codes := [] })
    (out,
      { thing := out.thing
        record := if call.other.isNone then out.error.record.getD t.record else t.record })

/-- The `errorCode` of a response. -/
def responseErrorCode (sdk : Sdk σ) (body : Bytes) : Option Bytes :=
  let r := prvKiiThingIfJsonReadObject sdk body [errorCodeField]
  if r.1 = .success then (r.2 0).copied else none

/-- The last thing that happened is that a response had a status outside 200..299. -/
def RejectedBy (before after : Kii σ) (status : Int) : Prop :=
  ∃ httpError, (newEvents before after).getLast? = some (.callRun 0 httpError status) ∧
    statusOk status = false

/-- What the header says about the record behind a failed call. -/
structure ObeysHeader (sdk : Sdk σ) (before after : Kii σ) (r r' : KiiThingIfError) : Prop where
  http : r'.code = .http → RejectedBy before after r'.httpStatusCode ∧
    responseErrorCode sdk after.responseBody = some r'.errorCode
  other : r'.code ≠ .http → r'.httpStatusCode = 0 ∧ r'.errorCode = r.errorCode

/-- The call fails at a step that stores no code: a refused path, a refused body of the
thing id request, a response that is no HTTP response. -/
def Operation.FailsSilently (sdk : Sdk σ) (thing : KiiThingIf σ) (error : ErrorSlot)
    (op : Operation) (after : Kii σ) : Prop :=
  op.admits thing.state = true ∧
    (op.lapse sdk thing error = some .pathRefused ∨ op.lapse sdk thing error = some .bodyRefused ∨
      InvalidResponse thing.commandHandler after)

/-- A rejected response has an `errorCode` that can be read; and behind any other
failure there is nothing in the record that a rejected response had left. -/
structure RecordClean (sdk : Sdk σ) (before after : Kii σ) (silent : Prop)
    (r : KiiThingIfError) : Prop where
  rejected : ∀ status, RejectedBy before after status →
    responseErrorCode sdk after.responseBody ≠ none
  otherwise : (∀ status, ¬ RejectedBy before after status) →
    r.httpStatusCode = 0 ∧ (silent → r.code ≠ .http)

/-! ## What a failure writes -/

/-- The record behind a failed call. -/
inductive Recorded (sdk : Sdk σ) (before after : Kii σ) (silent : Prop) (r : KiiThingIfError) :
    KiiThingIfError → Prop where
  | http {status : Int} (h : RejectedBy before after status) :
      Recorded sdk before after silent r
        { code := .http
          httpStatusCode := status
          errorCode := ((prvKiiThingIfJsonReadObject sdk after.responseBody
            [errorCodeField]).2 0).copied.getD r.errorCode }
  | coded (h : ∀ status, ¬ RejectedBy before after status) (hsilent : ¬ silent)
      {code : ErrorCode} (hcode : code ≠ .http) :
      Recorded sdk before after silent r { r with code := code }
  | silent (h : ∀ status, ¬ RejectedBy before after status) (hsilent : silent) :
      Recorded sdk before after silent r r

theorem obeys_iff_of_recorded {sdk : Sdk σ} {before after : Kii σ} {silent : Prop}
    {r r' : KiiThingIfError} (h : Recorded sdk before after silent r r') :
    ObeysHeader sdk before after r r' ↔ RecordClean sdk before after silent r := by
  cases h with
  | @http status h =>
      constructor
      · rintro ⟨hhttp, -⟩
        obtain ⟨-, hread⟩ := hhttp rfl
        refine ⟨fun _ _ => ?_, fun hnone => absurd h (hnone status)⟩
        rw [hread]
        exact Option.some_ne_none _
      · rintro ⟨hrejected, -⟩
        refine ⟨fun _ => ⟨h, ?_⟩, fun hne => absurd rfl hne⟩
        have hread := hrejected status h
        unfold responseErrorCode at hread ⊢
        simp only at hread ⊢
        split at hread
        · rename_i hsuccess
          rw [if_pos hsuccess]
          obtain ⟨s, hs⟩ := Option.ne_none_iff_exists'.mp hread
          rw [hs]
          rfl
        · exact absurd rfl hread
  | @coded hnone hsilent code hcode =>
      constructor
      · rintro ⟨-, hother⟩
        obtain ⟨hstatus, -⟩ := hother hcode
        exact ⟨fun status h => absurd h (hnone status), fun _ => ⟨hstatus, fun h => absurd h hsilent⟩⟩
      · rintro ⟨-, hotherwise⟩
        obtain ⟨hstatus, -⟩ := hotherwise hnone
        exact ⟨fun h => absurd h hcode, fun _ => ⟨hstatus, rfl⟩⟩
  | silent hnone hsilent =>
      constructor
      · rintro ⟨hhttp, hother⟩
        have hcode : r.code ≠ .http := fun hcode => hnone _ (hhttp hcode).1
        obtain ⟨hstatus, -⟩ := hother hcode
        exact ⟨fun status h => absurd h (hnone status), fun _ => ⟨hstatus, fun _ => hcode⟩⟩
      · rintro ⟨-, hotherwise⟩
        obtain ⟨hstatus, hcode⟩ := hotherwise hnone
        exact ⟨fun h => absurd h (hcode hsilent), fun _ => ⟨hstatus, rfl⟩⟩

theorem Recorded.congr {sdk : Sdk σ} {before after : Kii σ} {silent silent' : Prop}
    {r r' : KiiThingIfError} (h : Recorded sdk before after silent r r')
    (hiff : silent ↔ silent') : Recorded sdk before after silent' r r' :=
  propext hiff ▸ h

section

variable {sdk : Sdk σ} {before after : Call σ} {r : KiiThingIfError}

theorem rejectedBy_iff {before after : Kii σ} {es : List Event}
    (h : after.log = before.log ++ es) (status : Int) :
    RejectedBy before after status ↔
      ∃ httpError, es.getLast? = some (.callRun 0 httpError status) ∧ statusOk status = false := by
  unfold RejectedBy
  rw [newEvents_eq h]

theorem not_rejectedBy {before after : Kii σ} {es : List Event} {e : Event}
    (h : after.log = before.log ++ (es ++ [e])) (hclass : e.failureClass ≠ some .http)
    (status : Int) : ¬ RejectedBy before after status := by
  rw [rejectedBy_iff h, List.getLast?_concat]
  rintro ⟨httpError, heq, hstatus⟩
  rw [Option.some.inj heq] at hclass
  refine hclass ?_
  simp [Event.failureClass, hstatus]

theorem record_setCode {error : ErrorSlot} (h : error.record = some r) (code : ErrorCode) :
    (error.setCode code).record = some { r with code := code } := by
  unfold ErrorSlot.setCode
  rw [h]

/-- A call that gives up, from a point that the entries `front` lie before. -/
theorem recorded_of_gaveUp {mid : Call σ} (hrecord : before.error.record = some r)
    (herror : mid.error = before.error) {front : List Event}
    (hlog : mid.kii.log = before.kii.log ++ front)
    (hvalid : ¬ ∃ e ∈ front, e.isInvalidResponse = true) (h : GaveUp sdk mid after) :
    ∃ r', after.error.record = some r' ∧
      Recorded sdk before.kii after.kii (InvalidResponse before.kii after.kii) r r' := by
  obtain ⟨es, last, hafter, hgood, hend⟩ := h.ending
  rw [hlog, List.append_assoc, ← List.append_assoc front] at hafter
  rw [herror] at hend
  have hinvalid := invalidResponse_iff hafter
  have hearlier : ¬ ∃ e ∈ front ++ es, e.isInvalidResponse = true := by
    rintro ⟨e, he, hinvalid⟩
    rcases List.mem_append.mp he with he | he
    · exact hvalid ⟨e, he, hinvalid⟩
    · exact valid_of_good hgood ⟨e, he, hinvalid⟩
  generalize front ++ es = earlier at hafter hinvalid hearlier
  generalize hslot : after.error = slot at hend
  cases hend with
  | @coded e code hclass hcode hvalidLast =>
      refine ⟨_, record_setCode hrecord code, .coded ?_ ?_ hcode⟩
      · refine not_rejectedBy hafter ?_
        rw [hclass]
        exact fun heq => hcode (Option.some.inj heq)
      · rw [hinvalid]
        rintro ⟨e', he', hinvalid'⟩
        rcases List.mem_append.mp he' with he' | he'
        · exact hearlier ⟨e', he', hinvalid'⟩
        · rw [List.mem_singleton.mp he', hvalidLast] at hinvalid'
          cases hinvalid'
  | rejected httpError hstatus =>
      have hrejected : RejectedBy before.kii after.kii after.kii.responseCode := by
        rw [rejectedBy_iff hafter, List.getLast?_concat]
        exact ⟨httpError, rfl, hstatus⟩
      refine ⟨_, ?_, .http hrejected⟩
      unfold sessionRejected
      simp only [hrecord]
  | @invalidResponse ret hret responseCode =>
      rw [hrecord, if_neg (Option.some_ne_none r)] at hafter hinvalid
      refine ⟨r, hrecord, .silent ?_ ?_⟩
      · have hsplit : after.kii.log = before.kii.log ++
            ((earlier ++ [.callRun ret .invalidResponse responseCode]) ++ [.assertion]) := by
          rw [hafter]
          simp only [List.append_assoc]
          rfl
        exact not_rejectedBy hsplit (by decide)
      · rw [hinvalid]
        refine ⟨_, List.mem_append_right _ List.mem_cons_self, ?_⟩
        exact decide_eq_true hret

theorem recorded_of_callEnds {lapse : Option Lapse} (hrecord : before.error.record = some r)
    (h : CallEnds sdk before lapse false after) :
    ∃ r', after.error.record = some r' ∧
      Recorded sdk before.kii after.kii
        (lapse = some .pathRefused ∨ lapse = some .bodyRefused ∨
          InvalidResponse before.kii after.kii) r r' := by
  cases h with
  | givesUp h =>
      obtain ⟨r', hr', hrecorded⟩ :=
        recorded_of_gaveUp hrecord rfl (List.append_nil _).symm (by simp) h
      exact ⟨r', hr', hrecorded.congr (by simp)⟩
  -- The record keeps what the last call left in it.
  | @pathRefused c h =>
      obtain ⟨herror, -, es, hlog, -⟩ := h
      have hafter : (refusedPath c).kii.log =
          before.kii.log ++ ((es ++ [.assertion]) ++ [.pathTooLong]) := by
        show c.kii.log ++ [.assertion] ++ [.pathTooLong] = _
        rw [hlog]
        simp only [List.append_assoc]
      refine ⟨r, ?_, .silent (not_rejectedBy hafter (by decide)) (.inl rfl)⟩
      show c.error.record = some r
      rw [herror]
      exact hrecord
  | @bodyRefused c h call ret front p ret' kii hlogs =>
      obtain ⟨herror, -, es, hlog, -⟩ := h
      have hafter : kii.log = before.kii.log ++
          ((es ++ .callStart call ret :: accepted front) ++ [.appendBody p ret']) := by
        rw [hlogs.log_eq, hlog]
        simp only [List.append_assoc, List.cons_append]
      refine ⟨r, ?_, .silent (not_rejectedBy hafter ?_) (.inr (.inl rfl))⟩
      · show c.error.record = some r
        rw [herror]
        exact hrecord
      · unfold Event.failureClass
        simp only
        split <;> simp
  | @startIgnored c _ h call ret hret pieces kii hlogs _ _ hup =>
      obtain ⟨herror, -, es, hlog, hes⟩ := h
      have hmid : kii.log = before.kii.log ++ (es ++ (.callStart call ret :: accepted pieces)) := by
        rw [hlogs.log_eq, hlog, List.append_assoc]
      have hvalid := valid_of_started hes call ret pieces
      obtain ⟨r', hr', hrecorded⟩ :=
        @recorded_of_gaveUp _ sdk before after r { c with kii := kii } hrecord herror _ hmid hvalid
          (hup rfl)
      exact ⟨r', hr', hrecorded.congr (by simp)⟩

end

/-! ## Calls and runs -/

/-- How the record looks behind every call that fails. -/
theorem recorded_of_failed {sdk : Sdk σ} (hjson : CopiesFields sdk.json) (thing : KiiThingIf σ)
    {error : ErrorSlot} {r : KiiThingIfError} (hrecord : error.record = some r) {op : Operation}
    (hop : op.takesError = true) (hret : (op.run sdk thing error).ret = false) :
    let out := op.run sdk thing error
    ∃ r', out.error.record = some r' ∧
      Recorded sdk thing.commandHandler out.thing.commandHandler
        (op.FailsSilently sdk thing error out.thing.commandHandler) r r' := by
  intro out
  cases hadmits : op.admits thing.state with
  | false =>
      have hout : out = _ := operation_refused thing error hadmits
      rw [hout]
      refine ⟨_, record_setCode hrecord .invalidState, .coded (fun status => ?_) ?_ (by decide)⟩
      · rw [rejectedBy_iff (List.append_nil _).symm]
        rintro ⟨httpError, hlast, -⟩
        cases hlast
      · rintro ⟨hadmits', -⟩
        rw [hadmits] at hadmits'
        cases hadmits'
  | true =>
      obtain ⟨goesOn, hends, hgoesOn⟩ := (operation_ends thing error hop hadmits).ends
      rw [← hgoesOn hjson, hret] at hends
      obtain ⟨r', hr', hrecorded⟩ := recorded_of_callEnds hrecord hends
      refine ⟨r', hr', hrecorded.congr ?_⟩
      unfold Operation.FailsSilently
      simp only [hadmits, true_and]
      rfl

/-- A step of a run in which the record is given to a call that fails. -/
structure FailsWithRecord (x : Step (Recording σ) RecordedCall (Outcome σ)) : Prop where
  given : x.input.other = none
  takesError : x.input.operation.takesError = true
  failed : x.output.ret = false

theorem recording_of_mem {sdk : Sdk σ} {t : Recording σ} {calls : List RecordedCall}
    {x : Step (Recording σ) RecordedCall (Outcome σ)}
    (hx : x ∈ (recordingMachine sdk).steps t calls) (hgiven : x.input.other = none) :
    x.output = x.input.operation.run sdk x.before.thing
        { record := some x.before.record, codes := [] } ∧
      x.after.thing = x.output.thing ∧
      x.after.record = x.output.error.record.getD x.before.record := by
  have hstep := Transducer.eq_stepAt_of_mem hx
  have hslot : x.input.other.getD { record := some x.before.record, codes := [] } =
      { record := some x.before.record, codes := [] } := by
    rw [hgiven]
    rfl
  have hout : x.output = x.input.operation.run sdk x.before.thing
      { record := some x.before.record, codes := [] } := by
    rw [← hslot]
    exact congrArg Step.output hstep
  refine ⟨hout, ?_, ?_⟩
  · rw [hout, ← hslot]
    exact congrArg (fun y => y.after.thing) hstep
  · rw [hout]
    have hafter := congrArg (fun y => y.after.record) hstep
    simp only [Transducer.stepAt, recordingMachine, hgiven, Option.isNone_none, if_true] at hafter
    exact hafter

/-- In every run, whatever the record holds at its start, the record is as the header
says behind every call that fails if and only if it is clean for each of these calls. -/
theorem obeysHeader_iff {sdk : Sdk σ} (hjson : CopiesFields sdk.json) (t : Recording σ)
    (calls : List RecordedCall) :
    (∀ x ∈ (recordingMachine sdk).steps t calls, FailsWithRecord x →
      ObeysHeader sdk x.before.thing.commandHandler x.after.thing.commandHandler
        x.before.record x.after.record) ↔
      ∀ x ∈ (recordingMachine sdk).steps t calls, FailsWithRecord x →
        RecordClean sdk x.before.thing.commandHandler x.after.thing.commandHandler
          (x.input.operation.FailsSilently sdk x.before.thing
            { record := some x.before.record, codes := [] } x.after.thing.commandHandler)
          x.before.record := by
  refine forall₃_congr fun x hx hfails => obeys_iff_of_recorded ?_
  obtain ⟨hgiven, hop, hret⟩ := hfails
  obtain ⟨hout, hthing, hrecord⟩ := recording_of_mem hx hgiven
  rw [hout] at hret
  obtain ⟨r', hr', hrecorded⟩ := recorded_of_failed hjson x.before.thing rfl hop hret
  rw [hrecord, hthing, hout, hr']
  exact hrecorded

/-! ## A record that is used twice -/

def zeroRecord : KiiThingIfError where
  code := .http
  httpStatusCode := 0
  errorCode := []

/-- The thing type of an onboarded thing is asked for twice; the first request is
answered, the second one does not start. -/
def twoRequests (replies : List Reply) :
    List (Step (Recording (List Reply)) RecordedCall (Outcome (List Reply))) :=
  (recordingMachine (answeringSdk replies)).steps
    ⟨(Initialisation.withOnboardedThing sampleInit (ascii "th.1") (ascii "token")).thing
      (answeringSdk replies), zeroRecord⟩
    [⟨.getThingType 16, none⟩, ⟨.getThingType 16, none⟩]

/-- Both requests are run and answered with 404. -/
theorem obeysHeader_iff_notFound :
    (twoRequests [notFound, notFound]).map (fun x =>
        (x.after.thing.commandHandler.core.length, x.output.ret, x.after.record)) =
      [(1, false, { code := .http, httpStatusCode := 404, errorCode := [] }),
        (0, false, { code := .http, httpStatusCode := 404, errorCode := [] })] ∧
    ((∀ x ∈ twoRequests [notFound, notFound], FailsWithRecord x →
      ObeysHeader (answeringSdk [notFound, notFound]) x.before.thing.commandHandler
        x.after.thing.commandHandler x.before.record x.after.record) ↔
      ∀ x ∈ twoRequests [notFound, notFound], FailsWithRecord x →
        RecordClean (answeringSdk [notFound, notFound]) x.before.thing.commandHandler
          x.after.thing.commandHandler
          (x.input.operation.FailsSilently (answeringSdk [notFound, notFound]) x.before.thing
            { record := some x.before.record, codes := [] } x.after.thing.commandHandler)
          x.before.record) :=
  ⟨by decide, obeysHeader_iff (referenceJson_copiesFields 64) _ _⟩

/-- The status of the response stays in the record when a request does not start. -/
theorem twoRequests_not_obeyed :
    (twoRequests [notFound]).map (fun x => (x.input.other.isNone, x.input.operation.takesError,
        x.output.ret, x.after.record)) =
      [(true, true, false, { code := .http, httpStatusCode := 404, errorCode := [] }),
        (true, true, false,
          { code := .insufficientBuffer, httpStatusCode := 404, errorCode := [] })] ∧
      ¬ ∀ x ∈ twoRequests [notFound], FailsWithRecord x →
        ObeysHeader (answeringSdk [notFound]) x.before.thing.commandHandler
          x.after.thing.commandHandler x.before.record x.after.record := by
  have hrecords : (twoRequests [notFound]).map (fun x => (x.input.other.isNone,
      x.input.operation.takesError, x.output.ret, x.after.record)) =
        [(true, true, false, { code := .http, httpStatusCode := 404, errorCode := [] }),
          (true, true, false,
            { code := .insufficientBuffer, httpStatusCode := 404, errorCode := [] })] := by
    decide
  refine ⟨hrecords, fun hobeys => ?_⟩
  have hmem : (true, true, false, KiiThingIfError.mk .insufficientBuffer 404 []) ∈
      (twoRequests [notFound]).map (fun x => (x.input.other.isNone, x.input.operation.takesError,
        x.output.ret, x.after.record)) := by
    rw [hrecords]
    simp
  obtain ⟨x, hx, heq⟩ := List.mem_map.mp hmem
  obtain ⟨hgiven, heq⟩ := Prod.mk.inj heq
  obtain ⟨hop, heq⟩ := Prod.mk.inj heq
  obtain ⟨hret, hrecord⟩ := Prod.mk.inj heq
  obtain ⟨-, hother⟩ := hobeys x hx ⟨Option.isNone_iff_eq_none.mp hgiven, hop, hret⟩
  rw [hrecord] at hother
  obtain ⟨hstatus, -⟩ := hother (by decide)
  exact absurd hstatus (by decide)

end ThingIfSdk
