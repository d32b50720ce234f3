import ThingIfSdk.Requests.Endings
import ThingIfSdk.Requests.Steady

/-!
# The codes of failed calls

A failed call is reported when the code that it stores is the documented class of
the step that failed.  `reported_iff` says which calls are not: those that come to
a lapse, and those whose response is no HTTP response.
-/

namespace ThingIfSdk

open ByteText JsonText Staging

variable {σ : Type}

/-- The classes of the steps that have failed. -/
def failures (before after : Kii σ) : List ErrorCode :=
  (newEvents before after).filterMap Event.failureClass

/-- Some response was no HTTP response. -/
def InvalidResponse (before after : Kii σ) : Prop :=
  ∃ e ∈ newEvents before after, e.isInvalidResponse = true

/-- The caller's record holds one new code, and it is the class of what has failed. -/
structure Stores (before : ErrorSlot) (classes : List ErrorCode) (after : ErrorSlot) : Prop where
  stored : ∃ code r, after = { record := some r, codes := before.codes ++ [code] } ∧
    r.code = code ∧ code ∈ classes ∧ ∀ code' ∈ classes, code' = code

/-- A call that fails stores the class of its failure, if there is a record, and a
call that succeeds leaves the record alone. -/
structure Reported (thing : KiiThingIf σ) (error : ErrorSlot) (op : Operation)
    (out : Outcome σ) : Prop where
  failed : out.ret = false → error.record ≠ none →
    Stores error
      (if op.admits thing.state then
        failures thing.commandHandler out.thing.commandHandler
      else [.invalidState])
      out.error
  succeeded : out.ret = true → out.error = error

/-- The caller gave a record, the call is admitted, and it comes to a step whose
failure is not stored: a refused path, a refused body of the thing id request, a
response that is no HTTP response; or it goes on with a request that was not started
and then fails in another class. -/
def Misreports (sdk : Sdk σ) (thing : KiiThingIf σ) (error : ErrorSlot) (op : Operation) :
    Prop :=
  let after := (op.run sdk thing error).thing.commandHandler
  error.record ≠ none ∧ op.admits thing.state = true ∧
    (op.lapse sdk thing error = some .pathRefused ∨
      op.lapse sdk thing error = some .bodyRefused ∨
      InvalidResponse thing.commandHandler after ∨
      op.lapse sdk thing error = some .startIgnored ∧
        ∃ code ∈ failures thing.commandHandler after, code ≠ .insufficientBuffer)

/-! ## Private functions -/

/-- `Reported` for the private function behind a call. -/
structure CallReported (before : Call σ) (ret : Bool) (after : Call σ) : Prop where
  failed : ret = false → before.error.record ≠ none →
    Stores before.error (failures before.kii after.kii) after.error
  succeeded : ret = true → after.error = before.error

/-- `Misreports` for the private function behind a call. -/
def CallMisreports (before : Call σ) (lapse : Option Lapse) (after : Call σ) : Prop :=
  before.error.record ≠ none ∧
    (lapse = some .pathRefused ∨ lapse = some .bodyRefused ∨
      InvalidResponse before.kii after.kii ∨
      lapse = some .startIgnored ∧ ∃ code ∈ failures before.kii after.kii,
        code ≠ .insufficientBuffer)

theorem failures_of_log {before after : Kii σ} {es : List Event}
    (h : after.log = before.log ++ es) :
    failures before after = es.filterMap Event.failureClass := by
  unfold failures
  rw [newEvents_eq h]

theorem failures_of_good {es : List Event} (h : ∀ e ∈ es, e.isGood = true) :
    es.filterMap Event.failureClass = [] := by
  rw [List.filterMap_eq_nil_iff]
  exact fun e he => failureClass_of_good (h e he)

/-- Responses to steps that went well were valid. -/
theorem valid_of_good {es : List Event} (h : ∀ e ∈ es, e.isGood = true) :
    ¬ ∃ e ∈ es, e.isInvalidResponse = true := by
  rintro ⟨e, he, hinvalid⟩
  rw [isInvalidResponse_of_good (h e he)] at hinvalid
  cases hinvalid

/-- A start that fails has had no response, nor have the pieces behind it. -/
theorem valid_of_started {es : List Event} (h : ∀ e ∈ es, e.isGood = true) (call : ApiCall)
    (ret : Int) (pieces : List Bytes) :
    ¬ ∃ e ∈ es ++ (.callStart call ret :: accepted pieces), e.isInvalidResponse = true := by
  rintro ⟨e, he, hinvalid⟩
  rcases List.mem_append.mp he with he | he
  · exact valid_of_good h ⟨e, he, hinvalid⟩
  · rcases List.mem_cons.mp he with rfl | he
    · cases hinvalid
    · exact valid_of_good (fun _ => isGood_of_mem_accepted) ⟨e, he, hinvalid⟩

theorem invalidResponse_iff {before after : Kii σ} {es : List Event}
    (h : after.log = before.log ++ es) :
    InvalidResponse before after ↔ ∃ e ∈ es, e.isInvalidResponse = true := by
  unfold InvalidResponse
  rw [newEvents_eq h]

theorem stores_setCode {e : ErrorSlot} (h : e.record ≠ none) (code : ErrorCode)
    {classes : List ErrorCode} (hmem : code ∈ classes) (hall : ∀ code' ∈ classes, code' = code) :
    Stores e classes (e.setCode code) := by
  obtain ⟨r, hr⟩ := Option.ne_none_iff_exists'.mp h
  refine ⟨code, { r with code := code }, ?_, rfl, hmem, hall⟩
  unfold ErrorSlot.setCode
  rw [hr]

theorem stores_rejected (sdk : Sdk σ) {c : Call σ} (h : c.error.record ≠ none)
    {classes : List ErrorCode} (hmem : .http ∈ classes) (hall : ∀ code ∈ classes, code = .http) :
    Stores c.error classes (sessionRejected sdk c).error := by
  obtain ⟨r, hr⟩ := Option.ne_none_iff_exists'.mp h
  unfold sessionRejected
  rw [hr]
  exact ⟨.http, _, rfl, rfl, hmem, hall⟩

/-- A code that is stored is one more code. -/
theorem not_stores_self (e : ErrorSlot) (classes : List ErrorCode) : ¬ Stores e classes e := by
  rintro ⟨code, r, h, -⟩
  have hcodes := congrArg (fun e : ErrorSlot => e.codes.length) h
  simp only [List.length_append, List.length_singleton] at hcodes
  omega

/-- A call that fails without a word is reported only when nobody asked. -/
theorem callReported_of_silent {before after : Call σ} (h : after.error = before.error) :
    CallReported before false after ↔ before.error.record = none := by
  constructor
  · intro hreported
    by_contra hrecord
    have hstores := hreported.failed rfl hrecord
    rw [h] at hstores
    exact not_stores_self _ _ hstores
  · intro hnull
    exact ⟨fun _ hne => absurd hnull hne, fun hret => absurd hret Bool.false_ne_true⟩

theorem callReported_of_goesOn {before after : Call σ} (h : after.error = before.error) :
    CallReported before true after :=
  ⟨fun hret => absurd hret.symm Bool.false_ne_true, fun _ => h⟩

/-- The last failure is stored; it is reported when the earlier ones were of its class. -/
theorem callReported_of_stored {before after : Call σ} (hrecord : before.error.record ≠ none)
    {classes : List ErrorCode} {code : ErrorCode}
    (hfailures : failures before.kii after.kii = classes ++ [code])
    (hstored : (∀ code' ∈ classes, code' = code) →
      Stores before.error (classes ++ [code]) after.error) :
    CallReported before false after ↔ ∀ code' ∈ classes, code' = code := by
  constructor
  · intro hreported code' hmem
    have hstores := hreported.failed rfl hrecord
    rw [hfailures] at hstores
    obtain ⟨code₀, -, -, -, -, hall⟩ := hstores.stored
    exact (hall code' (List.mem_append_left _ hmem)).trans
      (hall code (List.mem_append_right _ List.mem_cons_self)).symm
  · intro hsame
    refine ⟨fun _ _ => ?_, fun hret => absurd hret Bool.false_ne_true⟩
    rw [hfailures]
    exact hstored hsame

/-- The endings of calls that give up, from a point that the entries `front` lie before. -/
theorem callReported_of_gaveUp {sdk : Sdk σ} {before mid after : Call σ}
    (herror : mid.error = before.error) {front : List Event}
    (hlog : mid.kii.log = before.kii.log ++ front)
    (hvalid : ¬ ∃ e ∈ front, e.isInvalidResponse = true)
    (hclasses : ∀ code ∈ front.filterMap Event.failureClass, code = .insufficientBuffer)
    (h : GaveUp sdk mid after) :
    CallReported before false after ↔
      ¬ (before.error.record ≠ none ∧ (InvalidResponse before.kii after.kii ∨
        front.filterMap Event.failureClass ≠ [] ∧
          ∃ code ∈ failures before.kii after.kii, code ≠ .insufficientBuffer)) := by
  by_cases hrecord : before.error.record = none
  · refine iff_of_true ?_ fun hne => hne.1 hrecord
    exact ⟨fun _ hne => absurd hrecord hne, fun hret => absurd hret Bool.false_ne_true⟩
  obtain ⟨es, last, hafter, hgood, hend⟩ := h.ending
  rw [hlog, List.append_assoc] at hafter
  rw [herror] at hend
  have hfailures := failures_of_log hafter
  rw [List.filterMap_append, List.filterMap_append, failures_of_good hgood,
    List.nil_append] at hfailures
  have hinvalid := invalidResponse_iff hafter
  generalize front.filterMap Event.failureClass = classes at hclasses hfailures ⊢
  -- where the last failure is stored, the earlier ones must be of its class
  have hstored : ∀ code, last.filterMap Event.failureClass = [code] →
      ((∀ code' ∈ classes ++ [code], code' = code) →
        Stores before.error (classes ++ [code]) after.error) →
      (∀ e ∈ last, e.isInvalidResponse = false) →
      (CallReported before false after ↔
        ¬ (before.error.record ≠ none ∧ (InvalidResponse before.kii after.kii ∨
          classes ≠ [] ∧ ∃ code ∈ failures before.kii after.kii, code ≠ .insufficientBuffer))) := by
    intro code hlast hstores hlastValid
    have hnoInvalid : ¬ InvalidResponse before.kii after.kii := by
      rw [hinvalid]
      rintro ⟨e, he, hinvalid⟩
      rcases List.mem_append.mp he with he | he
      · exact hvalid ⟨e, he, hinvalid⟩
      · rcases List.mem_append.mp he with he | he
        · exact valid_of_good hgood ⟨e, he, hinvalid⟩
        · rw [hlastValid e he] at hinvalid
          cases hinvalid
    rw [hlast] at hfailures
    rw [callReported_of_stored hrecord hfailures fun hsame => hstores ?_, hfailures]
    · constructor
      · rintro hsame ⟨-, hinvalid | ⟨hne, code', hmem, hcode'⟩⟩
        · exact hnoInvalid hinvalid
        · obtain ⟨first, hfirst⟩ := List.exists_mem_of_ne_nil classes hne
          have hcode : code = .insufficientBuffer := (hsame first hfirst).symm.trans (hclasses first hfirst)
          rcases List.mem_append.mp hmem with hmem | hmem
          · exact hcode' (hclasses code' hmem)
          · exact hcode' ((List.mem_singleton.mp hmem).trans hcode)
      · intro hnot code' hmem
        by_contra hne
        refine hnot ⟨hrecord, .inr ⟨List.ne_nil_of_mem hmem, code,
          List.mem_append_right _ List.mem_cons_self, fun hcode => hne ?_⟩⟩
        exact (hclasses code' hmem).trans hcode.symm
    · intro code' hmem
      rcases List.mem_append.mp hmem with hmem | hmem
      · exact hsame code' hmem
      · exact List.mem_singleton.mp hmem
  generalize hslot : after.error = slot at hend
  cases hend with
  | @coded e code hclass hcode hvalidLast =>
      refine hstored code (by simp [hclass]) (fun hall => ?_) (by simp [hvalidLast])
      rw [hslot]
      exact stores_setCode hrecord code (List.mem_append_right _ List.mem_cons_self) hall
  | rejected httpError hstatus =>
      refine hstored .http (by simp [Event.failureClass, hstatus]) (fun hall => ?_)
        (by simp [isInvalidResponse_of_run_zero])
      rw [hslot]
      have hstores := stores_rejected sdk (c := ⟨after.kii, before.error⟩) hrecord
        (List.mem_append_right classes List.mem_cons_self) hall
      exact hstores
  | invalidResponse hret responseCode =>
      rw [callReported_of_silent hslot]
      refine iff_of_false hrecord (not_not.mpr ⟨hrecord, .inl (hinvalid.mpr ?_)⟩)
      refine ⟨_, List.mem_append_right _ (List.mem_append_right _ List.mem_cons_self), ?_⟩
      exact decide_eq_true hret

theorem callReported_iff {sdk : Sdk σ} {before after : Call σ} {lapse : Option Lapse}
    {ret : Bool} (h : CallEnds sdk before lapse ret after) :
    CallReported before ret after ↔ ¬ CallMisreports before lapse after := by
  have hgood : ∀ {c}, Going before c → ¬ InvalidResponse before.kii c.kii := by
    rintro c ⟨-, -, es, hlog, hes⟩
    rw [invalidResponse_iff hlog]
    exact valid_of_good hes
  have hnone : ∀ {c : Call σ}, CallMisreports before none c ↔
      before.error.record ≠ none ∧ InvalidResponse before.kii c.kii := by
    intro c
    unfold CallMisreports
    simp
  cases h with
  | goesOn h =>
      rw [hnone]
      exact iff_of_true (callReported_of_goesOn h.error) fun hmis => hgood h hmis.2
  | givesUp h =>
      rw [hnone, callReported_of_gaveUp rfl (List.append_nil _).symm (by simp) (by simp) h]
      simp
  | pathRefused h =>
      have herror : (refusedPath _).error = before.error := h.error
      rw [callReported_of_silent herror]
      unfold CallMisreports
      simp
  | @bodyRefused c h call ret front p ret' kii hlogs =>
      have herror : ({ c with kii := kii } : Call σ).error = before.error := h.error
      rw [callReported_of_silent herror]
      unfold CallMisreports
      simp
  -- The one copy that goes on behind a failed start: its refused start is the only
  -- failure so far, and no response of it was unreadable.
  | @startIgnored c _ h call startRet hret pieces kii hlogs _ hon hup =>
      obtain ⟨herror, -, es, hlog, hes⟩ := h
      have hmid : kii.log = before.kii.log ++ (es ++ (.callStart call startRet :: accepted pieces)) := by
        rw [hlogs.log_eq, hlog, List.append_assoc]
      have hclasses : (es ++ (.callStart call startRet :: accepted pieces)).filterMap
          Event.failureClass = [.insufficientBuffer] := by
        rw [List.filterMap_append, failures_of_good hes, List.nil_append, List.filterMap_cons,
          failures_of_good fun _ => isGood_of_mem_accepted]
        simp only [Event.failureClass, if_neg hret]
      have hvalid := valid_of_started hes call startRet pieces
      cases ret with
      | true =>
          obtain ⟨herror', -, rest, hlog', hrest⟩ := hon rfl
          have hafter : after.kii.log = before.kii.log ++
              ((es ++ (.callStart call startRet :: accepted pieces)) ++ rest) := by
            rw [hlog']
            simp only [hmid, List.append_assoc]
          refine iff_of_true (callReported_of_goesOn (herror'.trans herror)) ?_
          rintro ⟨-, hlapse | hlapse | hinvalid | ⟨-, code, hmem, hcode⟩⟩
          · cases hlapse
          · cases hlapse
          · rw [invalidResponse_iff hafter] at hinvalid
            obtain ⟨e, he, hinvalid⟩ := hinvalid
            rcases List.mem_append.mp he with he | he
            · exact hvalid ⟨e, he, hinvalid⟩
            · exact valid_of_good hrest ⟨e, he, hinvalid⟩
          · rw [failures_of_log hafter, List.filterMap_append, hclasses,
              failures_of_good hrest] at hmem
            exact hcode (List.mem_singleton.mp hmem)
      | false =>
          have hiff := @callReported_of_gaveUp _ sdk before { c with kii := kii } after herror _
            hmid hvalid (by simp [hclasses]) (hup rfl)
          rw [hiff, hclasses]
          unfold CallMisreports
          simp

/-! ## Public functions -/

/-- The codes of calls are as documented, except for the calls that `Misreports` names. -/
theorem reported_iff {sdk : Sdk σ} (hjson : CopiesFields sdk.json)
    (thing : KiiThingIf σ) (error : ErrorSlot) {op : Operation} (hop : op.takesError = true) :
    Reported thing error op (op.run sdk thing error) ↔ ¬ Misreports sdk thing error op := by
  cases hadmits : op.admits thing.state with
  | false =>
      rw [operation_refused thing error hadmits]
      refine iff_of_true ⟨fun _ hrecord => ?_, fun hret => absurd hret Bool.false_ne_true⟩ ?_
      · rw [hadmits, if_neg Bool.false_ne_true]
        exact stores_setCode hrecord .invalidState List.mem_cons_self (by simp)
      · rintro ⟨-, hadmits', -⟩
        rw [hadmits] at hadmits'
        cases hadmits'
  | true =>
      obtain ⟨goesOn, hends, hret⟩ := (operation_ends thing error hop hadmits).ends
      have hiff := callReported_iff hends
      have hmis : Misreports sdk thing error op ↔ CallMisreports ⟨thing.commandHandler, error⟩
          (op.lapse sdk thing error)
          ⟨(op.run sdk thing error).thing.commandHandler, (op.run sdk thing error).error⟩ := by
        unfold Misreports CallMisreports
        simp only [hadmits, true_and]
      rw [hmis, ← hiff, ← hret hjson]
      constructor
      · rintro ⟨hfailed, hsucceeded⟩
        rw [hadmits, if_pos rfl] at hfailed
        exact ⟨hfailed, hsucceeded⟩
      · rintro ⟨hfailed, hsucceeded⟩
        refine ⟨?_, hsucceeded⟩
        rw [hadmits, if_pos rfl]
        exact hfailed

/-- Both requests of an onboarding that is rejected are run. -/
theorem rejected_run {thing : KiiThingIf (List Reply)} (hstate : thing.state ≠ .started)
    (happ : thing.commandHandler.appId = ascii "app")
    (hcore : thing.commandHandler.core = [.ok tokenResponse, notFound]) :
    let out := (Operation.onboardWithVendorThingId plainArgs).run (answeringSdk []) thing freshError
    out.ret = false ∧ out.thing.commandHandler.core = [] := by
  intro out
  obtain ⟨c, hrejected, hrest⟩ := @vendor_rejected [] [] _ happ hcore freshError
  have hout : out = { ret := false
                      thing := { thing with commandHandler := c.kii }
                      error := c.error
                      out := none } :=
    onboardWith_of_failed (answeringSdk []) hstate hrejected
  rw [hout]
  exact ⟨rfl, hrest⟩

/-- An onboarding that gets its token, and whose own request is rejected. -/
theorem reported_iff_rejected :
    let thing := steadyThing [.ok tokenResponse, notFound]
    let out := (Operation.onboardWithVendorThingId plainArgs).run (answeringSdk []) thing freshError
    (out.ret = false ∧ out.thing.commandHandler.core = []) ∧
      (Reported thing freshError (.onboardWithVendorThingId plainArgs) out ↔
        ¬ Misreports (answeringSdk []) thing freshError (.onboardWithVendorThingId plainArgs)) :=
  ⟨rejected_run nofun rfl rfl, reported_iff (referenceJson_copiesFields 64) _ freshError rfl⟩

/-- An onboarded instance with an app id of 100 letters. -/
def longAppThing : KiiThingIf (List Reply) where
  commandHandler := { Kii.zeroed steadySdk with appId := List.replicate 100 97 }
  stateUpdater := Kii.zeroed steadySdk
  stateUpdatePeriod := 60
  state := .onboarded

/-- Its path for the firmware version does not fit 128 bytes, and no code is stored. -/
theorem longApp_not_reported :
    ¬ Reported longAppThing freshError (.getFirmwareVersion 16)
      ((Operation.getFirmwareVersion 16).run steadySdk longAppThing freshError) := by
  have hpath : prvSetFirmwareVersionResourcePath steadySdk.platform
      longAppThing.commandHandler.appId longAppThing.commandHandler.author.authorId 128 = none := by
    unfold prvSetFirmwareVersionResourcePath prvSetResourcePath
    exact if_pos (by decide)
  have hrun : (Operation.getFirmwareVersion 16).run steadySdk longAppThing freshError =
      { ret := false
        thing := { longAppThing with commandHandler := longAppThing.commandHandler.refusePath }
        error := freshError
        out := none } := by
    simp only [Operation.run, getFirmwareVersion]
    rw [whenOnboarded_of_onboarded rfl]
    unfold requestProperty
    simp only [hpath]
  intro hreported
  rw [hrun] at hreported
  exact not_stores_self _ _ (hreported.failed rfl (by simp [freshError]))

end ThingIfSdk
