import ThingIfSdk.Command.Dispatch

/-!
# Which runs report their handler calls

`handle_command` hands actions out while it reads the message and while it fills
the request buffer.  A return behind a handler call, because the rest of the
message does not read or because the results do not fit, leaves the calls made so
far unreported.  `handleCommand_reportsCalls_iff` says for every message and
every capacity which runs those are.
-/

namespace ThingIfSdk

open ByteText JsonText Monitoring

variable {σ δ : Type}

def Event.isAction : Event → Bool
  | .action .. => true
  | _ => false

/-- A run that returns after a handler call has run the results request, and its
body holds one entry for each call, in order. -/
def ReportsCalls (before : Kii σ) (run : Flow × CommandState σ δ) : Prop :=
  let new := newEvents before run.2.machine.kii
  run.1 = .returned → handlerCalls new ≠ [] →
    ∃ es later, new.filter Event.isAction = es.map Entry.event ∧
      sentBodies [] new = resultsText es :: later

/-- Everything that the loops read and write goes well: the message does not fail
to read before its end, and the results fit in the room left. -/
structure GoesThrough (handlers : Handlers σ δ) (stack : Stack) (items : List Item)
    (device : δ) (room : Nat) : Prop where
  reads : (loopEnd items).flow ≠ .returned
  fits : (entriesText (entries handlers stack items device).1).length ≤ room
  closes : (loopEnd items).flow = .finished →
    (entriesText (entries handlers stack items device).1).length + 2 ≤ room

/-! ## Counting the actions in a log -/

theorem filter_isAction_of_no_calls {log : List Event} (h : handlerCalls log = []) :
    log.filter Event.isAction = [] := by
  rw [handlerCalls, List.filterMap_eq_nil_iff] at h
  rw [List.filter_eq_nil_iff]
  intro e he
  have hcall := h e he
  cases e with
  | action => cases hcall
  | _ => exact Bool.false_ne_true

theorem filter_isAction_log (es : List Entry) :
    (es.flatMap Entry.log).filter Event.isAction = es.map Entry.event := by
  induction es with
  | nil => rfl
  | cons e es ih =>
      have haccepted : (accepted e.pieces).filter Event.isAction = [] :=
        filter_isAction_of_no_calls (handlerCalls_accepted e.pieces)
      have hlog : e.log.filter Event.isAction = [e.event] := by
        rw [Entry.log, List.filter_cons_of_pos rfl, haccepted]
      rw [List.flatMap_cons, List.filter_append, hlog, ih]
      rfl

/-! ## The runs that report -/

section

variable {sdk : Sdk σ} {remaining : σ → Nat} (hbuf : FixedBuffer sdk.api remaining)
  (handlers : Handlers σ δ) (stack : Stack) (fuel : Nat) {s : CommandState σ δ}
  {actions : JsonFieldOut} {m : Machine σ δ} (hopen : openCommand sdk s = some (actions, m))
  {items : List Item} (hitems : commandItems sdk.json stack s.buffer fuel actions = items)
include hbuf hopen hitems

/-- A complete run sends one entry for each call. -/
theorem report_of_complete (hend : (loopEnd items).flow = .finished)
    (hle : (entriesText (entries handlers stack items m.device).1).length + 2 ≤
      remaining m.kii.core) :
    let new := newEvents s.machine.kii (handleCommand sdk handlers stack fuel s).2.machine.kii
    ∃ es later, new.filter Event.isAction = es.map Entry.event ∧
      sentBodies [] new = resultsText es :: later := by
  obtain ⟨-, -, -, later, hsent⟩ :=
    handleCommand_complete hbuf handlers stack fuel hopen hitems hend hle
  obtain ⟨-, -, call, ret, httpError, responseCode, rest, hlog, hrest⟩ :=
    handleCommand_complete_log hbuf handlers stack fuel hopen hitems hend hle
  refine ⟨_, later, ?_, hsent⟩
  have hhead : handlerCalls [.callStart call 0, .appendBody resultsOpening 0] = [] := rfl
  have htail : handlerCalls (.appendBody resultsClosing 0 ::
      .callRun ret httpError responseCode :: rest) = [] := by
    show handlerCalls rest = []
    exact StateEvents.handlerCalls_eq hrest
  rw [hlog, List.filter_append, List.filter_append, filter_isAction_of_no_calls hhead,
    filter_isAction_of_no_calls htail, filter_isAction_log, List.nil_append, List.append_nil]

/-- A run that is not complete sends nothing, so it reports only when it has
called nothing. -/
theorem reportsCalls_of_incomplete
    (hnot : (loopEnd items).flow ≠ .finished ∨ remaining m.kii.core <
      (entriesText (entries handlers stack items m.device).1).length + 2)
    (hreturned : (handleCommand sdk handlers stack fuel s).1 = .returned) :
    ReportsCalls s.machine.kii (handleCommand sdk handlers stack fuel s) ↔
      (entries handlers stack items m.device).1 = [] := by
  obtain ⟨hrun, hcalls⟩ := handleCommand_incomplete hbuf handlers stack fuel hopen hitems hnot
  unfold ReportsCalls
  simp only [sentBodies_eq_nil hrun, hreturned, forall_const, reduceCtorEq, and_false,
    exists_false]
  rw [← hcalls]
  simp

/-- How a run of the loops ends: early when the results do not fit, otherwise as
the items say. -/
theorem handleCommand_flow :
    (handleCommand sdk handlers stack fuel s).1 =
      if (entriesText (entries handlers stack items m.device).1).length ≤ remaining m.kii.core then
        if (loopEnd items).flow = .finished then .returned else (loopEnd items).flow
      else .returned := by
  subst hitems
  obtain ⟨hfinished, hother⟩ := handleCommand_of_open hopen handlers stack fuel
  split
  · rename_i hle
    obtain ⟨hend, -⟩ := perform_fits hbuf handlers stack hle
    rw [hend] at hfinished hother
    split
    · rename_i hf
      exact (hfinished hf).1
    · rename_i hf
      exact (hother hf).1
  · rename_i hgt
    have hflow := perform_overflows hbuf handlers stack (Nat.lt_of_not_le hgt)
    rw [hflow] at hother
    exact (hother nofun).1

/-- Once the loops are reached, a run reports its calls exactly when it makes none
or everything goes through. -/
theorem reportsCalls_iff_of_open :
    ReportsCalls s.machine.kii (handleCommand sdk handlers stack fuel s) ↔
      (entries handlers stack items m.device).1 = [] ∨
        GoesThrough handlers stack items m.device (remaining m.kii.core) := by
  have hflow := handleCommand_flow hbuf handlers stack fuel hopen hitems
  by_cases hfits : (entriesText (entries handlers stack items m.device).1).length ≤
      remaining m.kii.core
  · rw [if_pos hfits] at hflow
    cases hend : (loopEnd items).flow with
    | finished =>
        rw [hend, if_pos rfl] at hflow
        by_cases hclose : (entriesText (entries handlers stack items m.device).1).length + 2 ≤
            remaining m.kii.core
        · have hreport := report_of_complete hbuf handlers stack fuel hopen hitems hend hclose
          exact iff_of_true (fun _ _ => hreport) (.inr ⟨by rw [hend]; exact nofun, hfits, fun _ => hclose⟩)
        · rw [reportsCalls_of_incomplete hbuf handlers stack fuel hopen hitems (.inr (by omega))
            hflow]
          exact ⟨.inl, fun h => h.resolve_right fun hgo => hclose (hgo.closes hend)⟩
    | returned =>
        rw [hend, if_neg nofun] at hflow
        rw [reportsCalls_of_incomplete hbuf handlers stack fuel hopen hitems
          (.inl (by rw [hend]; exact nofun)) hflow]
        exact ⟨.inl, fun h => h.resolve_right fun hgo => hgo.reads hend⟩
    | undefined =>
        -- the run came to no end of its own
        rw [hend, if_neg nofun] at hflow
        refine iff_of_true (fun h => ?_) (.inr ⟨by rw [hend]; exact nofun, hfits, fun h => ?_⟩)
        · rw [hflow] at h
          cases h
        · rw [hend] at h
          cases h
    | outOfFuel =>
        rw [hend, if_neg nofun] at hflow
        refine iff_of_true (fun h => ?_) (.inr ⟨by rw [hend]; exact nofun, hfits, fun h => ?_⟩)
        · rw [hflow] at h
          cases h
        · rw [hend] at h
          cases h
  · rw [if_neg hfits] at hflow
    rw [reportsCalls_of_incomplete hbuf handlers stack fuel hopen hitems (.inr (by omega)) hflow]
    exact ⟨.inl, fun h => h.resolve_right fun hgo => hfits hgo.fits⟩

end

/-- `handle_command` reports its handler calls exactly when it does not reach the
loops, makes no call in them, or reads the message to its end with room for all
of the results. -/
theorem handleCommand_reportsCalls_iff {sdk : Sdk σ} {remaining : σ → Nat}
    (hbuf : FixedBuffer sdk.api remaining) (handlers : Handlers σ δ) (stack : Stack) (fuel : Nat)
    (s : CommandState σ δ) :
    ReportsCalls s.machine.kii (handleCommand sdk handlers stack fuel s) ↔
      ∀ actions m, openCommand sdk s = some (actions, m) →
        let items := commandItems sdk.json stack s.buffer fuel actions
        (entries handlers stack items m.device).1 = [] ∨
          GoesThrough handlers stack items m.device (remaining m.kii.core) := by
  cases hopen : openCommand sdk s with
  | none =>
      refine iff_of_true ?_ nofun
      obtain ⟨es, hadd, hsilent, -⟩ := handleCommand_of_not_open hopen handlers stack fuel
      intro _ hcalls
      rw [newEvents_eq hadd.log_eq, handlerCalls_of_silent hsilent] at hcalls
      exact absurd rfl hcalls
  | some r =>
      obtain ⟨actions, m⟩ := r
      rw [reportsCalls_iff_of_open hbuf handlers stack fuel hopen rfl]
      constructor
      · intro h actions' m' heq
        cases heq
        exact h
      · intro h
        exact h actions m rfl

theorem lamp_reportsCalls_iff :
    let s : CommandState Nat Nat := ⟨referenceMachine, lampCommand.render⟩
    ReportsCalls s.machine.kii
        (handleCommand (referenceSdk 1000 64) referenceHandlers zeroStack 64 s) ↔
      ∀ actions m, openCommand (referenceSdk 1000 64) s = some (actions, m) →
        let items := commandItems (referenceJson 64) zeroStack s.buffer 64 actions
        (entries referenceHandlers zeroStack items m.device).1 = [] ∨
          GoesThrough referenceHandlers zeroStack items m.device m.kii.core := by
  have hbuf : FixedBuffer (referenceSdk 1000 64).api id := referenceApi_fixedBuffer 1000
  exact handleCommand_reportsCalls_iff hbuf referenceHandlers zeroStack 64
    ⟨referenceMachine, lampCommand.render⟩

/-- With a request buffer of 30 bytes the lamp is switched on and nothing is sent. -/
theorem lamp_not_reported :
    ¬ ReportsCalls referenceMachine.kii
      (handleCommand (referenceSdk 30 64) referenceHandlers zeroStack 64
        ⟨referenceMachine, lampCommand.render⟩) := by
  have hbuf : FixedBuffer (referenceSdk 30 64).api id := referenceApi_fixedBuffer 30
  have hjson : JsonSpec (referenceSdk 30 64).json 64 := referenceJson_spec 64
  obtain ⟨field, hopen, hstart, hstop⟩ := openCommand_fields (m := referenceMachine) hjson
    isCommand_lamp.fields (by decide) (by decide) rfl (by decide)
  have hitems := commandItems_command hjson isCommand_lamp (by decide) zeroStack
    (by decide : lampCommand.val.tokenCount ≤ 64) hstart hstop
  rw [reportsCalls_iff_of_open hbuf referenceHandlers zeroStack 64 hopen hitems]
  have hes : (entries referenceHandlers zeroStack
      (itemsOfAliases (lampCommand.tokenStart lampActions) 0 lampAliases) 0).1 =
        [⟨0, 0, ascii "lamp", ascii "on", ascii "true", none⟩] := rfl
  rintro (hnil | hgo)
  · rw [show referenceMachine.device = 0 from rfl, hes] at hnil
    cases hnil
  · have hfits := hgo.fits
    rw [show referenceMachine.device = 0 from rfl, hes] at hfits
    exact absurd hfits (by decide)

end ThingIfSdk
