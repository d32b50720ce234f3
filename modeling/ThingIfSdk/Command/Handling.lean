import ThingIfSdk.Command.Ignoring
import ThingIfSdk.Requests.Snapshots

/-!
# What a message comes to

Whatever the message and however the submodule behaves, handling it performs the actions
at the front of the message, in order; and either nothing is sent, or all of them were
performed, and their results are sent and then perhaps the state they lead to.
-/

namespace ThingIfSdk

open ByteText JsonText Monitoring

variable {σ δ : Type}

/-- The strings of a handler call. -/
abbrev HandlerCall := Bytes × Bytes × Bytes

/-- The items of a message as `handle_command` finds them. -/
def messageItems (json : JsonApi) (stack : Stack) (fuel : Nat) (message : Bytes) : List Item :=
  commandItems json stack message fuel ((json.kiiJsonReadObject message commandFields).2 1)

/-- What handling a message comes to: the device that it leaves, the calls of the action
handler, and the bodies of the requests. -/
inductive Handling (handlers : Handlers σ δ) (stack : Stack) (items : List Item) (device : δ) :
    δ → List HandlerCall → List Bytes → Prop where
  | stopped (n : Nat) :
      Handling handlers stack items device (entries handlers stack (items.take n) device).2
        ((entries handlers stack (items.take n) device).1.map Entry.call) []
  | reported (hend : (loopEnd items).flow = .finished) {later : List Bytes}
      (hlater : later = [] ∨ later = [(handlers.stateHandlerForCommandReaction
        (entries handlers stack items device).2).text]) :
      Handling handlers stack items device (entries handlers stack items device).2
        ((entries handlers stack items device).1.map Entry.call)
        (resultsText (entries handlers stack items device).1 :: later)

theorem performAction_device (sdk : Sdk σ) (handlers : Handlers σ δ) (stack : Stack) (i j : Nat)
    (a n v : Bytes) (m : Machine σ δ) :
    (performAction sdk handlers stack i j a n v m).2.device =
      (callHandler handlers stack i j a n v m.device).2 := by
  rw [performAction_eq]

/-- Whatever is refused, it is actions at the front of the items that are performed. -/
theorem perform_front (sdk : Sdk σ) (handlers : Handlers σ δ) (stack : Stack)
    (items : List Item) (m : Machine σ δ) :
    ∃ n es, m.kii.Adds (perform sdk handlers stack items m).2.kii es ∧
      (∀ e ∈ es, e.isRun = false) ∧
      handlerCalls es = (entries handlers stack (items.take n) m.device).1.map Entry.call ∧
      (perform sdk handlers stack items m).2.device =
        (entries handlers stack (items.take n) m.device).2 := by
  induction items generalizing m with
  | nil => exact ⟨0, [], .refl _, by simp, rfl, rfl⟩
  | cons item items ih =>
      cases item with
      | fail held => exact ⟨0, [], .refl _, by simp, rfl, rfl⟩
      | undefined => exact ⟨0, [], .refl _, by simp, rfl, rfl⟩
      | outOfFuel => exact ⟨0, [], .refl _, by simp, rfl, rfl⟩
      | action i j a n v held =>
          obtain ⟨es, hadd, happend⟩ := performAction_adds sdk handlers stack i j a n v m
          have hdevice := performAction_device sdk handlers stack i j a n v m
          have hrun : ∀ e ∈ es, e.isRun = false :=
            fun e he => isRun_of_silent (isSilent_of_isAppend (happend e he))
          have hcalls : handlerCalls es = [] :=
            handlerCalls_of_silent fun e he => isSilent_of_isAppend (happend e he)
          simp only [perform]
          -- The handler has been called by the time an append is refused, so this item counts.
          by_cases hf : (performAction sdk handlers stack i j a n v m).1 = true
          · rw [if_pos hf]
            refine ⟨1, _, hadd, ?_, ?_, hdevice⟩
            · intro e he
              rcases List.mem_cons.mp he with rfl | he
              · rfl
              · exact hrun e he
            · show (a, n, v) :: handlerCalls es = _
              rw [hcalls]
              rfl
          · rw [if_neg hf]
            obtain ⟨k, es', hadd', hrun', hcalls', hdevice'⟩ :=
              ih (performAction sdk handlers stack i j a n v m).2
            refine ⟨k + 1, _, hadd.trans hadd', ?_, ?_, ?_⟩
            · intro e he
              rcases List.mem_append.mp he with he | he
              · rcases List.mem_cons.mp he with rfl | he
                · rfl
                · exact hrun e he
              · exact hrun' e he
            · rw [hdevice] at hcalls'
              show (a, n, v) :: handlerCalls (es ++ es') = _
              rw [handlerCalls_append, hcalls, hcalls']
              rfl
            · rw [hdevice', hdevice]
              rfl

/-- Behind the loops, with room for the closing brackets. -/
theorem finishCommand_uploads {sdk : Sdk σ} {handlers : Handlers σ δ}
    (hhonest : ∀ device, (handlers.stateHandlerForCommandReaction device).Honest)
    {m : Machine σ δ} (hclosing : (kiiApiCallAppendBody sdk resultsClosing m.kii).1 = 0) :
    ∃ ret httpError responseCode es,
      (finishCommand sdk handlers m).kii.log = m.kii.log ++
        (.appendBody resultsClosing 0 :: .callRun ret httpError responseCode :: es) ∧
      Uploads (handlers.stateHandlerForCommandReaction m.device).text es ∧
      handlerCalls es = [] := by
  have hlog := (adds_append sdk resultsClosing m.kii).log_eq
  rw [hclosing] at hlog
  unfold finishCommand
  simp only [hclosing, ne_eq, not_true_eq_false, if_false]
  generalize kiiApiCallAppendBody sdk resultsClosing m.kii = closing at hlog
  have hrun : ∃ ret httpError responseCode, (kiiApiCallRun sdk closing.2).2.log =
      closing.2.log ++ [.callRun ret httpError responseCode] := ⟨_, _, _, rfl⟩
  obtain ⟨ret, httpError, responseCode, hrun⟩ := hrun
  rw [hlog] at hrun
  split
  · refine ⟨ret, httpError, responseCode, [], by rw [hrun]; simp, ?_, rfl⟩
    exact fun body => .inl rfl
  · obtain ⟨es, huploads, hsent⟩ := prvSendState_uploads sdk (hhonest m.device)
      (kiiApiCallRun sdk closing.2).2
    obtain ⟨es', hes', hsent', -⟩ := prvSendState_log sdk
      (handlers.stateHandlerForCommandReaction m.device) (kiiApiCallRun sdk closing.2).2
    rw [hsent, List.append_cancel_left_eq] at hsent'
    refine ⟨ret, httpError, responseCode, es, by rw [hsent, hrun]; simp, huploads, ?_⟩
    rw [hsent']
    exact StateEvents.handlerCalls_eq (.inr hes')

/-- The entries of a run that has opened its body. -/
def openingEvents (call : ApiCall) : List Event :=
  [.callStart call 0, .appendBody resultsOpening 0]

theorem handling_stopped {handlers : Handlers σ δ} {stack : Stack} {items : List Item}
    {device device' : δ} {n : Nat} {call : ApiCall} {es rest : List Event}
    (hrun : ∀ e ∈ es, e.isRun = false) (hrest : ∀ e ∈ rest, e.isSilent = true)
    (hcalls : handlerCalls es = (entries handlers stack (items.take n) device).1.map Entry.call)
    (hdevice : device' = (entries handlers stack (items.take n) device).2) :
    Handling handlers stack items device device' (handlerCalls (openingEvents call ++ es ++ rest))
      (sentBodies [] (openingEvents call ++ es ++ rest)) := by
  have hnone : ∀ e ∈ openingEvents call ++ es ++ rest, e.isRun = false := by
    intro e he
    simp only [openingEvents, List.cons_append, List.nil_append, List.mem_cons, List.mem_append]
      at he
    rcases he with rfl | rfl | he | he
    · rfl
    · rfl
    · exact hrun e he
    · exact isRun_of_silent (hrest e he)
  have hopening : handlerCalls (openingEvents call) = [] := rfl
  rw [sentBodies_eq_nil hnone, handlerCalls_append, handlerCalls_append, hopening,
    handlerCalls_of_silent hrest, List.nil_append, List.append_nil, hcalls, hdevice]
  exact .stopped n

section

variable {sdk : Sdk σ} {handlers : Handlers σ δ} {stack : Stack} {items : List Item}
  {m₀ m : Machine σ δ} {call : ApiCall} (hcall : m₀.kii.Adds m.kii (openingEvents call))

include hcall

/-- The loops end early. -/
theorem handling_of_unfinished :
    let r := perform sdk handlers stack items m
    Handling handlers stack items m.device r.2.device (handlerCalls (newEvents m₀.kii r.2.kii))
      (sentBodies [] (newEvents m₀.kii r.2.kii)) := by
  obtain ⟨n, es, hadd, hrun, hcalls, hmade⟩ := perform_front sdk handlers stack items m
  have hlog := (hcall.trans hadd).log_eq
  have hstopped := @handling_stopped _ _ handlers stack items m.device _ n call es [] hrun (by simp)
    hcalls hmade
  rw [List.append_nil] at hstopped
  simp only [newEvents_eq hlog]
  exact hstopped

/-- The loops are through, and the end of the function is reached. -/
theorem handling_of_finished {remaining : σ → Nat} (hbuf : FixedBuffer sdk.api remaining)
    (hhonest : ∀ device, (handlers.stateHandlerForCommandReaction device).Honest)
    (hflow : (perform sdk handlers stack items m).1.flow = .finished) :
    let m' := finishCommand sdk handlers (perform sdk handlers stack items m).2
    Handling handlers stack items m.device m'.device (handlerCalls (newEvents m₀.kii m'.kii))
      (sentBodies [] (newEvents m₀.kii m'.kii)) := by
  simp only [finishCommand_device]
  by_cases hclosing : (kiiApiCallAppendBody sdk resultsClosing
      (perform sdk handlers stack items m).2.kii).1 = 0
  · -- all entries were accepted, or the loops would have returned
    have hfits : (entriesText (entries handlers stack items m.device).1).length ≤
        remaining m.kii.core := by
      by_contra hgt
      rw [perform_overflows hbuf handlers stack (by omega)] at hflow
      cases hflow
    obtain ⟨hend, hall, hleft, -⟩ := perform_fits hbuf handlers stack hfits
    obtain ⟨ret, httpError, responseCode, later, hsent, huploads, hquiet⟩ :=
      finishCommand_uploads hhonest hclosing
    rw [hall.log_eq, hcall.log_eq] at hsent
    rw [hend] at hflow
    rw [hleft] at huploads ⊢
    simp only [List.append_assoc] at hsent
    have hcalls : handlerCalls (openingEvents call ++
        ((entries handlers stack items m.device).1.flatMap Entry.log ++
          .appendBody resultsClosing 0 :: .callRun ret httpError responseCode :: later)) =
        (entries handlers stack items m.device).1.map Entry.call := by
      have hopening : handlerCalls (openingEvents call) = [] := rfl
      have hclosed : handlerCalls (.appendBody resultsClosing 0 ::
          .callRun ret httpError responseCode :: later) = handlerCalls later := rfl
      rw [handlerCalls_append, handlerCalls_append, hopening, hclosed, hquiet, handlerCalls_log,
        List.nil_append, List.append_nil]
    rw [newEvents_eq hsent, hcalls, openingEvents,
      sentBodies_results call (entries handlers stack items m.device).1 rfl later]
    exact .reported hflow (huploads _)
  · obtain ⟨n, es, hadd, hrun, hcalls, hmade⟩ := perform_front sdk handlers stack items m
    have hnot : (finishCommand sdk handlers (perform sdk handlers stack items m).2).kii =
        (kiiApiCallAppendBody sdk resultsClosing (perform sdk handlers stack items m).2.kii).2 := by
      unfold finishCommand
      simp only
      rw [if_pos hclosing]
    have hlog := ((hcall.trans hadd).trans (adds_append sdk resultsClosing _)).log_eq
    rw [hnot, newEvents_eq hlog]
    exact handling_stopped hrun (by simp [Event.isSilent, Event.isRun, Event.handlerCall]) hcalls
      hmade

end

theorem handleCommand_handling {sdk : Sdk σ} {remaining : σ → Nat}
    (hbuf : FixedBuffer sdk.api remaining) {handlers : Handlers σ δ}
    (hhonest : ∀ device, (handlers.stateHandlerForCommandReaction device).Honest)
    (stack : Stack) (fuel : Nat) (s : CommandState σ δ) :
    let m' := (handleCommand sdk handlers stack fuel s).2.machine
    Handling handlers stack (messageItems sdk.json stack fuel s.buffer) s.machine.device m'.device
      (handlerCalls (newEvents s.machine.kii m'.kii))
      (sentBodies [] (newEvents s.machine.kii m'.kii)) := by
  cases hopen : openCommand sdk s with
  | none =>
      obtain ⟨es, hadd, hsilent, hdevice, -⟩ := handleCommand_of_not_open hopen handlers stack fuel
      simp only
      rw [newEvents_eq hadd.log_eq, handlerCalls_of_silent hsilent, hdevice,
        sentBodies_eq_nil (fun e he => isRun_of_silent (hsilent e he))]
      exact .stopped 0
  | some opened =>
      obtain ⟨actions, m⟩ := opened
      obtain ⟨hactions, hdevice, call, hcall⟩ := openCommand_adds hopen
      have hitems : commandItems sdk.json stack s.buffer fuel actions =
          messageItems sdk.json stack fuel s.buffer := by
        rw [hactions]
        rfl
      obtain ⟨hfinished, hother⟩ := handleCommand_of_open hopen handlers stack fuel
      rw [hitems] at hfinished hother
      rw [← hdevice]
      by_cases hflow : (perform sdk handlers stack (messageItems sdk.json stack fuel s.buffer)
          m).1.flow = .finished
      · simp only [(hfinished hflow).2.2]
        exact handling_of_finished hcall hbuf hhonest hflow
      · simp only [(hother hflow).2.1]
        exact handling_of_unfinished hcall

end ThingIfSdk
