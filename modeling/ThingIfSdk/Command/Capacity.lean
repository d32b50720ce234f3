import ThingIfSdk.Command.Dispatch

/-!
# The results request and the size of its buffer

Whether `handle_command` runs the results request depends on the room in the
request buffer; what it sends does not.  A run with a buffer that takes everything
is the measure: `handleCommand_allOrNothing` compares a run with any capacity
against it.
-/

namespace ThingIfSdk

open ByteText JsonText Monitoring

variable {σ δ : Type}

/-- A request buffer of unlimited capacity. -/
structure Unlimited (api : RequestApi σ) : Prop where
  starts : ∀ core call, (api.kiiApiCallStart core call).1 = 0
  accepts : ∀ core bytes, (api.kiiApiCallAppendBody core bytes).1 = 0

namespace Unlimited

variable {sdk : Sdk σ} (h : Unlimited sdk.api)
include h

theorem append_accepted (bytes : Bytes) (kii : Kii σ) :
    (kiiApiCallAppendBody sdk bytes kii).1 = 0 :=
  h.accepts kii.core bytes

theorem appendPieces_accepted (pieces : List Bytes) (kii : Kii σ) :
    (appendPieces sdk pieces kii).1 = false := by
  induction pieces generalizing kii with
  | nil => rfl
  | cons p ps ih =>
      rw [appendPieces_cons, if_neg (not_not.mpr (h.append_accepted p kii))]
      exact ih _

/-- One action: its entry is appended. -/
theorem performAction_accepted (handlers : Handlers σ δ) (stack : Stack) (i j : Nat)
    (a n v : Bytes) (m : Machine σ δ) :
    let r := performAction sdk handlers stack i j a n v m
    let call := callHandler handlers stack i j a n v m.device
    r.1 = false ∧ m.kii.Adds r.2.kii (Entry.log ⟨i, j, a, n, v, call.1⟩) ∧
      r.2.device = call.2 := by
  simp only [performAction_eq]
  generalize callHandler handlers stack i j a n v m.device = call
  have hsep : appendSeparator sdk i j (m.kii.emit (.action a n v call.1)) =
      (appendPieces sdk (separatorPieces i j) (m.kii.emit (.action a n v call.1))).2 :=
    appendSeparator_eq sdk i j _
  rw [hsep]
  have hemit := Kii.Adds.emit m.kii (.action a n v call.1)
  have hfirst := (appendPieces_effect sdk (separatorPieces i j) _).done
    (h.appendPieces_accepted _ (m.kii.emit (.action a n v call.1)))
  have hsecond := (appendPieces_effect sdk (entryPieces n call.1) _).done
    (h.appendPieces_accepted _ (appendPieces sdk (separatorPieces i j)
      (m.kii.emit (.action a n v call.1))).2)
  have hadd := hemit.trans (hfirst.trans hsecond)
  rw [← accepted_append] at hadd
  exact ⟨h.appendPieces_accepted _ _, hadd, trivial⟩

/-- The loops append all entries and end as the items say. -/
theorem perform_accepted (handlers : Handlers σ δ) (stack : Stack) (items : List Item)
    (m : Machine σ δ) :
    let r := perform sdk handlers stack items m
    let es := entries handlers stack items m.device
    r.1 = loopEnd items ∧ m.kii.Adds r.2.kii (es.1.flatMap Entry.log) := by
  induction items generalizing m with
  | nil => exact ⟨rfl, .refl _⟩
  | cons item items ih =>
      cases item with
      | fail held => exact ⟨rfl, .refl _⟩
      | undefined => exact ⟨rfl, .refl _⟩
      | outOfFuel => exact ⟨rfl, .refl _⟩
      | action i j a n v held =>
          obtain ⟨hok, hadd, hdev⟩ := h.performAction_accepted handlers stack i j a n v m
          simp only [perform, entries, hok, Bool.false_eq_true, if_false, loopEnd]
          rw [← hdev, List.flatMap_cons]
          obtain ⟨hend, hadd'⟩ := ih (performAction sdk handlers stack i j a n v m).2
          exact ⟨hend, hadd.trans hadd'⟩

/-- Behind the loops the brackets are closed and the request is run. -/
theorem finishCommand_accepted (handlers : Handlers σ δ) (m : Machine σ δ) :
    ∃ run rest, run.isRun = true ∧ (finishCommand sdk handlers m).kii.log =
      m.kii.log ++ (.appendBody resultsClosing 0 :: run :: rest) := by
  have hret := h.append_accepted resultsClosing m.kii
  have hclosing := (adds_append sdk resultsClosing m.kii).log_eq
  rw [hret] at hclosing
  unfold finishCommand
  simp only [hret, ne_eq, not_true_eq_false, if_false]
  have hrun := kiiApiCallRun_log sdk (kiiApiCallAppendBody sdk resultsClosing m.kii).2
  rw [hclosing] at hrun
  split
  · exact ⟨_, [], rfl, by rw [hrun, List.append_assoc]; rfl⟩
  · obtain ⟨es, -, hlog, -⟩ := prvSendState_log sdk
      (handlers.stateHandlerForCommandReaction m.device)
      (kiiApiCallRun sdk (kiiApiCallAppendBody sdk resultsClosing m.kii).2).2
    exact ⟨_, es, rfl, by rw [hlog, hrun, List.append_assoc, List.append_assoc]; rfl⟩

/-- When the message reads to its end, the results of all actions are sent. -/
theorem handleCommand_sends (handlers : Handlers σ δ) (stack : Stack) (fuel : Nat)
    {s : CommandState σ δ} {actions : JsonFieldOut} {m : Machine σ δ}
    (hopen : openCommand sdk s = some (actions, m))
    (hend : (loopEnd (commandItems sdk.json stack s.buffer fuel actions)).flow = .finished) :
    ∃ later, sentBodies [] (newEvents s.machine.kii
        (handleCommand sdk handlers stack fuel s).2.machine.kii) =
      resultsText (entries handlers stack (commandItems sdk.json stack s.buffer fuel actions)
        m.device).1 :: later := by
  obtain ⟨hloop, hadd⟩ := h.perform_accepted handlers stack
    (commandItems sdk.json stack s.buffer fuel actions) m
  obtain ⟨hfinished, -⟩ := handleCommand_of_open hopen handlers stack fuel
  rw [hloop] at hfinished
  obtain ⟨-, -, hmachine⟩ := hfinished hend
  obtain ⟨run, rest, hisRun, hlog⟩ := h.finishCommand_accepted handlers
    (perform sdk handlers stack (commandItems sdk.json stack s.buffer fuel actions) m).2
  obtain ⟨-, -, call, hcall⟩ := openCommand_adds hopen
  rw [← hmachine, hadd.log_eq, hcall.log_eq, List.append_assoc, List.append_assoc] at hlog
  rw [newEvents_eq hlog, sentBodies_results call _ hisRun rest]
  exact ⟨_, rfl⟩

end Unlimited

/-- A run that gets through its loops with a limited buffer starts alike with an
unlimited one. -/
theorem openCommand_unlimited {sdk : Sdk σ} {api : RequestApi σ} (h : Unlimited api)
    {s : CommandState σ δ} {actions : JsonFieldOut} {m : Machine σ δ}
    (hopen : openCommand sdk s = some (actions, m)) :
    ∃ m', openCommand { sdk with api := api } s = some (actions, m') ∧
      m'.device = s.machine.device := by
  have hread : prvKiiThingIfJsonReadObject { sdk with api := api } s.buffer commandFields =
      prvKiiThingIfJsonReadObject sdk s.buffer commandFields := rfl
  unfold openCommand at hopen ⊢
  rw [hread]
  simp only at hopen ⊢
  split at hopen
  · cases hopen
  · rename_i hgo
    rw [if_neg hgo]
    split at hopen
    · cases hopen
    · rename_i hpath
      rw [if_neg hpath]
      split at hopen
      · cases hopen
      · rename_i text hslice
        have hstart : (resultsStart { sdk with api := api } s.machine.kii text).1 = 0 :=
          h.starts _ _
        have happend : (kiiApiCallAppendBody { sdk with api := api } resultsOpening
            (resultsStart { sdk with api := api } s.machine.kii text).2).1 = 0 := h.accepts _ _
        simp only [hstart, happend, ne_eq, not_true_eq_false, if_false]
        split at hopen
        · cases hopen
        · split at hopen
          · cases hopen
          · obtain ⟨rfl, -⟩ := Prod.mk.inj (Option.some.inj hopen)
            exact ⟨_, rfl, rfl⟩

/-- With any capacity, `handle_command` either runs no request or sends the results
that it sends with unlimited capacity. -/
theorem handleCommand_allOrNothing {sdk : Sdk σ} {remaining : σ → Nat}
    (hbuf : FixedBuffer sdk.api remaining) {api : RequestApi σ} (hunlimited : Unlimited api)
    (handlers : Handlers σ δ) (stack : Stack) (fuel : Nat) (s : CommandState σ δ) :
    let limited := newEvents s.machine.kii
      (handleCommand sdk handlers stack fuel s).2.machine.kii
    let unlimited := newEvents s.machine.kii
      (handleCommand { sdk with api := api } handlers stack fuel s).2.machine.kii
    (∀ e ∈ limited, e.isRun = false) ∨
      ∃ body later later', sentBodies [] limited = body :: later ∧
        sentBodies [] unlimited = body :: later' := by
  simp only
  cases hopen : openCommand sdk s with
  | none =>
      obtain ⟨es, hadd, hsilent, -⟩ := handleCommand_of_not_open hopen handlers stack fuel
      left
      rw [newEvents_eq hadd.log_eq]
      exact fun e he => isRun_of_silent (hsilent e he)
  | some r =>
      obtain ⟨actions, m⟩ := r
      by_cases hcomplete :
          (loopEnd (commandItems sdk.json stack s.buffer fuel actions)).flow = .finished ∧
          (entriesText (entries handlers stack (commandItems sdk.json stack s.buffer fuel actions)
            m.device).1).length + 2 ≤ remaining m.kii.core
      · obtain ⟨-, -, -, later, hsent⟩ := handleCommand_complete hbuf handlers stack fuel hopen rfl
          hcomplete.1 hcomplete.2
        obtain ⟨m', hopen', hdevice'⟩ := openCommand_unlimited hunlimited hopen
        have hunlimited' : Unlimited ({ sdk with api := api } : Sdk σ).api := hunlimited
        obtain ⟨later', hsent'⟩ :=
          hunlimited'.handleCommand_sends handlers stack fuel hopen' hcomplete.1
        have hdevice : m.device = m'.device := (openCommand_adds hopen).2.1.trans hdevice'.symm
        rw [← hdevice] at hsent'
        exact .inr ⟨_, later, later', hsent, hsent'⟩
      · -- a refused comma needs no care: the entry behind it is refused too
        rw [Classical.not_and_iff_not_or_not, Nat.not_le] at hcomplete
        exact .inl (handleCommand_incomplete hbuf handlers stack fuel hopen rfl hcomplete).1

/-- The submodule of `referenceSdk`, with a buffer that takes everything. -/
def unlimitedApi : RequestApi Nat :=
  { referenceApi 0 with kiiApiCallAppendBody := fun core _ => (0, core) }

theorem unlimitedApi_unlimited : Unlimited unlimitedApi where
  starts _ _ := rfl
  accepts _ _ := rfl

theorem lamp_allOrNothing :
    let s : CommandState Nat Nat := ⟨referenceMachine, lampCommand.render⟩
    let sdk := referenceSdk 1000 64
    let limited := newEvents s.machine.kii
      (handleCommand sdk referenceHandlers zeroStack 64 s).2.machine.kii
    let unlimited := newEvents s.machine.kii
      (handleCommand { sdk with api := unlimitedApi } referenceHandlers zeroStack 64
        s).2.machine.kii
    (∀ e ∈ limited, e.isRun = false) ∨
      ∃ body later later', sentBodies [] limited = body :: later ∧
        sentBodies [] unlimited = body :: later' := by
  have hbuf : FixedBuffer (referenceSdk 1000 64).api id := referenceApi_fixedBuffer 1000
  exact handleCommand_allOrNothing hbuf unlimitedApi_unlimited referenceHandlers zeroStack 64
    ⟨referenceMachine, lampCommand.render⟩

end ThingIfSdk
