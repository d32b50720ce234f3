import ThingIfSdk.Command.Reference
import ThingIfSdk.Command.Run

/-!
# Messages that are not commands

`handle_command` lets a partial success through when the command id was found,
without looking at the result of the other field.  A message without an array of
actions is therefore ignored only when it has no command id either, or one that
makes the resource path too long.
-/

namespace ThingIfSdk

open ByteText JsonText

variable {σ δ : Type}

/-- The message parses. -/
def Parses (json : JsonApi) (t : Bytes) : Prop :=
  (json.kiiJsonReadObject t commandFields).1 = .success ∨
    (json.kiiJsonReadObject t commandFields).1 = .partialSuccess

/-- The message parses and has a string `commandID`. -/
def HasCommandId (json : JsonApi) (t : Bytes) : Prop :=
  Parses json t ∧ ((json.kiiJsonReadObject t commandFields).2 0).result = .success

/-- The message parses and has an array `actions`. -/
def HasActions (json : JsonApi) (t : Bytes) : Prop :=
  Parses json t ∧ ((json.kiiJsonReadObject t commandFields).2 1).result = .success

/-- The guard on the resource path refuses. -/
def PathRefused (sdk : Sdk σ) (s : CommandState σ δ) : Prop :=
  256 ≤ resultsPathLength sdk.platform s.machine.kii.appId s.machine.kii.author.authorId
    ((prvKiiThingIfJsonReadObject sdk s.buffer commandFields).2 0).start
    ((prvKiiThingIfJsonReadObject sdk s.buffer commandFields).2 0).stop

/-- The state in which a message reaches `handle_command`, when the custom handler
does not claim it. -/
def unclaimed (handlers : Handlers σ δ) (s : CommandState σ δ) : Option (CommandState σ δ) :=
  match handlers.customPushHandler with
  | none => some s
  | some handler =>
      let r := handler s.machine.kii s.machine.device s.buffer
      if r.1 then none else some { s with machine := { kii := r.2.1, device := r.2.2 } }

theorem receivedCallback_unclaimed {sdk : Sdk σ} {handlers : Handlers σ δ}
    {s s' : CommandState σ δ} (h : unclaimed handlers s = some s') (stack : Stack) (fuel : Nat) :
    receivedCallback sdk handlers stack fuel s = handleCommand sdk handlers stack fuel s' := by
  unfold unclaimed at h
  unfold receivedCallback
  cases hc : handlers.customPushHandler with
  | none =>
      simp only [hc, Option.some.injEq] at h
      rw [h]
  | some handler =>
      simp only [hc] at h ⊢
      split at h
      · cases h
      · rename_i hr
        rw [if_neg hr]
        cases h
        rfl

/-! ## The log only grows -/

theorem dispatchCommand_log (sdk : Sdk σ) (handlers : Handlers σ δ) (stack : Stack) (fuel : Nat)
    (arrayStr arrayLen : Int) (s : CommandState σ δ) :
    ∃ es, (dispatchCommand sdk handlers stack fuel arrayStr arrayLen s).2.machine.kii.log =
      s.machine.kii.log ++ es := by
  have hopening := (adds_append sdk resultsOpening s.machine.kii).log_eq
  unfold dispatchCommand
  simp only
  split
  · exact ⟨_, hopening⟩
  · have hrefines := aliasLoop_refines sdk handlers stack s.buffer arrayStr arrayLen fuel fuel 0
      { s.machine with kii := (kiiApiCallAppendBody sdk resultsOpening s.machine.kii).2 }
    obtain ⟨es, hadd, -⟩ := perform_adds sdk handlers stack
      (aliasItems sdk.json stack s.buffer arrayStr arrayLen fuel fuel 0)
      { s.machine with kii := (kiiApiCallAppendBody sdk resultsOpening s.machine.kii).2 }
    have hlog := hadd.log_eq
    rw [← hrefines.machine_eq] at hlog
    simp only at hlog
    rw [hopening, List.append_assoc] at hlog
    generalize aliasLoop sdk handlers stack arrayStr arrayLen fuel fuel 0
      { machine := { s.machine with
          kii := (kiiApiCallAppendBody sdk resultsOpening s.machine.kii).2 }
        buffer := s.buffer } = r at hlog ⊢
    obtain ⟨flow, s'⟩ := r
    cases flow with
    | finished =>
        obtain ⟨es', hes', -⟩ := finishCommand_log sdk handlers s'.machine
        simp only at hlog
        rw [hlog, List.append_assoc] at hes'
        exact ⟨_, hes'⟩
    | returned | undefined | outOfFuel => exact ⟨_, hlog⟩

/-! ## What is ignored -/

section

variable {sdk : Sdk σ} (hreport : FieldReport sdk.json)

/-- A message without a command id leaves everything as it is. -/
theorem handleCommand_no_id (handlers : Handlers σ δ) (stack : Stack) (fuel : Nat)
    {s : CommandState σ δ} (hid : ¬ HasCommandId sdk.json s.buffer)
    (hnot : (sdk.json.kiiJsonReadObject s.buffer commandFields).1 ≠ .success) :
    handleCommand sdk handlers stack fuel s = (.returned, s) := by
  have hgo : commandGoesOn (prvKiiThingIfJsonReadObject sdk s.buffer commandFields) = false := by
    unfold commandGoesOn prvKiiThingIfJsonReadObject
    cases h : (sdk.json.kiiJsonReadObject s.buffer commandFields).1 with
    | success => exact absurd h hnot
    | rootTypeError | invalidInput => rfl
    | partialSuccess =>
        rw [decide_eq_false_iff_not]
        exact fun hres => hid ⟨.inr h, hres⟩
  unfold handleCommand
  simp only
  rw [if_pos hgo]

theorem handleCommand_path_refused (handlers : Handlers σ δ) (stack : Stack) (fuel : Nat)
    {s : CommandState σ δ} (hpath : PathRefused sdk s) :
    handleCommand sdk handlers stack fuel s = (.returned, s) := by
  unfold PathRefused at hpath
  unfold handleCommand
  simp only [if_pos hpath, ite_self]

include hreport

/-- `handle_command` goes on exactly when it has found the command id. -/
theorem commandGoesOn_iff (m : Bytes) :
    commandGoesOn (prvKiiThingIfJsonReadObject sdk m commandFields) = true ↔
      HasCommandId sdk.json m := by
  unfold commandGoesOn prvKiiThingIfJsonReadObject HasCommandId
  cases h : (sdk.json.kiiJsonReadObject m commandFields).1 with
  | success => simp [Parses, h, hreport.success m commandFields h 0 (by decide)]
  | partialSuccess => simp [Parses, h]
  | rootTypeError | invalidInput => simp [Parses, h]

/-- A command id that was found lies in the message. -/
theorem slice?_commandId {m : Bytes} (hid : HasCommandId sdk.json m) :
    ∃ text, slice? m ((prvKiiThingIfJsonReadObject sdk m commandFields).2 0).start
      ((((prvKiiThingIfJsonReadObject sdk m commandFields).2 0).stop : Int) -
        ((prvKiiThingIfJsonReadObject sdk m commandFields).2 0).start) = some text := by
  obtain ⟨hle, hin⟩ := hreport.span m commandFields 0 (by decide) hid.1 hid.2
  unfold slice? prvKiiThingIfJsonReadObject
  rw [if_pos ⟨by omega, by omega, by omega⟩]
  exact ⟨_, rfl⟩

/-- A message with a command id starts a request, whatever else it has. -/
theorem handleCommand_starts (handlers : Handlers σ δ) (stack : Stack) (fuel : Nat)
    {s : CommandState σ δ} (hid : HasCommandId sdk.json s.buffer)
    (hpath : ¬ PathRefused sdk s) :
    ∃ call ret es, (handleCommand sdk handlers stack fuel s).2.machine.kii.log =
      s.machine.kii.log ++ .callStart call ret :: es := by
  have hgo := (commandGoesOn_iff hreport s.buffer).mpr hid
  obtain ⟨text, htext⟩ := slice?_commandId hreport hid
  obtain ⟨call, hcall⟩ := adds_resultsStart sdk s.machine.kii text
  have hgo' : ¬ commandGoesOn (prvKiiThingIfJsonReadObject sdk s.buffer commandFields) = false := by
    rw [hgo]
    exact nofun
  unfold PathRefused at hpath
  unfold handleCommand
  simp only [if_neg hgo', if_neg hpath, htext]
  split
  · exact ⟨call, _, [], hcall.log_eq⟩
  · obtain ⟨es, hes⟩ := dispatchCommand_log sdk handlers stack fuel
      ((prvKiiThingIfJsonReadObject sdk s.buffer commandFields).2 1).start
      ((((prvKiiThingIfJsonReadObject sdk s.buffer commandFields).2 1).stop : Int) -
        ((prvKiiThingIfJsonReadObject sdk s.buffer commandFields).2 1).start)
      { s with machine := { s.machine with kii := (resultsStart sdk s.machine.kii text).2 } }
    rw [hcall.log_eq, List.append_assoc] at hes
    exact ⟨call, _, es, hes⟩

end

/-- A message that is not a command is ignored exactly when it has no command id or
one whose resource path is refused. -/
theorem receivedCallback_ignores_iff {sdk : Sdk σ} (hreport : FieldReport sdk.json)
    (handlers : Handlers σ δ) (stack : Stack) (fuel : Nat) {s s' : CommandState σ δ}
    (hunclaimed : unclaimed handlers s = some s') :
    (¬ (HasCommandId sdk.json s'.buffer ∧ HasActions sdk.json s'.buffer) →
      receivedCallback sdk handlers stack fuel s = (.returned, s')) ↔
    (HasActions sdk.json s'.buffer ∨ ¬ HasCommandId sdk.json s'.buffer ∨ PathRefused sdk s') := by
  rw [receivedCallback_unclaimed hunclaimed]
  constructor
  · intro hignored
    by_contra hcond
    rw [not_or, not_or, not_not] at hcond
    obtain ⟨hactions, hid, hpath⟩ := hcond
    have hrun := hignored fun h => hactions h.2
    obtain ⟨call, ret, es, hlog⟩ := handleCommand_starts hreport handlers stack fuel hid hpath
    rw [hrun] at hlog
    simp at hlog
  · intro hcond hnot
    have hsuccess : (sdk.json.kiiJsonReadObject s'.buffer commandFields).1 ≠ .success := by
      intro h
      have hall := hreport.success s'.buffer commandFields h
      exact hnot ⟨⟨.inl h, hall 0 (by decide)⟩, .inl h, hall 1 (by decide)⟩
    rcases hcond with hactions | hid | hpath
    · -- with the actions it is the command id that is missing
      exact handleCommand_no_id handlers stack fuel (fun hid => hnot ⟨hid, hactions⟩) hsuccess
    · exact handleCommand_no_id handlers stack fuel hid hsuccess
    · exact handleCommand_path_refused handlers stack fuel hpath

/-- `{"commandID":"c"}` -/
def idOnly : Doc where
  pre := .none
  val := objectOf (Str.ofPlain (ascii "commandID") plain_commandID)
    (.str (Str.ofPlain (ascii "c") plain_c))
  post := .none

theorem idOnly_read :
    (referenceSdk 1000 64).json.kiiJsonReadObject idOnly.render commandFields =
      (.partialSuccess, fun i =>
        ([{ result := .success, start := 14, stop := 15, copied := none },
          missingField][i]?).getD missingField) := by
  simp only [referenceSdk, referenceJson, referenceRead, parseDoc_render]
  rfl

theorem idOnly_hasCommandId : HasCommandId (referenceSdk 1000 64).json idOnly.render := by
  unfold HasCommandId Parses
  rw [idOnly_read]
  exact ⟨.inr rfl, rfl⟩

theorem idOnly_no_actions : ¬ HasActions (referenceSdk 1000 64).json idOnly.render := by
  unfold HasActions Parses
  rw [idOnly_read]
  rintro ⟨-, hactions⟩
  cases hactions

theorem idOnly_path : ¬ PathRefused (referenceSdk 1000 64)
    (⟨referenceMachine, idOnly.render⟩ : CommandState Nat Nat) := by
  unfold PathRefused prvKiiThingIfJsonReadObject
  simp only [idOnly_read]
  decide

theorem idOnly_ignores_iff :
    let s : CommandState Nat Nat := ⟨referenceMachine, idOnly.render⟩
    (¬ (HasCommandId (referenceSdk 1000 64).json s.buffer ∧
        HasActions (referenceSdk 1000 64).json s.buffer) →
      receivedCallback (referenceSdk 1000 64) referenceHandlers zeroStack 64 s = (.returned, s)) ↔
    (HasActions (referenceSdk 1000 64).json s.buffer ∨
      ¬ HasCommandId (referenceSdk 1000 64).json s.buffer ∨
      PathRefused (referenceSdk 1000 64) s) := by
  have hreport : FieldReport (referenceSdk 1000 64).json := referenceJson_report 64
  exact receivedCallback_ignores_iff hreport referenceHandlers zeroStack 64
    (s := ⟨referenceMachine, idOnly.render⟩) rfl

/-- A message with a command id and without actions starts a request. -/
theorem idOnly_not_ignored :
    ¬ HasActions (referenceSdk 1000 64).json idOnly.render ∧
      receivedCallback (referenceSdk 1000 64) referenceHandlers zeroStack 64
        ⟨referenceMachine, idOnly.render⟩ ≠ (.returned, ⟨referenceMachine, idOnly.render⟩) := by
  refine ⟨idOnly_no_actions, ?_⟩
  intro hrun
  rw [receivedCallback_unclaimed (rfl : unclaimed referenceHandlers
    (⟨referenceMachine, idOnly.render⟩ : CommandState Nat Nat) = some _)] at hrun
  have hreport : FieldReport (referenceSdk 1000 64).json := referenceJson_report 64
  obtain ⟨call, ret, es, hlog⟩ := handleCommand_starts hreport referenceHandlers zeroStack 64
    (s := ⟨referenceMachine, idOnly.render⟩) idOnly_hasCommandId idOnly_path
  rw [hrun] at hlog
  simp at hlog

end ThingIfSdk
