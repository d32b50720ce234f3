import ThingIfSdk.Command.Reporting

/-!
# Error messages of failed actions

The error array of an action is handed out uninitialised, and when the handler
returns `KII_FALSE` it is read up to its first NUL.  `ActionOutcome` says which of
its bytes a handler call writes.  `ownMessages_iff` says when what is reported is
what the handlers wrote, whatever the arrays held before.
-/

namespace ThingIfSdk

open ByteText JsonText Monitoring

variable {σ δ : Type}

/-! ## Handlers that write the array -/

/-- What one call of the action handler comes to; `writes` are the bytes that it
writes to its error array, by their offsets. -/
structure ActionOutcome (δ : Type) where
  succeeded : Bool
  writes : Nat → Option Byte
  device : δ

/-- An action handler by the outcomes of its calls. -/
abbrev ActionProgram (δ : Type) := δ → Bytes → Bytes → Bytes → ActionOutcome δ

/-- The array behind a call that wrote some of its bytes. -/
def ErrorBuff.overlay (error : ErrorBuff) (writes : Nat → Option Byte) : ErrorBuff where
  bytes := error.bytes.mapIdx fun i b => (writes i).getD b
  length_eq := by rw [List.length_mapIdx, error.length_eq]

/-- Callbacks whose action handler does what the program says. -/
def writingHandlers (handlers : Handlers σ δ) (act : ActionProgram δ) : Handlers σ δ :=
  { handlers with
    actionHandler := fun device aliasName name value error =>
      let r := act device aliasName name value
      { succeeded := r.succeeded, error := error.overlay r.writes, device := r.device } }

/-- The call wrote a string with its NUL. -/
def ActionOutcome.Terminated (r : ActionOutcome δ) : Prop :=
  ∃ k ≤ emessageSize, r.writes k = some 0 ∧ ∀ j < k, (r.writes j).isSome

/-- The string that the call wrote. -/
def ActionOutcome.message (r : ActionOutcome δ) : Bytes :=
  cstr ((List.range (emessageSize + 1)).map fun i => (r.writes i).getD 0)

/-- An array of equal bytes. -/
def ErrorBuff.filled (b : Byte) : ErrorBuff :=
  ⟨List.replicate (emessageSize + 1) b, List.length_replicate⟩

theorem ErrorBuff.overlay_getElem? (error : ErrorBuff) (writes : Nat → Option Byte)
    (rest : Bytes) {j : Nat} (hj : j ≤ emessageSize) :
    ((error.overlay writes).bytes ++ rest)[j]? =
      (error.bytes[j]?).map fun b => (writes j).getD b := by
  have hlen := (error.overlay writes).length_eq
  rw [List.getElem?_append_left (by omega)]
  exact List.getElem?_mapIdx

theorem ErrorBuff.filled_getElem? (b : Byte) {j : Nat} (hj : j ≤ emessageSize) :
    (ErrorBuff.filled b).bytes[j]? = some b := by
  unfold filled
  rw [List.getElem?_replicate, if_pos (by omega)]

/-- A string that the call wrote is read back, whatever the array held. -/
theorem ActionOutcome.Terminated.message_eq {r : ActionOutcome δ} (h : r.Terminated)
    (error : ErrorBuff) (rest : Bytes) :
    cstr ((error.overlay r.writes).bytes ++ rest) = r.message ∧
      r.message.length ≤ emessageSize := by
  obtain ⟨k, hk, hnul, hwritten⟩ := h
  have hown : ∀ j ≤ k, ((List.range (emessageSize + 1)).map
      fun i => (r.writes i).getD 0)[j]? = some ((r.writes j).getD 0) := by
    intro j hj
    rw [List.getElem?_map, List.getElem?_range (by omega)]
    rfl
  have hread : ∀ j ≤ k, ((error.overlay r.writes).bytes ++ rest)[j]? =
      some ((r.writes j).getD 0) := by
    intro j hj
    have hin : j < error.bytes.length := by
      rw [error.length_eq]
      omega
    rw [error.overlay_getElem? r.writes rest (by omega), List.getElem?_eq_getElem hin,
      Option.map_some]
    have hsome : (r.writes j).isSome := by
      rcases Nat.lt_or_eq_of_le hj with hlt | rfl
      · exact hwritten j hlt
      · rw [hnul]
        rfl
    obtain ⟨b, hb⟩ := Option.isSome_iff_exists.mp hsome
    rw [hb]
    rfl
  have hend := hown k (Nat.le_refl k)
  rw [hnul] at hend
  have hsame : ∀ j ≤ k, ((error.overlay r.writes).bytes ++ rest)[j]? =
      ((List.range (emessageSize + 1)).map fun i => (r.writes i).getD 0)[j]? :=
    fun j hj => (hread j hj).trans (hown j hj).symm
  obtain ⟨heq, hlen⟩ := cstr_congr hend hsame
  exact ⟨heq, Nat.le_trans hlen hk⟩

/-- Without a string of its own, what is read depends on what the array held, or
does not end in the array. -/
theorem ActionOutcome.terminated_of_read {r : ActionOutcome δ} {rest : Bytes}
    (hlen : (cstr (((ErrorBuff.filled 0).overlay r.writes).bytes ++ rest)).length ≤ emessageSize)
    (heq : cstr (((ErrorBuff.filled 0).overlay r.writes).bytes ++ rest) =
      cstr (((ErrorBuff.filled 1).overlay r.writes).bytes ++ rest)) : r.Terminated := by
  have hzero : ∀ j ≤ emessageSize, (((ErrorBuff.filled 0).overlay r.writes).bytes ++ rest)[j]? =
      some ((r.writes j).getD 0) := by
    intro j hj
    rw [ErrorBuff.overlay_getElem? _ _ _ hj, ErrorBuff.filled_getElem? _ hj, Option.map_some]
  have hone : ∀ j ≤ emessageSize, (((ErrorBuff.filled 1).overlay r.writes).bytes ++ rest)[j]? =
      some ((r.writes j).getD 1) := by
    intro j hj
    rw [ErrorBuff.overlay_getElem? _ _ _ hj, ErrorBuff.filled_getElem? _ hj, Option.map_some]
  obtain ⟨hbefore, -⟩ := cstr_bytes (((ErrorBuff.filled 0).overlay r.writes).bytes ++ rest)
  obtain ⟨-, hend⟩ := cstr_bytes (((ErrorBuff.filled 1).overlay r.writes).bytes ++ rest)
  rw [← heq] at hend
  generalize (cstr (((ErrorBuff.filled 0).overlay r.writes).bytes ++ rest)).length = n at *
  refine ⟨n, hlen, ?_, ?_⟩
  · -- a byte that the call left alone would read 1 in the second array
    rw [hone n hlen] at hend
    rcases hend with hend | hend
    · cases hw : r.writes n with
      | none =>
          rw [hw] at hend
          cases hend
      | some b =>
          rw [hw] at hend
          exact hend
    · have := ((ErrorBuff.filled 1).overlay r.writes).length_eq
      rw [List.length_append] at hend
      omega
  · intro j hj
    obtain ⟨b, hb, hne⟩ := hbefore j hj
    rw [hzero j (by omega)] at hb
    cases hw : r.writes j with
    | none =>
        rw [hw] at hb
        exact absurd (Option.some.inj hb).symm hne
    | some _ => rfl

/-! ## Messages in a log -/

/-- A message that ended in its array. -/
def Event.messageInside : Event → Prop
  | .action _ _ _ (some message) => message.length ≤ emessageSize
  | _ => True

theorem messageInside_of_no_calls {log : List Event} (h : handlerCalls log = []) :
    ∀ e ∈ log, e.messageInside := by
  intro e he
  rw [handlerCalls, List.filterMap_eq_nil_iff] at h
  have hcall := h e he
  cases e with
  | action => cases hcall
  | _ => trivial

/-- The message of a call. -/
def ActionOutcome.errorMessage (r : ActionOutcome δ) : Option Bytes :=
  if r.succeeded then none else some r.message

/-- Every failing call that the loops come to writes a string with its NUL; with
`room` bytes left in the request buffer, they come to the calls before whose
results the buffer is full. -/
def AllTerminated (act : ActionProgram δ) (room : Nat) : List Item → δ → Prop
  | .action i j a n v _ :: rest, device =>
      let r := act device a n v
      let len := (Entry.pieces ⟨i, j, a, n, v, r.errorMessage⟩).flatten.length
      (r.succeeded = false → r.Terminated) ∧
        (len ≤ room → AllTerminated act (room - len) rest r.device)
  | _, _ => True

section

variable (handlers : Handlers σ δ) {act : ActionProgram δ}

theorem callHandler_writing (stack : Stack) (i j : Nat) (a n v : Bytes) (device : δ) :
    callHandler (writingHandlers handlers act) stack i j a n v device =
      (if (act device a n v).succeeded then none
        else some (cstr (((stack.error i j).overlay (act device a n v).writes).bytes ++
          stack.behindError i j)), (act device a n v).device) := rfl

/-- A call that terminates its message reports that message. -/
theorem callHandler_terminated {a n v : Bytes} {device : δ}
    (h : (act device a n v).succeeded = false → (act device a n v).Terminated) (stack : Stack)
    (i j : Nat) :
    callHandler (writingHandlers handlers act) stack i j a n v device =
      ((act device a n v).errorMessage, (act device a n v).device) := by
  rw [callHandler_writing]
  unfold ActionOutcome.errorMessage
  cases hs : (act device a n v).succeeded with
  | true => rfl
  | false =>
      simp only [Bool.false_eq_true, if_false, ((h hs).message_eq _ _).1]

theorem errorMessage_inside {r : ActionOutcome δ} (h : r.succeeded = false → r.Terminated)
    (a n v : Bytes) : (Event.action a n v r.errorMessage).messageInside := by
  unfold ActionOutcome.errorMessage
  cases hs : r.succeeded with
  | true => trivial
  | false => exact ((h hs).message_eq (ErrorBuff.filled 0) []).2

variable {sdk : Sdk σ} {remaining : σ → Nat} (hbuf : FixedBuffer sdk.api remaining)
include hbuf

/-- When all failing calls terminate their messages, the loops do the same on
every stack, and all messages end in their arrays. -/
theorem perform_of_allTerminated {items : List Item} {m : Machine σ δ}
    (h : AllTerminated act (remaining m.kii.core) items m.device) (stack stack' : Stack) :
    perform sdk (writingHandlers handlers act) stack items m =
        perform sdk (writingHandlers handlers act) stack' items m ∧
      ∃ es, m.kii.Adds (perform sdk (writingHandlers handlers act) stack items m).2.kii es ∧
        ∀ e ∈ es, e.messageInside := by
  induction items generalizing m with
  | nil => exact ⟨rfl, [], .refl _, nofun⟩
  | cons item items ih =>
      cases item with
      | fail held => exact ⟨rfl, [], .refl _, nofun⟩
      | undefined => exact ⟨rfl, [], .refl _, nofun⟩
      | outOfFuel => exact ⟨rfl, [], .refl _, nofun⟩
      | action i j a n v held =>
          obtain ⟨hterm, hrest⟩ := h
          have hcall := callHandler_terminated handlers hterm
          have haction : performAction sdk (writingHandlers handlers act) stack i j a n v m =
              performAction sdk (writingHandlers handlers act) stack' i j a n v m := by
            rw [performAction_eq, performAction_eq, hcall stack, hcall stack']
          obtain ⟨es, hadd, happend⟩ :=
            performAction_adds sdk (writingHandlers handlers act) stack i j a n v m
          have hsilent : ∀ e ∈ es, e.isSilent = true :=
            fun e he => isSilent_of_isAppend (happend e he)
          rw [hcall stack] at hadd
          have hinside : ∀ e ∈ (.action a n v (act m.device a n v).errorMessage :: es :
              List Event), e.messageInside := by
            intro e he
            rcases List.mem_cons.mp he with rfl | he
            · exact errorMessage_inside hterm a n v
            · exact messageInside_of_no_calls (handlerCalls_of_silent hsilent) e he
          simp only [perform, ← haction]
          by_cases hf : (performAction sdk (writingHandlers handlers act) stack i j a n v m).1 = true
          · rw [if_pos hf, if_pos hf]
            exact ⟨rfl, _, hadd, hinside⟩
          · rw [if_neg hf, if_neg hf]
            -- the entry was appended, so it fitted
            have hle : (Entry.pieces ⟨i, j, a, n, v,
                (act m.device a n v).errorMessage⟩).flatten.length ≤ remaining m.kii.core := by
              by_contra hgt
              refine hf (performAction_overflows hbuf (writingHandlers handlers act) stack rfl ?_)
              rw [hcall stack]
              exact Nat.lt_of_not_le hgt
            obtain ⟨-, -, hdevice, hroom⟩ := performAction_fits hbuf
              (writingHandlers handlers act) stack (m := m) rfl (by rw [hcall stack]; exact hle)
            rw [hcall stack] at hdevice hroom
            obtain ⟨heq, es', hadd', hinside'⟩ := ih (m := (performAction sdk
              (writingHandlers handlers act) stack i j a n v m).2)
              (by rw [hdevice, hroom]; exact hrest hle)
            refine ⟨heq, _, hadd.trans hadd', ?_⟩
            intro e he
            rcases List.mem_append.mp he with he | he
            · exact hinside e he
            · exact hinside' e he

/-- Conversely, when the loops log the same on every stack and all messages end in
their arrays, all failing calls terminate their messages. -/
theorem allTerminated_of_perform {tokens : Nat → Option Nat → Nat → Token} {items : List Item}
    {m : Machine σ δ} {log : List Event} (hinside : ∀ e ∈ log, e.messageInside)
    (h : ∀ stack : Stack, stack.tokens = tokens → ∃ back,
      (perform sdk (writingHandlers handlers act) stack items m).2.kii.log ++ back =
        m.kii.log ++ log) :
    AllTerminated act (remaining m.kii.core) items m.device := by
  induction items generalizing m log with
  | nil => trivial
  | cons item items ih =>
      cases item with
      | fail held => trivial
      | undefined => trivial
      | outOfFuel => trivial
      | action i j a n v held =>
          -- on every stack the log goes on with this call and its message
          have hhead : ∀ stack : Stack, stack.tokens = tokens → ∃ back, log = .action a n v
              (callHandler (writingHandlers handlers act) stack i j a n v m.device).1 :: back := by
            intro stack htokens
            obtain ⟨back, hback⟩ := h stack htokens
            obtain ⟨es, hadd, -⟩ :=
              performAction_adds sdk (writingHandlers handlers act) stack i j a n v m
            simp only [perform] at hback
            split at hback
            · rw [hadd.log_eq, List.append_assoc] at hback
              exact ⟨es ++ back, (List.append_cancel_left hback).symm⟩
            · obtain ⟨es', hadd', -⟩ := perform_adds sdk (writingHandlers handlers act) stack items
                (performAction sdk (writingHandlers handlers act) stack i j a n v m).2
              rw [hadd'.log_eq, hadd.log_eq, List.append_assoc, List.append_assoc] at hback
              exact ⟨es ++ (es' ++ back), (List.append_cancel_left hback).symm⟩
          have hterm : (act m.device a n v).succeeded = false →
              (act m.device a n v).Terminated := by
            intro hs
            obtain ⟨back, hback⟩ :=
              hhead ⟨tokens, fun _ _ => .filled 0, fun _ _ => []⟩ rfl
            obtain ⟨back', hback'⟩ :=
              hhead ⟨tokens, fun _ _ => .filled 1, fun _ _ => []⟩ rfl
            rw [callHandler_writing, hs] at hback hback'
            have hmessage := hinside _ (by rw [hback]; exact List.mem_cons_self)
            rw [hback] at hback'
            obtain ⟨hevent, -⟩ := List.cons.inj hback'
            simp only [Bool.false_eq_true, if_false, Event.action.injEq, Option.some.injEq,
              true_and] at hevent
            exact ActionOutcome.terminated_of_read hmessage hevent
          refine ⟨hterm, fun hle => ?_⟩
          have hcall := callHandler_terminated handlers hterm
          let first : Stack := ⟨tokens, fun _ _ => .filled 0, fun _ _ => []⟩
          obtain ⟨hok, hadd, hdevice, hroom⟩ := performAction_fits hbuf
            (writingHandlers handlers act) first (m := m) rfl (by rw [hcall first]; exact hle)
          rw [hcall first] at hadd hdevice hroom
          show AllTerminated act (remaining m.kii.core - (Entry.pieces ⟨i, j, a, n, v,
            (act m.device a n v).errorMessage⟩).flatten.length) items (act m.device a n v).device
          simp only at hdevice hroom
          rw [← hdevice, ← hroom]
          -- the rest of the log is what follows the entry
          have hsame : ∀ stack : Stack,
              performAction sdk (writingHandlers handlers act) stack i j a n v m =
                performAction sdk (writingHandlers handlers act) first i j a n v m := by
            intro stack
            rw [performAction_eq, performAction_eq, hcall stack, hcall first]
          have hlater : ∀ stack : Stack, stack.tokens = tokens → ∃ rest,
              (perform sdk (writingHandlers handlers act) stack items (performAction sdk
                (writingHandlers handlers act) first i j a n v m).2).2.kii.log ++ rest =
                  m.kii.log ++ log := by
            intro stack htokens
            obtain ⟨rest, hrest⟩ := h stack htokens
            simp only [perform, hsame stack, hok, Bool.false_eq_true, if_false] at hrest
            exact ⟨rest, hrest⟩
          obtain ⟨rest, hrest⟩ := hlater first rfl
          obtain ⟨es, hadd', -⟩ := perform_adds sdk (writingHandlers handlers act) first items
            (performAction sdk (writingHandlers handlers act) first i j a n v m).2
          rw [hadd'.log_eq, hadd.log_eq, List.append_assoc, List.append_assoc] at hrest
          have hlog := List.append_cancel_left hrest
          have hinside' : ∀ e ∈ es ++ rest, e.messageInside := by
            intro e he
            refine hinside e ?_
            rw [← hlog]
            exact List.mem_append_right _ he
          refine ih hinside' fun stack htokens => ?_
          obtain ⟨rest', hrest'⟩ := hlater stack htokens
          refine ⟨rest', ?_⟩
          rw [hrest', hadd.log_eq, List.append_assoc, hlog]

end

/-! ## Whole runs -/

/-- A run reports what the handlers wrote: it does not depend on what the error
arrays held, and every message ends in its array.  The other leftover memory, the
token arrays, is the same in all of these runs. -/
structure OwnMessages (sdk : Sdk σ) (handlers : Handlers σ δ)
    (tokens : Nat → Option Nat → Nat → Token) (fuel : Nat) (s : CommandState σ δ) : Prop where
  independent : ∀ stack stack' : Stack, stack.tokens = tokens → stack'.tokens = tokens →
    (handleCommand sdk handlers stack fuel s).2.machine =
      (handleCommand sdk handlers stack' fuel s).2.machine
  inside : ∀ stack : Stack, stack.tokens = tokens →
    ∀ e ∈ newEvents s.machine.kii (handleCommand sdk handlers stack fuel s).2.machine.kii,
      e.messageInside

/-- The stack whose error arrays hold zeros. -/
def zeroErrors (tokens : Nat → Option Nat → Nat → Token) : Stack :=
  ⟨tokens, fun _ _ => .filled 0, fun _ _ => []⟩

/-- Reading the message does not look at the error arrays. -/
theorem commandItems_tokens (json : JsonApi) {stack stack' : Stack}
    (h : stack.tokens = stack'.tokens) (payload : Bytes) (fuel : Nat) (actions : JsonFieldOut) :
    commandItems json stack payload fuel actions =
      commandItems json stack' payload fuel actions := by
  have hactions : ∀ (aliasIndex : Nat) (group : KeyValue) (fuel actionIndex : Nat),
      actionItems json stack payload aliasIndex group fuel actionIndex =
        actionItems json stack' payload aliasIndex group fuel actionIndex := by
    intro aliasIndex group fuel
    induction fuel with
    | zero => exact fun _ => rfl
    | succ fuel ih =>
        intro actionIndex
        simp only [actionItems, h, ih]
  have haliases : ∀ (start len : Int) (inner fuel aliasIndex : Nat),
      aliasItems json stack payload start len inner fuel aliasIndex =
        aliasItems json stack' payload start len inner fuel aliasIndex := by
    intro start len inner fuel
    induction fuel with
    | zero => exact fun _ => rfl
    | succ fuel ih =>
        intro aliasIndex
        simp only [aliasItems, h, hactions, ih]
  exact haliases _ _ _ _ _

section

variable {sdk : Sdk σ} {remaining : σ → Nat} (hbuf : FixedBuffer sdk.api remaining)
  (handlers : Handlers σ δ) {s : CommandState σ δ} {actions : JsonFieldOut} {m : Machine σ δ}
  (hopen : openCommand sdk s = some (actions, m))
include hopen

/-- What a run has added to its log behind the loops, and that it depends on the
outcome of the loops only. -/
theorem handleCommand_behind (stack : Stack) (fuel : Nat) :
    let r := perform sdk handlers stack (commandItems sdk.json stack s.buffer fuel actions) m
    (handleCommand sdk handlers stack fuel s).2.machine =
        (if r.1.flow = .finished then finishCommand sdk handlers r.2 else r.2) ∧
      ∃ es, (handleCommand sdk handlers stack fuel s).2.machine.kii.log = r.2.kii.log ++ es ∧
        handlerCalls es = [] := by
  obtain ⟨hfinished, hother⟩ := handleCommand_of_open hopen handlers stack fuel
  simp only
  by_cases hf : (perform sdk handlers stack (commandItems sdk.json stack s.buffer fuel actions)
      m).1.flow = .finished
  · obtain ⟨-, -, hmachine⟩ := hfinished hf
    rw [if_pos hf, hmachine]
    exact ⟨rfl, finishCommand_log sdk handlers _⟩
  · obtain ⟨-, hmachine, -⟩ := hother hf
    rw [if_neg hf, hmachine]
    exact ⟨rfl, [], (List.append_nil _).symm, rfl⟩

include hbuf

theorem ownMessages_iff_of_open {act : ActionProgram δ}
    (tokens : Nat → Option Nat → Nat → Token) (fuel : Nat) :
    OwnMessages sdk (writingHandlers handlers act) tokens fuel s ↔
      AllTerminated act (remaining m.kii.core)
        (commandItems sdk.json (zeroErrors tokens) s.buffer fuel actions) m.device := by
  obtain ⟨-, -, call, hcall⟩ := openCommand_adds hopen
  have hitems : ∀ stack : Stack, stack.tokens = tokens →
      commandItems sdk.json stack s.buffer fuel actions =
        commandItems sdk.json (zeroErrors tokens) s.buffer fuel actions :=
    fun stack h => commandItems_tokens sdk.json h _ _ _
  constructor
  · intro h
    have hbehind := handleCommand_behind (writingHandlers handlers act) hopen
    -- the log of the run on one stack is that on every other
    obtain ⟨es, hlog, -⟩ := (hbehind (zeroErrors tokens) fuel).2
    obtain ⟨es', hadd, -⟩ := perform_adds sdk (writingHandlers handlers act) (zeroErrors tokens)
      (commandItems sdk.json (zeroErrors tokens) s.buffer fuel actions) m
    rw [hadd.log_eq, List.append_assoc] at hlog
    have hnew := h.inside (zeroErrors tokens) rfl
    have hfull := hlog
    rw [hcall.log_eq, List.append_assoc] at hfull
    rw [newEvents_eq hfull] at hnew
    have hlogs : ∀ stack : Stack, stack.tokens = tokens → ∃ back, (perform sdk
        (writingHandlers handlers act) stack (commandItems sdk.json (zeroErrors tokens) s.buffer
          fuel actions) m).2.kii.log ++ back = m.kii.log ++ (es' ++ es) := by
      intro stack htokens
      obtain ⟨back, hback, -⟩ := (hbehind stack fuel).2
      rw [hitems stack htokens] at hback
      refine ⟨back, ?_⟩
      rw [← hback, h.independent stack (zeroErrors tokens) htokens rfl, hlog]
    exact allTerminated_of_perform handlers hbuf
      (fun e he => hnew e (List.mem_append_right _ he)) hlogs
  · intro h
    have hperform := perform_of_allTerminated handlers hbuf h
    constructor
    · intro stack stack' htokens htokens'
      obtain ⟨hmachine, -⟩ := handleCommand_behind (writingHandlers handlers act) hopen stack fuel
      obtain ⟨hmachine', -⟩ :=
        handleCommand_behind (writingHandlers handlers act) hopen stack' fuel
      rw [hmachine, hmachine', hitems stack htokens, hitems stack' htokens',
        (hperform stack stack').1]
    · intro stack htokens
      obtain ⟨-, es, hlog, hcalls⟩ :=
        handleCommand_behind (writingHandlers handlers act) hopen stack fuel
      obtain ⟨-, es', hadd, hinside⟩ := hperform stack stack
      rw [hitems stack htokens, hadd.log_eq, hcall.log_eq, List.append_assoc,
        List.append_assoc] at hlog
      rw [newEvents_eq hlog]
      intro e he
      rcases List.mem_append.mp he with he | he
      · exact messageInside_of_no_calls rfl e he
      · rcases List.mem_append.mp he with he | he
        · exact hinside e he
        · exact messageInside_of_no_calls hcalls e he

end

/-- A run of `handle_command` reports what its handler calls wrote exactly when
every failing call that it comes to writes a string with its NUL. -/
theorem ownMessages_iff {sdk : Sdk σ} {remaining : σ → Nat}
    (hbuf : FixedBuffer sdk.api remaining) (handlers : Handlers σ δ) (act : ActionProgram δ)
    (tokens : Nat → Option Nat → Nat → Token) (fuel : Nat) (s : CommandState σ δ) :
    OwnMessages sdk (writingHandlers handlers act) tokens fuel s ↔
      ∀ actions m, openCommand sdk s = some (actions, m) →
        AllTerminated act (remaining m.kii.core)
          (commandItems sdk.json (zeroErrors tokens) s.buffer fuel actions) m.device := by
  cases hopen : openCommand sdk s with
  | none =>
      refine iff_of_true ⟨?_, ?_⟩ nofun
      · intro stack stack' _ _
        exact handleCommand_not_open_machine hopen _ stack stack' fuel
      · intro stack _
        obtain ⟨es, hadd, hsilent, -⟩ :=
          handleCommand_of_not_open hopen (writingHandlers handlers act) stack fuel
        rw [newEvents_eq hadd.log_eq]
        exact messageInside_of_no_calls (handlerCalls_of_silent hsilent)
  | some r =>
      obtain ⟨actions, m⟩ := r
      rw [ownMessages_iff_of_open hbuf handlers hopen]
      constructor
      · intro h actions' m' heq
        cases heq
        exact h
      · intro h
        exact h actions m rfl

/-- A handler that fails without a word. -/
def silentFailure : ActionProgram Nat := fun device _ _ _ =>
  { succeeded := false, writes := fun _ => none, device := device }

theorem lamp_ownMessages_iff :
    let s : CommandState Nat Nat := ⟨referenceMachine, lampCommand.render⟩
    OwnMessages (referenceSdk 1000 64) (writingHandlers referenceHandlers silentFailure)
        zeroStack.tokens 64 s ↔
      ∀ actions m, openCommand (referenceSdk 1000 64) s = some (actions, m) →
        AllTerminated silentFailure m.kii.core
          (commandItems (referenceJson 64) (zeroErrors zeroStack.tokens) s.buffer 64 actions)
          m.device := by
  have hbuf : FixedBuffer (referenceSdk 1000 64).api id := referenceApi_fixedBuffer 1000
  exact ownMessages_iff hbuf referenceHandlers silentFailure zeroStack.tokens 64
    ⟨referenceMachine, lampCommand.render⟩

/-- The lamp that fails silently sends leftover memory as its error message. -/
theorem silentLamp_not_ownMessages :
    ¬ OwnMessages (referenceSdk 1000 64) (writingHandlers referenceHandlers silentFailure)
      zeroStack.tokens 64 ⟨referenceMachine, lampCommand.render⟩ := by
  have hbuf : FixedBuffer (referenceSdk 1000 64).api id := referenceApi_fixedBuffer 1000
  have hjson : JsonSpec (referenceSdk 1000 64).json 64 := referenceJson_spec 64
  obtain ⟨field, hopen, hstart, hstop⟩ := openCommand_fields (m := referenceMachine) hjson
    isCommand_lamp.fields (by decide) (by decide) rfl (by decide)
  have hitems := commandItems_command hjson isCommand_lamp (by decide)
    (zeroErrors zeroStack.tokens) (by decide : lampCommand.val.tokenCount ≤ 64) hstart hstop
  rw [ownMessages_iff_of_open hbuf referenceHandlers hopen, hitems]
  intro h
  have hfirst : itemsOfAliases (lampCommand.tokenStart lampActions) 0 lampAliases =
      [.action 0 0 (ascii "lamp") (ascii "on") (ascii "true") _] := rfl
  rw [hfirst] at h
  obtain ⟨k, -, hnul, -⟩ := h.1 rfl
  cases hnul

end ThingIfSdk
