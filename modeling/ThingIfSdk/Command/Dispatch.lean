import ThingIfSdk.Command.Reading
import ThingIfSdk.Command.Reference
import ThingIfSdk.Command.Run
import ThingIfSdk.Requests.Paths

/-!
# Commands are dispatched exactly

A message that is a command, handled with enough tokens, path and buffer, has
every one of its actions handed to the handler once and in document order, with
the raw texts that stand in the message.
-/

namespace ThingIfSdk

open ByteText JsonText

variable {σ δ : Type}

/-- The message is a command: it has a command id, and its actions are an array of
one-member objects of arrays of one-member objects. -/
structure IsCommand (d : Doc) (commandId actions : Member) (aliases : List CommandAlias) :
    Prop where
  fields : CommandFields d commandId actions
  aliases_eq : commandAliases actions.val = some aliases

/-- The token budget, the resource path and the request buffer suffice for a command. -/
structure Suffices (sdk : Sdk σ) (remaining : σ → Nat) (budget : Nat) (handlers : Handlers σ δ)
    (stack : Stack) (m : Machine σ δ) (d : Doc) (commandId : Member)
    (aliases : List CommandAlias) : Prop where
  tokens : d.val.tokenCount ≤ budget
  path : (resultsPath m.kii.appId m.kii.author.authorId commandId.val.tokenText).length < 256
  started : (resultsStart sdk m.kii commandId.val.tokenText).1 = 0
  room : (resultsText (commandEntries handlers stack 0 aliases m.device).1).length ≤
    remaining (resultsStart sdk m.kii commandId.val.tokenText).2.core

theorem length_resultsText (es : List Entry) :
    (resultsText es).length = resultsOpening.length + ((entriesText es).length + 2) := by
  simp [resultsText, length_resultsClosing]

section

variable {sdk : Sdk σ} {remaining : σ → Nat} {budget : Nat}
  (hbuf : FixedBuffer sdk.api remaining) (hjson : JsonSpec sdk.json budget) {m : Machine σ δ}
  {d : Doc} {commandId actions : Member}

include hjson

/-- A message with both fields reaches the loops, with the span of the array. -/
theorem openCommand_fields (hfields : CommandFields d commandId actions)
    (htok : d.val.tokenCount ≤ budget)
    (hpath : resultsPathLength sdk.platform m.kii.appId m.kii.author.authorId
      (d.tokenStart commandId) (d.tokenStop commandId) < 256)
    (hstart : (resultsStart sdk m.kii commandId.val.tokenText).1 = 0)
    (hopen : (kiiApiCallAppendBody sdk resultsOpening
      (resultsStart sdk m.kii commandId.val.tokenText).2).1 = 0) :
    ∃ field, openCommand sdk ⟨m, d.render⟩ = some (field,
        { m with kii := (kiiApiCallAppendBody sdk resultsOpening
          (resultsStart sdk m.kii commandId.val.tokenText).2).2 }) ∧
      field.start = d.tokenStart actions ∧ field.stop = d.tokenStop actions := by
  obtain ⟨hsuccess, hidStart, hidStop, hstartEq, hstopEq⟩ :=
    hjson.command d commandId actions htok hfields
  have hslice := (Doc.tokenText_occurs hfields.commandId_eq).slice?_eq
  have hlen : ((d.tokenStop commandId : Nat) : Int) - (d.tokenStart commandId : Nat) =
      (commandId.val.tokenText.length : Nat) := by
    simp only [Doc.tokenStop]
    omega
  refine ⟨_, ?_, hstartEq, hstopEq⟩
  unfold openCommand prvKiiThingIfJsonReadObject commandGoesOn
  simp only [hsuccess, hidStart, hidStop, hlen, hslice, Bool.true_eq_false, if_false,
    if_neg (Nat.not_le.mpr hpath), hstart, hopen, ne_eq, not_true_eq_false]

/-- The items of a command are its actions. -/
theorem commandItems_command {aliases : List CommandAlias}
    (hcmd : IsCommand d commandId actions aliases) (htok : d.val.tokenCount ≤ budget)
    (stack : Stack) {fuel : Nat} (hfuel : d.val.tokenCount ≤ fuel) {field : JsonFieldOut}
    (hstart : field.start = d.tokenStart actions) (hstop : field.stop = d.tokenStop actions) :
    commandItems sdk.json stack d.render fuel field =
      itemsOfAliases (d.tokenStart actions) 0 aliases := by
  have hkind := hcmd.fields.actions_kind
  have hocc := Doc.tokenText_occurs hcmd.fields.actions_eq
  have hcount := Value.tokenCount_field hcmd.fields.actions_eq
  have hlen : ((d.tokenStop actions : Nat) : Int) - (d.tokenStart actions : Nat) =
      (actions.val.render.length : Nat) := by
    simp only [Doc.tokenStop, tokenText_of_kind hkind]
    omega
  rw [tokenText_of_kind hkind] at hocc
  obtain ⟨es, hes, hlenEs, -⟩ := commandAliases_spec hcmd.aliases_eq
  have hlt := Value.length_elements_lt hes
  unfold commandItems
  rw [hstart, hstop, hlen, aliasItems_command hjson stack hocc (by omega) hcmd.aliases_eq fuel
    fuel 0 (by omega) (by omega) (by omega), List.drop_zero]

/-- When everything suffices for a command, the loops are reached with its actions. -/
theorem Suffices.opens {handlers : Handlers σ δ} {stack : Stack} {aliases : List CommandAlias}
    (hbuf : FixedBuffer sdk.api remaining) (hcmd : IsCommand d commandId actions aliases)
    (hsuff : Suffices sdk remaining budget handlers stack m d commandId aliases) {fuel : Nat}
    (hfuel : d.val.tokenCount ≤ fuel) :
    ∃ field m', openCommand sdk ⟨m, d.render⟩ = some (field, m') ∧ m'.device = m.device ∧
      commandItems sdk.json stack d.render fuel field =
        itemsOfAliases (d.tokenStart actions) 0 aliases ∧
      (entriesText (commandEntries handlers stack 0 aliases m.device).1).length + 2 ≤
        remaining m'.kii.core := by
  have hroom := hsuff.room
  rw [length_resultsText] at hroom
  obtain ⟨hok, hrem⟩ := hbuf.append_fits (resultsStart sdk m.kii commandId.val.tokenText).2
    resultsOpening (by omega)
  obtain ⟨field, hopen, hstart, hstop⟩ :=
    openCommand_fields hjson hcmd.fields hsuff.tokens
      (resultsPathLength_lt sdk.platform (Value.nul_not_mem_tokenText commandId.val) _ hsuff.path)
      hsuff.started hok
  exact ⟨field, _, hopen, rfl,
    commandItems_command hjson hcmd hsuff.tokens stack hfuel hstart hstop, by
      show _ ≤ remaining (kiiApiCallAppendBody sdk resultsOpening _).2.core
      omega⟩

include hbuf

/-- A command for which everything suffices is handled to its end. -/
theorem handleCommand_command (handlers : Handlers σ δ) (stack : Stack)
    {aliases : List CommandAlias} (hcmd : IsCommand d commandId actions aliases)
    (hsuff : Suffices sdk remaining budget handlers stack m d commandId aliases) {fuel : Nat}
    (hfuel : d.val.tokenCount ≤ fuel) :
    let run := handleCommand sdk handlers stack fuel ⟨m, d.render⟩
    let es := (commandEntries handlers stack 0 aliases m.device).1
    let new := newEvents m.kii run.2.machine.kii
    run.1 = .returned ∧ run.2.buffer = d.render ∧ handlerCalls new = es.map Entry.call ∧
      ∃ later, sentBodies [] new = resultsText es :: later := by
  obtain ⟨field, m', hopen, hdevice, hitems, hroom⟩ := hsuff.opens hjson hbuf hcmd hfuel
  have hrun := handleCommand_complete hbuf handlers stack fuel hopen hitems
    (loopEnd_itemsOfAliases _ _ _)
  simp only [entries_itemsOfAliases, hdevice] at hrun
  exact hrun hroom

/-- The device that it leaves is the one on which the handler was called for each of
its actions in turn. -/
theorem handleCommand_command_device (handlers : Handlers σ δ) (stack : Stack)
    {aliases : List CommandAlias} (hcmd : IsCommand d commandId actions aliases)
    (hsuff : Suffices sdk remaining budget handlers stack m d commandId aliases) {fuel : Nat}
    (hfuel : d.val.tokenCount ≤ fuel) :
    (handleCommand sdk handlers stack fuel ⟨m, d.render⟩).2.machine.device =
      (commandArgs stack aliases).foldl handlers.act m.device := by
  obtain ⟨field, m', hopen, hdevice, hitems, hroom⟩ := hsuff.opens hjson hbuf hcmd hfuel
  rw [handleCommand_complete_device hbuf handlers stack fuel hopen hitems
      (loopEnd_itemsOfAliases _ _ _) (by rwa [entries_itemsOfAliases, hdevice]),
    itemsOfAliases_args, hdevice]

end

/-- The calls of a command's entries are the calls it asks for. -/
theorem commandEntries_calls (handlers : Handlers σ δ) (stack : Stack)
    (aliases : List CommandAlias) (device : δ) :
    (commandEntries handlers stack 0 aliases device).1.map Entry.call = commandCalls aliases := by
  rw [← entries_itemsOfAliases handlers stack 0 0 aliases device,
    entries_calls handlers stack (loopEnd_itemsOfAliases 0 0 aliases),
    filterMap_call_itemsOfAliases]

/-- `handle_command` calls the handler once for each action of a command, in document
order, with the raw texts of the alias, the action and its value: so the log says, and
the device is the one that exactly these calls leave. -/
theorem handleCommand_dispatches {sdk : Sdk σ} {remaining : σ → Nat} {budget : Nat}
    (hbuf : FixedBuffer sdk.api remaining) (hjson : JsonSpec sdk.json budget)
    (handlers : Handlers σ δ) (stack : Stack) (m : Machine σ δ) (d : Doc)
    {commandId actions : Member} {aliases : List CommandAlias}
    (hcmd : IsCommand d commandId actions aliases)
    (hsuff : Suffices sdk remaining budget handlers stack m d commandId aliases) {fuel : Nat}
    (hfuel : d.val.tokenCount ≤ fuel) :
    let run := handleCommand sdk handlers stack fuel ⟨m, d.render⟩
    run.1 = .returned ∧
      handlerCalls (newEvents m.kii run.2.machine.kii) = commandCalls aliases ∧
      (commandArgs stack aliases).map HandlerArgs.call = commandCalls aliases ∧
      run.2.machine.device = (commandArgs stack aliases).foldl handlers.act m.device := by
  obtain ⟨hflow, -, hcalls, -⟩ :=
    handleCommand_command hbuf hjson handlers stack hcmd hsuff hfuel
  exact ⟨hflow, hcalls.trans (commandEntries_calls handlers stack aliases m.device),
    commandArgs_calls stack aliases,
    handleCommand_command_device hbuf hjson handlers stack hcmd hsuff hfuel⟩

def lampCommand : Doc := commandOf (.arr (.last .none lampAlias .none))

/-- The members of `lampCommand`, and its only alias. -/
def lampId : Member := (lampCommand.val.field (ascii "commandID")).getD ⟨0, [], 0, trueValue⟩
def lampActions : Member := (lampCommand.val.field (ascii "actions")).getD ⟨0, [], 0, trueValue⟩
def lampAliases : List CommandAlias := (commandAliases lampActions.val).getD []

theorem isCommand_lamp : IsCommand lampCommand lampId lampActions lampAliases :=
  ⟨⟨rfl, rfl, rfl, rfl⟩, rfl⟩

theorem suffices_lamp : Suffices (referenceSdk 1000 64) id 64 referenceHandlers zeroStack
    referenceMachine lampCommand lampId lampAliases :=
  ⟨by decide, by decide, rfl, by decide⟩

theorem handleCommand_dispatches_lamp :
    let run := handleCommand (referenceSdk 1000 64) referenceHandlers zeroStack 64
      ⟨referenceMachine, lampCommand.render⟩
    run.1 = .returned ∧
      handlerCalls (newEvents referenceMachine.kii run.2.machine.kii) =
        [(ascii "lamp", ascii "on", ascii "true")] ∧
      (commandArgs zeroStack lampAliases).map HandlerArgs.call =
        [(ascii "lamp", ascii "on", ascii "true")] ∧
      run.2.machine.device = 1 :=
  handleCommand_dispatches (referenceApi_fixedBuffer 1000) (referenceJson_spec 64)
    referenceHandlers zeroStack referenceMachine lampCommand isCommand_lamp suffices_lamp
    (by decide)

end ThingIfSdk
