import ThingIfSdk.Command.Quiet
import ThingIfSdk.Command.Reporting

/-!
# What a report leaves out

A report is complete when the message was a command and every action of it was
handed out and reported on.  `nothingSkipped_iff` says that a message is never
reported on incompletely exactly when it is a command, cannot be read to its end,
or has too long a resource path.
-/

namespace ThingIfSdk

open ByteText JsonText Monitoring

variable {σ δ : Type}

/-! ## Complete reports -/

/-- The answer that an array has ended comes only at its end. -/
def FinishesAtEnd (json : JsonApi) (buffer : Bytes) (off : Nat) (v : Value) : Prop :=
  ∀ l, v.elements = some l → ∀ k stale,
    getKeyAndValueAtIndex json buffer off v.render.length k stale = some .finish → l.length ≤ k

/-- The arrays of a command are read as the loops read them: the array of actions
in the message, the array of an alias with the name of the alias terminated. -/
structure ReadsWholeArrays (json : JsonApi) (d : Doc) (actions : Member)
    (aliases : List CommandAlias) : Prop where
  outer : FinishesAtEnd json d.render (d.tokenStart actions) actions.val
  inner : ∀ a ∈ aliases,
    let group := keyValueOf (d.tokenStart actions + a.off) a.member
    FinishesAtEnd json (poke d.render (group.key + group.keyLen) 0)
      (d.tokenStart actions + a.off + a.member.valOff) a.member.val

/-- If a run goes on to run the results request, then the message was a command,
every action of it was given to the handler and has its entry in the body, and no
array was taken for finished before its end. -/
def ReportsWhole (json : JsonApi) (d : Doc) (actions : Member) (new : List Event) : Prop :=
  sentBodies [] new ≠ [] →
    ∃ aliases, commandAliases actions.val = some aliases ∧
      handlerCalls new = commandCalls aliases ∧
      (∃ es later, new.filter Event.isAction = es.map Entry.event ∧
        sentBodies [] new = resultsText es :: later) ∧
      ReadsWholeArrays json d actions aliases

/-- Every run on the message, whatever handlers, buffers and leftover memory it
finds, reports on the whole of it or not at all. -/
def NothingSkipped (json : JsonApi) (platform : Platform) (appId authorId : Bytes) (d : Doc)
    (actions : Member) : Prop :=
  ∀ (σ δ : Type) (api : RequestApi σ) (remaining : σ → Nat), FixedBuffer api remaining →
    ∀ (handlers : Handlers σ δ) (stack : Stack) (fuel : Nat), d.val.tokenCount ≤ fuel →
    ∀ m : Machine σ δ, m.kii.appId = appId → m.kii.author.authorId = authorId →
      ReportsWhole json d actions (newEvents m.kii
        (handleCommand ⟨api, json, platform⟩ handlers stack fuel ⟨m, d.render⟩).2.machine.kii)

section

variable {json : JsonApi} {budget : Nat} (hjson : JsonSpec json budget) {d : Doc}
  {commandId actions : Member} (htok : d.val.tokenCount ≤ budget)
include hjson htok

/-! ## Commands -/

/-- In an array of nonempty objects every index leads to an object. -/
theorem finishesAtEnd_of_members {buffer : Bytes} {off : Nat} {v : Value}
    (hocc : OccursAt buffer off v.render) (hle : v.tokenCount ≤ d.val.tokenCount)
    (hall : ∀ l, v.elements = some l → ∀ (k o : Nat) (e : Value), l[k]? = some (o, e) →
      ∃ m rest, e.members = some (m :: rest)) :
    FinishesAtEnd json buffer off v := by
  intro l hl k stale hfinish
  by_contra hlt
  have hk : l[k]? = some (l[k].1, l[k].2) := List.getElem?_eq_getElem (by omega)
  obtain ⟨m, rest, hm⟩ := hall l hl k _ _ hk
  rw [getKeyAndValueAtIndex_member hjson hocc (by omega) hl hk hm] at hfinish
  cases hfinish

/-- The arrays of a command are read to their ends. -/
theorem readsWholeArrays_of_command {aliases : List CommandAlias}
    (hcmd : IsCommand d commandId actions aliases) :
    ReadsWholeArrays json d actions aliases := by
  have hkind := hcmd.fields.actions_kind
  have hocc := Doc.tokenText_occurs hcmd.fields.actions_eq
  rw [tokenText_of_kind hkind] at hocc
  have hcount := Value.tokenCount_field hcmd.fields.actions_eq
  obtain ⟨es, hes, hlen, hget⟩ := commandAliases_spec hcmd.aliases_eq
  constructor
  · apply finishesAtEnd_of_members hjson htok hocc (by omega)
    -- The outer array: each element names an alias.
    intro l hl k o e hk
    rw [hes] at hl
    cases hl
    have hlt : k < aliases.length := hlen ▸ (List.getElem?_eq_some_iff.mp hk).1
    obtain ⟨-, e', hk', hm⟩ := hget k aliases[k] (List.getElem?_eq_getElem hlt)
    rw [hk] at hk'
    cases hk'
    exact ⟨_, _, hm⟩
  · intro a ha
    -- The inner arrays, whose text the alias carries.
    obtain ⟨k, hk⟩ := List.getElem?_of_mem ha
    obtain ⟨hsingles, e, he, hm⟩ := hget k a hk
    have hmem := List.mem_of_getElem? he
    obtain ⟨-, -, hvalue, -⟩ :=
      alias_terminated hm (hocc.trans (Value.elements_occur hes hmem))
    have htok' := (Value.tokenCount_members hm List.mem_cons_self).trans
      (Value.tokenCount_elements hes hmem)
    obtain ⟨acts, hacts, hlenActs, hgetActs⟩ := Value.singles_spec hsingles
    apply finishesAtEnd_of_members hjson htok hvalue (by omega)
    intro l hl j o e' hj
    rw [hacts] at hl
    cases hl
    have hlt : j < a.actions.length := hlenActs ▸ (List.getElem?_eq_some_iff.mp hj).1
    obtain ⟨e'', hj', hm'⟩ := hgetActs j _ _ (List.getElem?_eq_getElem hlt)
    rw [hj] at hj'
    cases hj'
    exact ⟨_, _, hm'⟩

end

/-! ## Runs that send -/

/-- A run that sends anything has read the message to its end. -/
theorem run_of_sent {sdk : Sdk σ} {remaining : σ → Nat} (hbuf : FixedBuffer sdk.api remaining)
    (handlers : Handlers σ δ) (stack : Stack) (fuel : Nat) (s : CommandState σ δ)
    (hsent : sentBodies [] (newEvents s.machine.kii
      (handleCommand sdk handlers stack fuel s).2.machine.kii) ≠ []) :
    ∃ actions m, openCommand sdk s = some (actions, m) ∧
      (loopEnd (commandItems sdk.json stack s.buffer fuel actions)).flow = .finished ∧
      (entriesText (entries handlers stack (commandItems sdk.json stack s.buffer fuel actions)
        m.device).1).length + 2 ≤ remaining m.kii.core := by
  cases hopen : openCommand sdk s with
  | none =>
      obtain ⟨es, hadd, hsilent, -⟩ := handleCommand_of_not_open hopen handlers stack fuel
      rw [newEvents_eq hadd.log_eq] at hsent
      exact absurd (sentBodies_eq_nil (fun e he => isRun_of_silent (hsilent e he)) []) hsent
  | some r =>
      obtain ⟨actions, m⟩ := r
      refine ⟨actions, m, rfl, ?_⟩
      by_contra hnot
      rw [Classical.not_and_iff_not_or_not, Nat.not_le] at hnot
      obtain ⟨hrun, -⟩ := handleCommand_incomplete hbuf handlers stack fuel hopen rfl hnot
      exact hsent (sentBodies_eq_nil hrun [])

section

variable {sdk : Sdk σ} {budget : Nat} (hjson : JsonSpec sdk.json budget) {d : Doc}
  {commandId actions : Member} (hfields : CommandFields d commandId actions)
  (htok : d.val.tokenCount ≤ budget) {m : Machine σ δ}
include hjson hfields htok

/-- The span of the array of actions, as the loops are given it. -/
theorem commandItems_actions {m' : Machine σ δ} {field : JsonFieldOut}
    (hopen : openCommand sdk ⟨m, d.render⟩ = some (field, m')) (stack : Stack) (fuel : Nat) :
    commandItems sdk.json stack d.render fuel field =
      aliasItems sdk.json stack d.render (d.tokenStart actions : Nat) actions.val.render.length
        fuel fuel 0 := by
  obtain ⟨-, -, -, hstart, hstop⟩ := hjson.command d commandId actions htok hfields
  obtain ⟨hfield, -⟩ := openCommand_adds hopen
  have hlen : ((d.tokenStop actions : Nat) : Int) - (d.tokenStart actions : Nat) =
      (actions.val.render.length : Nat) := by
    simp only [Doc.tokenStop, tokenText_of_kind hfields.actions_kind]
    omega
  unfold prvKiiThingIfJsonReadObject at hfield
  unfold commandItems
  rw [hfield, hstart, hstop, hlen]

/-- With room for the results, a run that reads the message to its end sends. -/
theorem sent_of_finished {remaining : σ → Nat} (hbuf : FixedBuffer sdk.api remaining)
    (handlers : Handlers σ δ) {stack : Stack} {fuel : Nat} {items : List Item}
    (hitems : aliasItems sdk.json stack d.render (d.tokenStart actions : Nat)
      actions.val.render.length fuel fuel 0 = items)
    (hend : (loopEnd items).flow = .finished)
    (hpath : resultsPathLength sdk.platform m.kii.appId m.kii.author.authorId
      (d.tokenStart commandId) (d.tokenStop commandId) < 256)
    (hstart : (resultsStart sdk m.kii commandId.val.tokenText).1 = 0)
    (hroom : (resultsText (entries handlers stack items m.device).1).length ≤
      remaining (resultsStart sdk m.kii commandId.val.tokenText).2.core) :
    sentBodies [] (newEvents m.kii
      (handleCommand sdk handlers stack fuel ⟨m, d.render⟩).2.machine.kii) ≠ [] := by
  rw [length_resultsText] at hroom
  obtain ⟨hok, hrem⟩ := hbuf.append_fits (resultsStart sdk m.kii commandId.val.tokenText).2
    resultsOpening (by omega)
  obtain ⟨field, hopen, -⟩ := openCommand_fields hjson hfields htok hpath hstart hok
  have hitems' := commandItems_actions hjson hfields htok hopen stack fuel
  obtain ⟨-, -, -, later, hsent⟩ :=
    handleCommand_complete hbuf handlers stack fuel hopen (hitems'.trans hitems) hend (by
      rw [hrem]
      show (entriesText (entries handlers stack items m.device).1).length + 2 ≤ _
      omega)
  rw [hsent]
  exact List.cons_ne_nil _ _

end

section

variable {json : JsonApi} {budget : Nat} (hjson : JsonSpec json budget) {d : Doc}
  {commandId actions : Member} (hfields : CommandFields d commandId actions)
  (htok : d.val.tokenCount ≤ budget) (platform : Platform)
include hjson hfields htok

/-- On a command nothing is skipped. -/
theorem nothingSkipped_of_command {aliases : List CommandAlias}
    (haliases : commandAliases actions.val = some aliases) (appId authorId : Bytes) :
    NothingSkipped json platform appId authorId d actions := by
  intro σ δ api remaining hbuf handlers stack fuel hfuel m _ _ hsent
  have hbuf' : FixedBuffer (Sdk.mk api json platform).api remaining := hbuf
  obtain ⟨field, m', hopen, hend, hle⟩ := run_of_sent hbuf' handlers stack fuel ⟨m, d.render⟩ hsent
  obtain ⟨-, -, -, hstart, hstop⟩ := hjson.command d commandId actions htok hfields
  obtain ⟨hfield, -⟩ := openCommand_adds hopen
  have hcmd : IsCommand d commandId actions aliases := ⟨hfields, haliases⟩
  have hjson' : JsonSpec (Sdk.mk api json platform).json budget := hjson
  have hitems : commandItems json stack d.render fuel field =
      itemsOfAliases (d.tokenStart actions) 0 aliases :=
    commandItems_command hjson' hcmd htok stack hfuel
      (by rw [hfield]; exact hstart) (by rw [hfield]; exact hstop)
  have hreport := report_of_complete hbuf' handlers stack fuel hopen rfl hend hle
  obtain ⟨-, -, hcalls, -⟩ := handleCommand_complete hbuf' handlers stack fuel hopen rfl hend hle
  refine ⟨aliases, haliases, hcalls.trans ?_, hreport,
    readsWholeArrays_of_command hjson htok hcmd⟩
  rw [entries_calls handlers stack hend, hitems, filterMap_call_itemsOfAliases]

/-- A message that cannot be read to its end is never reported on. -/
theorem nothingSkipped_of_not_quiet (htree : TokenTree json budget)
    (hbytokens : FieldsByTokens json) (hnot : ¬ ReadsQuietly json actions.val)
    (appId authorId : Bytes) : NothingSkipped json platform appId authorId d actions := by
  intro σ δ api remaining hbuf handlers stack fuel _ m _ _ hsent
  have hbuf' : FixedBuffer (Sdk.mk api json platform).api remaining := hbuf
  obtain ⟨field, m', hopen, hend, -⟩ := run_of_sent hbuf' handlers stack fuel ⟨m, d.render⟩ hsent
  have hjson' : JsonSpec (Sdk.mk api json platform).json budget := hjson
  have hitems := commandItems_actions hjson' hfields htok hopen stack fuel
  have hocc := Doc.tokenText_occurs hfields.actions_eq
  rw [tokenText_of_kind hfields.actions_kind] at hocc
  have hcount := Value.tokenCount_field hfields.actions_eq
  unfold ReadsQuietly at hnot
  rw [not_forall] at hnot
  obtain ⟨l, hl⟩ := hnot
  rw [Classical.not_imp] at hl
  obtain ⟨hl, hquiet⟩ := hl
  rw [hitems] at hend
  exact absurd hend (aliasItems_not_quiet hjson htree hbytokens stack hocc (by omega) hl fuel
    fuel 0 hquiet)

/-- Nor is a message whose resource path is too long. -/
theorem nothingSkipped_of_path (appId authorId : Bytes)
    (hpath : 256 ≤ resultsPathLength platform appId authorId (d.tokenStart commandId)
      (d.tokenStop commandId)) : NothingSkipped json platform appId authorId d actions := by
  intro σ δ api remaining hbuf handlers stack fuel _ m happ hauthor hsent
  have hbuf' : FixedBuffer (Sdk.mk api json platform).api remaining := hbuf
  obtain ⟨field, m', hopen, -⟩ := run_of_sent hbuf' handlers stack fuel ⟨m, d.render⟩ hsent
  obtain ⟨-, hstart, hstop, -⟩ := hjson.command d commandId actions htok hfields
  have hlt := openCommand_path hopen
  unfold prvKiiThingIfJsonReadObject at hlt
  simp only [hstart, hstop, happ, hauthor] at hlt
  omega

/-! ## Runs that skip -/

/-- A quiet message is reported on by some run, with all that it has left out. -/
theorem sent_of_quiet (htree : TokenTree json budget) (hbytokens : FieldsByTokens json)
    (hquiet : ReadsQuietly json actions.val) {appId authorId : Bytes}
    (hpath : resultsPathLength platform appId authorId (d.tokenStart commandId)
      (d.tokenStop commandId) < 256) :
    ∃ (capacity : Nat) (stack : Stack) (fuel : Nat) (m : Machine Nat Nat),
      d.val.tokenCount ≤ fuel ∧ m.kii.appId = appId ∧ m.kii.author.authorId = authorId ∧
      sentBodies [] (newEvents m.kii (handleCommand ⟨referenceApi capacity, json, platform⟩
        referenceHandlers stack fuel ⟨m, d.render⟩).2.machine.kii) ≠ [] := by
  have hocc := Doc.tokenText_occurs hfields.actions_eq
  rw [tokenText_of_kind hfields.actions_kind] at hocc
  have hcount := Value.tokenCount_field hfields.actions_eq
  obtain ⟨l, hl⟩ := Value.elements_of_kind hfields.actions_kind
  obtain ⟨n, hn⟩ := aliasItems_quiet hjson htree hbytokens hocc (by omega) hl (i := 0)
    List.drop_zero (hquiet l hl)
  -- enough rounds for both loops, and a buffer for all that they come to
  have hend := hn (n + d.val.tokenCount + 1) (n + d.val.tokenCount + 1) (by omega) (by omega)
  obtain ⟨items, hitems⟩ : ∃ items, aliasItems json (quietStack l) d.render
      (d.tokenStart actions : Nat) actions.val.render.length (n + d.val.tokenCount + 1)
      (n + d.val.tokenCount + 1) 0 = items := ⟨_, rfl⟩
  rw [hitems] at hend
  let m : Machine Nat Nat :=
    ⟨{ referenceKii with appId := appId, author := ⟨authorId, []⟩ }, 0⟩
  obtain ⟨capacity, hcapacity⟩ : ∃ capacity,
      (resultsText (entries referenceHandlers (quietStack l) items m.device).1).length =
        capacity := ⟨_, rfl⟩
  refine ⟨capacity, quietStack l, n + d.val.tokenCount + 1, m, by omega, rfl, rfl, ?_⟩
  have hbuf : FixedBuffer (Sdk.mk (referenceApi capacity) json platform).api id :=
    referenceApi_fixedBuffer capacity
  have hjson' : JsonSpec (Sdk.mk (referenceApi capacity) json platform).json budget := hjson
  exact sent_of_finished hjson' hfields htok hbuf referenceHandlers hitems hend hpath rfl
    (Nat.le_of_eq hcapacity)

end

/-- Nothing is skipped exactly in the messages that are commands, cannot be read to
their end, or have too long a resource path. -/
theorem nothingSkipped_iff {json : JsonApi} {budget : Nat} (hjson : JsonSpec json budget)
    (htree : TokenTree json budget) (hbytokens : FieldsByTokens json) (platform : Platform)
    (appId authorId : Bytes) (d : Doc) {commandId actions : Member}
    (hfields : CommandFields d commandId actions) (htok : d.val.tokenCount ≤ budget) :
    NothingSkipped json platform appId authorId d actions ↔
      ((commandAliases actions.val).isSome ∨ ¬ ReadsQuietly json actions.val ∨
        256 ≤ resultsPathLength platform appId authorId (d.tokenStart commandId)
          (d.tokenStop commandId)) := by
  constructor
  · intro hnothing
    by_contra hcond
    rw [not_or, not_or, not_not, Nat.not_le] at hcond
    obtain ⟨hnone, hquiet, hpath⟩ := hcond
    obtain ⟨capacity, stack, fuel, m, hfuel, happ, hauthor, hsent⟩ :=
      sent_of_quiet hjson hfields htok platform htree hbytokens hquiet hpath
    obtain ⟨aliases, haliases, -⟩ := hnothing Nat Nat (referenceApi capacity) id
      (referenceApi_fixedBuffer capacity) referenceHandlers stack fuel hfuel m happ hauthor hsent
    rw [haliases] at hnone
    exact hnone rfl
  · rintro (hsome | hnot | hpath)
    · obtain ⟨aliases, haliases⟩ := Option.isSome_iff_exists.mp hsome
      exact nothingSkipped_of_command hjson hfields htok platform haliases appId authorId
    · exact nothingSkipped_of_not_quiet hjson hfields htok platform htree hbytokens hnot appId
        authorId
    · exact nothingSkipped_of_path hjson hfields htok platform appId authorId hpath

theorem lamp_nothingSkipped_iff :
    NothingSkipped (referenceJson 64) referencePlatform (ascii "app") (ascii "th.1") lampCommand
        lampActions ↔
      ((commandAliases lampActions.val).isSome ∨
        ¬ ReadsQuietly (referenceJson 64) lampActions.val ∨
        256 ≤ resultsPathLength referencePlatform (ascii "app") (ascii "th.1")
          (lampCommand.tokenStart lampId) (lampCommand.tokenStop lampId)) :=
  nothingSkipped_iff (referenceJson_spec 64) (referenceJson_tree 64) (referenceJson_fields 64)
    referencePlatform (ascii "app") (ascii "th.1") lampCommand isCommand_lamp.fields (by decide)

/-! ## A message that is cut short -/

/-- `{"commandID":"c","actions":[1,{"lamp":[{"on":true}]}]}` -/
def numberLampCommand : Doc :=
  commandOf (.arr (.more .none oneValue .none
    (.last .none lampAlias .none)))

def numberLampId : Member :=
  (numberLampCommand.val.field (ascii "commandID")).getD ⟨0, [], 0, trueValue⟩

def numberLampActions : Member :=
  (numberLampCommand.val.field (ascii "actions")).getD ⟨0, [], 0, trueValue⟩

theorem numberLamp_fields : CommandFields numberLampCommand numberLampId numberLampActions :=
  ⟨rfl, rfl, rfl, rfl⟩

theorem numberLamp_elements : numberLampActions.val.elements =
    some [(1, oneValue), (3, lampAlias)] := rfl

/-- The number is taken for the end of the array. -/
theorem numberLamp_items :
    aliasItems (referenceJson 64) zeroStack numberLampCommand.render
      (numberLampCommand.tokenStart numberLampActions : Nat)
      numberLampActions.val.render.length 64 64 0 = [] := by
  have hocc := Doc.tokenText_occurs numberLamp_fields.actions_eq
  rw [tokenText_of_kind numberLamp_fields.actions_kind] at hocc
  refine aliasItems_finish (referenceJson_spec 64) zeroStack hocc (by decide) numberLamp_elements
    ?_ 64 (by decide)
  intro o e h
  rw [List.getElem?_cons_zero] at h
  cases h
  exact nofun

/-- The lamp is not switched, and an empty list of results is sent. -/
theorem numberLamp_skipped :
    ¬ NothingSkipped (referenceJson 64) referencePlatform (ascii "app") (ascii "th.1")
      numberLampCommand numberLampActions := by
  intro hnothing
  have hbuf : FixedBuffer
      (Sdk.mk (referenceApi 1000) (referenceJson 64) referencePlatform).api id :=
    referenceApi_fixedBuffer 1000
  have hjson : JsonSpec
      (Sdk.mk (referenceApi 1000) (referenceJson 64) referencePlatform).json 64 :=
    referenceJson_spec 64
  have hsent := sent_of_finished (m := referenceMachine) hjson numberLamp_fields (by decide) hbuf
    referenceHandlers numberLamp_items rfl (by decide) rfl (by decide)
  obtain ⟨aliases, haliases, -⟩ := hnothing Nat Nat (referenceApi 1000) id hbuf referenceHandlers
    zeroStack 64 (by decide) referenceMachine rfl rfl hsent
  rw [show commandAliases numberLampActions.val = none from rfl] at haliases
  cases haliases

end ThingIfSdk
