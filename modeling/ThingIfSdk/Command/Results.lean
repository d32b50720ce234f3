import ThingIfSdk.Command.Dispatch
import ThingIfSdk.Lib.JsonValue

/-!
# The body of the results request

When the entries are separated by commas and nothing else, the body denotes the
list of results.  The source writes a comma before every entry but the one with
both indices zero, so this is the case exactly when the first alias has an action
or no alias has one.
-/

namespace ThingIfSdk

open ByteText JsonText

variable {σ δ : Type}

/-! ## What the body should denote -/

/-- What a raw text between two quotes denotes. -/
def rawDecode (raw : Bytes) : Bytes :=
  match parseStr (raw.length + 2) (raw ++ [quote]) with
  | some (s, _) => Str.decode s
  | none => raw

theorem rawDecode_raw (s : Str) : rawDecode s.raw = Str.decode s := by
  have hparse : parseStr (s.raw.length + 2) (s.raw ++ [quote]) = some (s, []) := by
    have := parseStr_render_self s []
    rwa [List.length_append, List.length_singleton] at this
  rw [rawDecode, hparse]

/-- The result of one handler call. -/
def Entry.json (e : Entry) : Json :=
  .obj [(rawDecode e.actionName,
    .obj ((ascii "succeeded", .prim (if e.errorMessage.isNone then ascii "true" else ascii "false"))
      :: (match e.errorMessage with
        | none => []
        | some message => [(ascii "errorMessage", .str message)])))]

/-- The results of all handler calls, in order. -/
def resultsJson (es : List Entry) : Json :=
  .obj [(ascii "actionResults", .arr (es.map Entry.json))]

/-- The error message needs no escaping. -/
def Entry.IsPlain (e : Entry) : Prop :=
  ∀ message, e.errorMessage = some message → ∀ b ∈ message, isPlain b = true

/-! ## One entry is an object -/

def falseValue : Value := .prim ⟨ascii "false", by decide⟩

def succeededKey : Str := Str.ofPlain (ascii "succeeded") (all_plain rfl)
def errorMessageKey : Str := Str.ofPlain (ascii "errorMessage") (all_plain rfl)
def actionResultsKey : Str := Str.ofPlain (ascii "actionResults") (all_plain rfl)

/-- The tree of an entry. -/
def entryValue (key : Str) (errorMessage : Option Str) : Value :=
  match errorMessage with
  | none =>
      .obj (Members.compact (key, .obj (Members.compact (succeededKey, trueValue) [])) [])
  | some message =>
      .obj (Members.compact (key, .obj (Members.compact (succeededKey, falseValue)
        [(errorMessageKey, .str message)])) [])

theorem render_entryValue (key : Str) (errorMessage : Option Str) :
    (entryValue key errorMessage).render =
      (entryPieces key.raw (errorMessage.map Str.raw)).flatten := by
  cases errorMessage with
  | none =>
      simp [entryValue, Value.render, Members.render_compact, memberText, entryPieces,
        memberPieces, optionalPieces]
      rfl
  | some message =>
      simp [entryValue, Value.render, Members.render_compact, memberText, entryPieces,
        memberPieces, optionalPieces]
      rfl

/-- An entry with a plain message is the text of an object that denotes it. -/
theorem Entry.exists_value {e : Entry} {key : Str} (hkey : e.actionName = key.raw)
    (hplain : e.IsPlain) :
    ∃ v : Value, v.render = (entryPieces e.actionName e.errorMessage).flatten ∧
      v.toJson = e.json := by
  cases hem : e.errorMessage with
  | none =>
      refine ⟨entryValue key none, ?_, ?_⟩
      · rw [render_entryValue, hkey]
        rfl
      · simp only [Entry.json, hem, hkey, rawDecode_raw]
        rfl
  | some message =>
      have hmsg := hplain message hem
      refine ⟨entryValue key (some (Str.ofPlain message hmsg)), ?_, ?_⟩
      · rw [render_entryValue, hkey, Option.map_some, Str.raw_ofPlain]
      · simp only [Entry.json, hem, hkey, rawDecode_raw, entryValue, Value.toJson,
          Members.toJson_compact, List.map_nil, List.map_cons, Str.decode_ofPlain]
        rfl

/-! ## Entries of a command -/

/-- The first alias has an action, or there is no action at all. -/
def StartsWithAction (aliases : List CommandAlias) : Prop :=
  (∃ a rest, aliases = a :: rest ∧ a.actions ≠ []) ∨ ∀ a ∈ aliases, a.actions = []

theorem mem_actionEntries {handlers : Handlers σ δ} {stack : Stack} {name : Bytes} {i j : Nat}
    {acts : List (Nat × Member)} {device : δ} {e : Entry}
    (h : e ∈ (actionEntries handlers stack name i j acts device).1) :
    e.aliasIndex = i ∧ j ≤ e.actionIndex ∧ ∃ key : Str, e.actionName = key.raw := by
  induction acts generalizing j device with
  | nil => cases h
  | cons x acts ih =>
      simp only [actionEntries, List.mem_cons] at h
      rcases h with rfl | h
      · exact ⟨rfl, Nat.le_refl _, x.2.key, rfl⟩
      · obtain ⟨hi, hj, hkey⟩ := ih h
        exact ⟨hi, by omega, hkey⟩

theorem mem_commandEntries {handlers : Handlers σ δ} {stack : Stack} {i : Nat}
    {aliases : List CommandAlias} {device : δ} {e : Entry}
    (h : e ∈ (commandEntries handlers stack i aliases device).1) :
    i ≤ e.aliasIndex ∧ ∃ key : Str, e.actionName = key.raw := by
  induction aliases generalizing i device with
  | nil => cases h
  | cons a rest ih =>
      simp only [commandEntries, List.mem_append] at h
      rcases h with h | h
      · obtain ⟨hi, -, hkey⟩ := mem_actionEntries h
        exact ⟨by omega, hkey⟩
      · obtain ⟨hi, hkey⟩ := ih h
        exact ⟨by omega, hkey⟩

theorem commandCalls_eq_nil_iff (aliases : List CommandAlias) :
    commandCalls aliases = [] ↔ ∀ a ∈ aliases, a.actions = [] := by
  simp [commandCalls, CommandAlias.calls]

theorem separatorPieces_comma {e : Entry} (h : 0 < e.aliasIndex ∨ 0 < e.actionIndex) :
    e.pieces.flatten = comma :: (entryPieces e.actionName e.errorMessage).flatten := by
  simp only [Entry.pieces, separatorPieces, if_pos h]
  rfl

/-- Entries that all have a comma are so many elements behind the first. -/
theorem entriesText_tail {es : List Entry} {vs : List Value}
    (hcomma : ∀ e ∈ es, 0 < e.aliasIndex ∨ 0 < e.actionIndex)
    (hvs : List.Forall₂ (fun (e : Entry) (v : Value) =>
      v.render = (entryPieces e.actionName e.errorMessage).flatten ∧ v.toJson = e.json) es vs) :
    entriesText es = vs.flatMap (fun w => comma :: w.render) ∧
      vs.map Value.toJson = es.map Entry.json := by
  induction hvs with
  | nil => exact ⟨rfl, rfl⟩
  | @cons e v es vs he _ ih =>
      obtain ⟨htext, hjson⟩ := ih fun e' he' => hcomma e' (List.mem_cons_of_mem _ he')
      constructor
      · rw [entriesText_cons, separatorPieces_comma (hcomma e List.mem_cons_self), htext,
          List.flatMap_cons, he.1]
      · rw [List.map_cons, List.map_cons, hjson, he.2]

theorem exists_values {es : List Entry}
    (hkey : ∀ e ∈ es, ∃ key : Str, e.actionName = key.raw) (hplain : ∀ e ∈ es, e.IsPlain) :
    ∃ vs, List.Forall₂ (fun (e : Entry) (v : Value) =>
      v.render = (entryPieces e.actionName e.errorMessage).flatten ∧ v.toJson = e.json) es vs := by
  induction es with
  | nil => exact ⟨[], .nil⟩
  | cons e es ih =>
      obtain ⟨key, hk⟩ := hkey e List.mem_cons_self
      obtain ⟨v, hv⟩ := Entry.exists_value hk (hplain e List.mem_cons_self)
      obtain ⟨vs, hvs⟩ := ih (fun e' he' => hkey e' (List.mem_cons_of_mem _ he'))
        fun e' he' => hplain e' (List.mem_cons_of_mem _ he')
      exact ⟨v :: vs, .cons hv hvs⟩

/-! ## The body -/

/-- An array of results in its object. -/
theorem denotes_results {v : Value} {js : List Json}
    (hjson : v.toJson = .arr js) :
    Denotes (lbrace :: (memberText (actionResultsKey, v) ++ [rbrace]))
      (.obj [(ascii "actionResults", .arr js)]) := by
  have h := denotes_render (.obj (Members.compact (actionResultsKey, v) []))
  have hr : (Value.obj (Members.compact (actionResultsKey, v) [])).render =
      lbrace :: (memberText (actionResultsKey, v) ++ [rbrace]) := by
    simp [Value.render, Members.render_compact]
  have hj : (Value.obj (Members.compact (actionResultsKey, v) [])).toJson =
      .obj [(ascii "actionResults", .arr js)] := by
    simp only [Value.toJson, Members.toJson_compact, List.map_nil, hjson]
    rfl
  rwa [hr, hj] at h

/-- No entries: an empty array. -/
theorem resultsText_nil_denotes : Denotes (resultsText []) (resultsJson []) := by
  have hvalue : (Value.arrNil .none).toJson = .arr [] := rfl
  have h := denotes_results hvalue
  exact h

/-- Entries of which exactly the first has no comma. -/
theorem resultsText_denotes {e : Entry} {es : List Entry}
    (hfirst : e.aliasIndex = 0 ∧ e.actionIndex = 0)
    (hcomma : ∀ e' ∈ es, 0 < e'.aliasIndex ∨ 0 < e'.actionIndex)
    (hkey : ∀ e' ∈ e :: es, ∃ key : Str, e'.actionName = key.raw)
    (hplain : ∀ e' ∈ e :: es, e'.IsPlain) :
    Denotes (resultsText (e :: es)) (resultsJson (e :: es)) := by
  obtain ⟨vs, hvs⟩ := exists_values hkey hplain
  cases hvs with
  | @cons _ v _ vs he htail =>
      obtain ⟨htext, hjson⟩ := entriesText_tail hcomma htail
      have hhead : e.pieces.flatten = v.render := by
        rw [he.1]
        simp only [Entry.pieces, separatorPieces, hfirst.1, hfirst.2]
        rfl
      have hvalue : (Value.arr (Elems.compact v vs)).toJson = .arr ((e :: es).map Entry.json) := by
        rw [Value.toJson, Elems.toJson_compact, hjson, he.2]
        rfl
      have h := denotes_results hvalue
      have hbody : lbrace :: (memberText (actionResultsKey, .arr (Elems.compact v vs)) ++
          [rbrace]) = resultsText (e :: es) := by
        rw [resultsText, entriesText_cons, hhead, htext]
        simp only [memberText, Value.render, Elems.render_compact]
        simp [resultsOpening, resultsClosing, actionResultsKey]
        rfl
      rwa [hbody] at h

/-! ### A leading comma -/

theorem parseElems_comma (n : Nat) (t : Bytes) : parseElems n (comma :: t) = none := by
  cases n with
  | zero => rfl
  | succ n =>
      have hws : takeWs (comma :: t) = (Ws.none, comma :: t) := takeWs_cons (by decide) t
      have hvalue : parseValue n (comma :: t) = none := by
        cases n with
        | zero => rfl
        | succ n =>
            have hprim : parsePrim (comma :: t) = none := by
              have htake : (comma :: t).takeWhile isPrimByte = [] := rfl
              unfold parsePrim
              rw [dif_neg]
              rw [htake]
              decide
            have h1 : comma ≠ quote := by decide
            have h2 : comma ≠ lbracket := by decide
            have h3 : comma ≠ lbrace := by decide
            simp only [parseValue, if_neg h1, if_neg h2, if_neg h3, hprim]
      simp only [parseElems, hws, hvalue]

theorem parseValue_bracket_comma (n : Nat) (t : Bytes) :
    parseValue n (lbracket :: comma :: t) = none := by
  cases n with
  | zero => rfl
  | succ n =>
      have h1 : lbracket ≠ quote := by decide
      have h2 : comma ≠ rbracket := by decide
      have hws : takeWs (comma :: t) = (Ws.none, comma :: t) := takeWs_cons (by decide) t
      simp only [parseValue, if_neg h1, if_true, hws, if_neg h2, parseElems_comma]

/-- A member whose value does not parse. -/
theorem parseMembers_value_none (n : Nat) (key : Str) {t : Bytes}
    (ht : takeWs t = (Ws.none, t)) (hvalue : ∀ k, parseValue k t = none) :
    parseMembers n (quote :: (key.raw ++ quote :: colon :: t)) = none := by
  cases n with
  | zero => rfl
  | succ n =>
      have hws : takeWs (quote :: (key.raw ++ quote :: colon :: t)) =
          (Ws.none, quote :: (key.raw ++ quote :: colon :: t)) := takeWs_cons (by decide) _
      have hkey := parseStr_render_self key (colon :: t)
      have hcolon : takeWs (colon :: t) = (Ws.none, colon :: t) := takeWs_cons (by decide) t
      simp only [parseMembers, hws, if_true, hkey, hcolon, ht, hvalue]

/-- A comma right behind the opening bracket is not JSON. -/
theorem leading_comma_not_json (rest : Bytes) :
    parseDoc (resultsOpening ++ comma :: rest) = none := by
  have htext : resultsOpening ++ comma :: rest =
      lbrace :: quote :: (actionResultsKey.raw ++ quote :: colon :: lbracket :: comma :: rest) :=
    rfl
  have hmembers : ∀ n, parseMembers n (quote :: (actionResultsKey.raw ++ quote :: colon ::
      lbracket :: comma :: rest)) = none := fun n =>
    parseMembers_value_none n actionResultsKey (takeWs_cons (by decide) _)
      fun k => parseValue_bracket_comma k rest
  have hws : takeWs (lbrace :: quote :: (actionResultsKey.raw ++ quote :: colon :: lbracket ::
      comma :: rest)) = (Ws.none, _) := takeWs_cons (by decide) _
  have hws' : takeWs (quote :: (actionResultsKey.raw ++ quote :: colon :: lbracket ::
      comma :: rest)) = (Ws.none, _) := takeWs_cons (by decide) _
  have h1 : lbrace ≠ quote := by decide
  have h2 : lbrace ≠ lbracket := by decide
  have h3 : quote ≠ rbrace := by decide
  rw [htext]
  simp only [parseDoc, hws, parseValue, if_neg h1, if_neg h2, if_true, hws', if_neg h3, hmembers]

/-! ## Commands -/

/-- How the entries of a command are separated. -/
theorem commandEntries_cases (handlers : Handlers σ δ) (stack : Stack)
    (aliases : List CommandAlias) (device : δ) :
    ((∀ a ∈ aliases, a.actions = []) ∧ (commandEntries handlers stack 0 aliases device).1 = []) ∨
    (∃ a rest e es, aliases = a :: rest ∧ a.actions ≠ [] ∧
      (commandEntries handlers stack 0 aliases device).1 = e :: es ∧
      (e.aliasIndex = 0 ∧ e.actionIndex = 0) ∧
      ∀ e' ∈ es, 0 < e'.aliasIndex ∨ 0 < e'.actionIndex) ∨
    (¬ StartsWithAction aliases ∧ ∃ e es,
      (commandEntries handlers stack 0 aliases device).1 = e :: es ∧ 0 < e.aliasIndex) := by
  by_cases hnone : ∀ a ∈ aliases, a.actions = []
  · left
    have hcalls := commandEntries_calls handlers stack aliases device
    rw [(commandCalls_eq_nil_iff aliases).mpr hnone, List.map_eq_nil_iff] at hcalls
    exact ⟨hnone, hcalls⟩
  · right
    cases aliases with
    | nil => exact absurd (fun a ha => nomatch ha) hnone
    | cons a rest =>
        cases hacts : a.actions with
        | cons x acts =>
            left
            refine ⟨a, rest, _, _, rfl, by simp [hacts],
              by simp only [commandEntries, hacts, actionEntries, List.cons_append]; rfl,
              ⟨rfl, rfl⟩, ?_⟩
            intro e he
            rcases List.mem_append.mp he with he | he
            · have := (mem_actionEntries he).2.1
              right
              omega
            · have := (mem_commandEntries he).1
              left
              omega
        -- The first alias hands out nothing, so the first entry is of a later alias.
        | nil =>
            right
            constructor
            · rintro (⟨a', rest', heq, hne⟩ | hall)
              · cases heq
                exact hne hacts
              · exact hnone hall
            · have hentries : (commandEntries handlers stack 0 (a :: rest) device).1 =
                  (commandEntries handlers stack 1 rest device).1 := by
                simp only [commandEntries, hacts, actionEntries, List.nil_append]
              have hcalls := commandEntries_calls handlers stack (a :: rest) device
              rw [hentries] at hcalls ⊢
              cases hes : (commandEntries handlers stack 1 rest device).1 with
              | nil =>
                  rw [hes, List.map_nil, eq_comm, commandCalls_eq_nil_iff] at hcalls
                  exact absurd hcalls hnone
              | cons e es =>
                  refine ⟨e, es, rfl, ?_⟩
                  have hmem : e ∈ (commandEntries handlers stack 1 rest device).1 := by
                    rw [hes]
                    exact List.mem_cons_self
                  have := (mem_commandEntries hmem).1
                  omega

/-- The body of a command is JSON exactly when its first entry has no comma. -/
theorem resultsText_denotes_iff (handlers : Handlers σ δ) (stack : Stack)
    (aliases : List CommandAlias) (device : δ)
    (hplain : ∀ e ∈ (commandEntries handlers stack 0 aliases device).1, e.IsPlain) :
    Denotes (resultsText (commandEntries handlers stack 0 aliases device).1)
        (resultsJson (commandEntries handlers stack 0 aliases device).1) ↔
      StartsWithAction aliases := by
  have hkey : ∀ e ∈ (commandEntries handlers stack 0 aliases device).1,
      ∃ key : Str, e.actionName = key.raw := fun e he => (mem_commandEntries he).2
  rcases commandEntries_cases handlers stack aliases device with
    ⟨hnone, hnil⟩ | ⟨a, rest, e, es, ha, hne, hes, hfirst, hcomma⟩ | ⟨hnot, e, es, hes, he⟩
  · rw [hnil]
    exact iff_of_true resultsText_nil_denotes (.inr hnone)
  · rw [hes] at hkey hplain ⊢
    exact iff_of_true (resultsText_denotes hfirst hcomma hkey hplain)
      (.inl ⟨a, rest, ha, hne⟩)
  · refine iff_of_false ?_ hnot
    rintro ⟨d, hparse, -⟩
    rw [hes, resultsText, entriesText_cons, separatorPieces_comma (.inl he), List.cons_append,
      List.cons_append, leading_comma_not_json] at hparse
    cases hparse

/-- `handle_command` reports its handler calls one by one, as JSON, exactly for the
commands whose first alias has an action and those without any action. -/
theorem handleCommand_reports_iff {sdk : Sdk σ} {remaining : σ → Nat} {budget : Nat}
    (hbuf : FixedBuffer sdk.api remaining) (hjson : JsonSpec sdk.json budget)
    (handlers : Handlers σ δ) (stack : Stack) (m : Machine σ δ) (d : Doc)
    {commandId actions : Member} {aliases : List CommandAlias}
    (hcmd : IsCommand d commandId actions aliases)
    (hsuff : Suffices sdk remaining budget handlers stack m d commandId aliases) {fuel : Nat}
    (hfuel : d.val.tokenCount ≤ fuel)
    (hplain : ∀ e ∈ (commandEntries handlers stack 0 aliases m.device).1, e.IsPlain) :
    let run := handleCommand sdk handlers stack fuel ⟨m, d.render⟩
    let es := (commandEntries handlers stack 0 aliases m.device).1
    let new := newEvents m.kii run.2.machine.kii
    (handlerCalls new = es.map Entry.call ∧
      ∃ body later, sentBodies [] new = body :: later ∧ Denotes body (resultsJson es)) ↔
    StartsWithAction aliases := by
  obtain ⟨-, -, hcalls, later, hsent⟩ :=
    handleCommand_command hbuf hjson handlers stack hcmd hsuff hfuel
  simp only [hcalls, hsent, true_and]
  rw [← resultsText_denotes_iff handlers stack aliases m.device hplain]
  constructor
  · rintro ⟨body, later', heq, hdenotes⟩
    cases heq
    exact hdenotes
  · intro hdenotes
    exact ⟨_, later, rfl, hdenotes⟩

theorem handleCommand_reports_lamp :
    let run := handleCommand (referenceSdk 1000 64) referenceHandlers zeroStack 64
      ⟨referenceMachine, lampCommand.render⟩
    let es := (commandEntries referenceHandlers zeroStack 0 lampAliases 0).1
    let new := newEvents referenceMachine.kii run.2.machine.kii
    (handlerCalls new = es.map Entry.call ∧
      ∃ body later, sentBodies [] new = body :: later ∧ Denotes body (resultsJson es)) ↔
    StartsWithAction lampAliases :=
  handleCommand_reports_iff (referenceApi_fixedBuffer 1000) (referenceJson_spec 64)
    referenceHandlers zeroStack referenceMachine lampCommand isCommand_lamp suffices_lamp
    (by decide) (by
      intro e he message hmsg
      have hes : (commandEntries referenceHandlers zeroStack 0 lampAliases 0).1 =
          [⟨0, 0, ascii "lamp", ascii "on", ascii "true", none⟩] := rfl
      simp only [referenceMachine, hes, List.mem_singleton] at he
      rw [he] at hmsg
      cases hmsg)

/-- `{"fan":[]}` -/
def fanAlias : Value :=
  objectOf (Str.ofPlain (ascii "fan") (all_plain rfl)) (.arrNil .none)

/-- A command whose first alias has no action. -/
def fanLampCommand : Doc := commandOf (.arr (.more .none fanAlias .none (.last .none lampAlias .none)))

def fanLampId : Member :=
  (fanLampCommand.val.field (ascii "commandID")).getD ⟨0, [], 0, trueValue⟩
def fanLampActions : Member :=
  (fanLampCommand.val.field (ascii "actions")).getD ⟨0, [], 0, trueValue⟩
def fanLampAliases : List CommandAlias := (commandAliases fanLampActions.val).getD []

/-- Its results are sent, and are not JSON. -/
theorem fanLamp_results_not_json :
    let run := handleCommand (referenceSdk 1000 64) referenceHandlers zeroStack 64
      ⟨referenceMachine, fanLampCommand.render⟩
    ∃ body later, sentBodies [] (newEvents referenceMachine.kii run.2.machine.kii) =
        body :: later ∧ ∀ j, ¬ Denotes body j := by
  have hcmd : IsCommand fanLampCommand fanLampId fanLampActions fanLampAliases :=
    ⟨⟨rfl, rfl, rfl, rfl⟩, rfl⟩
  have hsuff : Suffices (referenceSdk 1000 64) id 64 referenceHandlers zeroStack
      referenceMachine fanLampCommand fanLampId fanLampAliases :=
    ⟨by decide, by decide, rfl, by decide⟩
  obtain ⟨-, -, -, later, hsent⟩ := handleCommand_command (referenceApi_fixedBuffer 1000)
    (referenceJson_spec 64) referenceHandlers zeroStack hcmd hsuff
    (by decide : fanLampCommand.val.tokenCount ≤ 64)
  refine ⟨_, later, hsent, ?_⟩
  rintro j ⟨d, hparse, -⟩
  have hes : (commandEntries referenceHandlers zeroStack 0 fanLampAliases 0).1 =
      [⟨1, 0, ascii "lamp", ascii "on", ascii "true", none⟩] := rfl
  rw [show referenceMachine.device = 0 from rfl, hes, resultsText, entriesText_cons,
    separatorPieces_comma (.inl Nat.one_pos), List.cons_append, List.cons_append,
    leading_comma_not_json] at hparse
  cases hparse

end ThingIfSdk
