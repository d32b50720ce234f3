import ThingIfSdk.Command.Dispatch
import ThingIfSdk.Lib.JsonValue

/-!
# What the parameters of an action mean

The handler is given the text of the token of an action's value.  For every kind
of value but one that is the value itself, as it stands in the message; the token
of a string is what stands between its quotes.
-/

namespace JsonText

open ByteText

/-! ## The text of a token -/

theorem toJson_str_iff (v : Value) : (∃ s, v.toJson = .str s) ↔ v.kind = .string := by
  cases v with
  | str s => exact iff_of_true ⟨_, rfl⟩ rfl
  | prim | arrNil | arr | objNil | obj =>
      refine iff_of_false ?_ nofun
      rintro ⟨s, hs⟩
      cases hs

/-- The inside of a string is no text of a string. -/
theorem raw_not_string (s : Str) (x : Bytes) : ¬ Denotes s.raw (.str x) := by
  rintro ⟨d, hd, hjson⟩
  have hrender := parseDoc_sound hd
  have hs := s.find?_isQuoting
  obtain ⟨pre, v, post⟩ := d
  cases v with
  | str s' =>
      apply hs
      rw [← hrender]
      simp [Doc.render, Value.render, List.find?_append, pre.find?_isQuoting, isQuoting]
  | prim | arrNil | arr | objNil | obj => cases hjson

/-- The text of a token is the value's own exactly when the value is no string. -/
theorem tokenText_denotes_iff (v : Value) : Denotes v.tokenText v.toJson ↔ v.kind ≠ .string := by
  constructor
  · intro h hkind
    obtain ⟨x, hx⟩ := (toJson_str_iff v).mpr hkind
    cases v with
    | str s => exact raw_not_string s _ h
    | prim | arrNil | arr | objNil | obj => cases hkind
  · intro h
    rw [tokenText_of_not_string h]
    exact denotes_render v

/-- Values with the same text are the same, unless just one of them is a string. -/
theorem toJson_eq_iff_of_tokenText {v w : Value} (h : v.tokenText = w.tokenText) :
    v.toJson = w.toJson ↔ (v.kind = .string ↔ w.kind = .string) := by
  constructor
  · intro heq
    rw [← toJson_str_iff, ← toJson_str_iff, heq]
  · intro hkinds
    by_cases hv : v.kind = .string
    · have hw := hkinds.mp hv
      cases v with
      | str s =>
          cases w with
          | str s' =>
              have hraw : s.raw = s'.raw := h
              have hrender : (Value.str s).render = (Value.str s').render := by
                rw [Value.render, Value.render, hraw]
              rw [Value.render_injective hrender]
          | prim | arrNil | arr | objNil | obj => cases hw
      | prim | arrNil | arr | objNil | obj => cases hv
    · have hw : w.kind ≠ .string := fun hw => hv (hkinds.mpr hw)
      rw [tokenText_of_not_string hv, tokenText_of_not_string hw] at h
      rw [Value.render_injective h]

end JsonText

namespace ThingIfSdk

open ByteText JsonText

variable {σ δ : Type}

/-! ## The calls of a run -/

/-- However the appends end, the handler is called for items from the front. -/
theorem perform_calls (sdk : Sdk σ) (handlers : Handlers σ δ) (stack : Stack)
    (items : List Item) (m : Machine σ δ) :
    ∃ es, m.kii.Adds (perform sdk handlers stack items m).2.kii es ∧
      handlerCalls es <+: items.filterMap Item.call := by
  induction items generalizing m with
  | nil => exact ⟨[], .refl _, List.nil_prefix⟩
  | cons item items ih =>
      cases item with
      | fail held => exact ⟨[], .refl _, List.nil_prefix⟩
      | undefined => exact ⟨[], .refl _, List.nil_prefix⟩
      | outOfFuel => exact ⟨[], .refl _, List.nil_prefix⟩
      | action i j a n v held =>
          obtain ⟨es, hadd, happend⟩ := performAction_adds sdk handlers stack i j a n v m
          have hcalls : handlerCalls (.action a n v
              (callHandler handlers stack i j a n v m.device).1 :: es) = [(a, n, v)] := by
            rw [← List.singleton_append, handlerCalls_append,
              handlerCalls_of_silent fun e he => isSilent_of_isAppend (happend e he)]
            rfl
          rw [List.filterMap_cons_some (show Item.call _ = some _ from rfl)]
          simp only [perform]
          split
          · refine ⟨_, hadd, ?_⟩
            rw [hcalls]
            exact ⟨_, rfl⟩
          · obtain ⟨es', hadd', hprefix⟩ := ih (performAction sdk handlers stack i j a n v m).2
            refine ⟨_, hadd.trans hadd', ?_⟩
            rw [handlerCalls_append, hcalls]
            exact List.prefix_cons_inj _ |>.mpr hprefix

/-- The handler calls of a run of `handle_command` follow the items of the message. -/
theorem handleCommand_calls {sdk : Sdk σ} {s : CommandState σ δ} {actions : JsonFieldOut}
    {m : Machine σ δ} (hopen : openCommand sdk s = some (actions, m)) (handlers : Handlers σ δ)
    (stack : Stack) (fuel : Nat) :
    handlerCalls (newEvents s.machine.kii (handleCommand sdk handlers stack fuel s).2.machine.kii) <+:
      (commandItems sdk.json stack s.buffer fuel actions).filterMap Item.call := by
  obtain ⟨-, -, call, hopened⟩ := openCommand_adds hopen
  obtain ⟨es, hadd, hprefix⟩ := perform_calls sdk handlers stack
    (commandItems sdk.json stack s.buffer fuel actions) m
  have hloops := hopened.trans hadd
  have hcalls : handlerCalls ([.callStart call 0, .appendBody resultsOpening 0] ++ es) =
      handlerCalls es := by
    rw [handlerCalls_append]
    rfl
  obtain ⟨hfinished, hother⟩ := handleCommand_of_open hopen handlers stack fuel
  by_cases hf : (perform sdk handlers stack (commandItems sdk.json stack s.buffer fuel actions)
      m).1.flow = .finished
  · obtain ⟨-, -, hmachine⟩ := hfinished hf
    obtain ⟨es', hlog, hnone⟩ := finishCommand_log sdk handlers
      (perform sdk handlers stack (commandItems sdk.json stack s.buffer fuel actions) m).2
    rw [hloops.log_eq, List.append_assoc] at hlog
    rw [hmachine, newEvents_eq hlog, handlerCalls_append, hcalls, hnone, List.append_nil]
    exact hprefix
  · obtain ⟨-, hmachine, -⟩ := hother hf
    rw [hmachine, newEvents_eq hloops.log_eq, hcalls]
    exact hprefix

/-! ## Commands -/

/-- The values of the actions of a command, in document order. -/
def commandValues (aliases : List CommandAlias) : List Value :=
  aliases.flatMap fun a => a.actions.map fun x => x.2.val

theorem commandCalls_params (aliases : List CommandAlias) :
    (commandCalls aliases).map (fun call => call.2.2) =
      (commandValues aliases).map Value.tokenText := by
  simp only [commandCalls, commandValues, CommandAlias.calls, List.map_flatMap, List.map_map]
  rfl

/-- In a list paired with what it is a front of the image of, the pairs match. -/
theorem fst_of_mem_zip {α β : Type} {f : α → β} {l : List α} {l' : List β}
    (h : l' <+: l.map f) {x : β × α} (hx : x ∈ l'.zip l) : x.1 = f x.2 := by
  induction l' generalizing l with
  | nil => cases hx
  | cons b l' ih =>
      cases l with
      | nil => cases hx
      | cons a l =>
          rw [List.map_cons, List.cons_prefix_cons] at h
          rw [List.zip_cons_cons, List.mem_cons] at hx
          rcases hx with rfl | hx
          · exact h.1
          · exact ih h.2 hx

/-- A run of `handle_command` on a command, whatever the handlers, the request
buffer and the automatic arrays do; the token budget and the rounds suffice for it. -/
structure CommandRun (σ δ : Type) where
  sdk : Sdk σ
  handlers : Handlers σ δ
  stack : Stack
  fuel : Nat
  machine : Machine σ δ
  doc : Doc
  commandId : Member
  actions : Member
  aliases : List CommandAlias
  budget : Nat
  json : JsonSpec sdk.json budget
  isCommand : IsCommand doc commandId actions aliases
  tokens : doc.val.tokenCount ≤ budget
  rounds : doc.val.tokenCount ≤ fuel

namespace CommandRun

/-- What the handler is called with, in order. -/
def calls (r : CommandRun σ δ) : List (Bytes × Bytes × Bytes) :=
  let run := handleCommand r.sdk r.handlers r.stack r.fuel ⟨r.machine, r.doc.render⟩
  handlerCalls (newEvents r.machine.kii run.2.machine.kii)

/-- The `action_params` of each call, and the value of the action it is made for. -/
def handed (r : CommandRun σ δ) : List (Bytes × Value) :=
  (r.calls.map fun call => call.2.2).zip (commandValues r.aliases)

theorem calls_prefix (r : CommandRun σ δ) : r.calls <+: commandCalls r.aliases := by
  unfold calls
  cases hopen : openCommand r.sdk ⟨r.machine, r.doc.render⟩ with
  | none =>
      obtain ⟨es, hadd, hsilent, -⟩ := handleCommand_of_not_open hopen r.handlers r.stack r.fuel
      simp only [newEvents_eq hadd.log_eq, handlerCalls_of_silent hsilent]
      exact List.nil_prefix
  | some opened =>
      obtain ⟨field, m⟩ := opened
      have hprefix := handleCommand_calls hopen r.handlers r.stack r.fuel
      obtain ⟨hfield, -⟩ := openCommand_adds hopen
      obtain ⟨-, -, -, hstart, hstop⟩ := r.json.command r.doc r.commandId r.actions r.tokens
        r.isCommand.fields
      have hstart' : field.start = r.doc.tokenStart r.actions := by
        rw [hfield]
        exact hstart
      have hstop' : field.stop = r.doc.tokenStop r.actions := by
        rw [hfield]
        exact hstop
      have hitems := commandItems_command r.json r.isCommand r.tokens r.stack r.rounds hstart' hstop'
      rw [hitems, filterMap_call_itemsOfAliases] at hprefix
      exact hprefix

theorem params_prefix (r : CommandRun σ δ) :
    r.calls.map (fun call => call.2.2) <+: (commandValues r.aliases).map Value.tokenText := by
  rw [← commandCalls_params]
  exact r.calls_prefix.map _

/-- Every call is paired with the value of its action. -/
theorem handed_fst (r : CommandRun σ δ) :
    r.handed.map Prod.fst = r.calls.map (fun call => call.2.2) := by
  apply List.map_fst_zip
  have hle := r.params_prefix.length_le
  rwa [List.length_map Value.tokenText] at hle

/-- The handler is given the text of the token of the value. -/
theorem handed_tokenText (r : CommandRun σ δ) {x : Bytes × Value} (hx : x ∈ r.handed) :
    x.1 = x.2.tokenText :=
  fst_of_mem_zip r.params_prefix hx

/-- Where everything suffices all actions are handed out. -/
theorem calls_eq (r : CommandRun σ δ) {remaining : σ → Nat}
    (hbuf : FixedBuffer r.sdk.api remaining)
    (hsuff : Suffices r.sdk remaining r.budget r.handlers r.stack r.machine r.doc r.commandId
      r.aliases) : r.calls = commandCalls r.aliases := by
  obtain ⟨-, -, hcalls, -⟩ := handleCommand_command hbuf r.json r.handlers r.stack r.isCommand
    hsuff r.rounds
  exact hcalls.trans (commandEntries_calls r.handlers r.stack r.aliases r.machine.device)

/-- In every run on a command, the parameters of an action are JSON that denotes
the action's value exactly when that is not a string; and two actions, of one
command or of two, that are given the same parameters have the same value unless
just one of the values is a string. -/
theorem params_denote_iff (r r' : CommandRun σ δ) :
    r.handed.map Prod.fst = r.calls.map (fun call => call.2.2) ∧
      (∀ x ∈ r.handed, Denotes x.1 x.2.toJson ↔ x.2.kind ≠ .string) ∧
      ∀ x ∈ r.handed, ∀ y ∈ r'.handed, x.1 = y.1 →
        (x.2.toJson = y.2.toJson ↔ (x.2.kind = .string ↔ y.2.kind = .string)) := by
  refine ⟨r.handed_fst, ?_, ?_⟩
  · intro x hx
    rw [r.handed_tokenText hx]
    exact tokenText_denotes_iff x.2
  · intro x hx y hy heq
    rw [r.handed_tokenText hx, r'.handed_tokenText hy] at heq
    exact toJson_eq_iff_of_tokenText heq

end CommandRun

/-! ## The boolean and the string -/

theorem plain_true : ∀ b ∈ ascii "true", isPlain b = true := all_plain rfl

/-- `"true"` -/
def trueString : Value := .str (Str.ofPlain (ascii "true") plain_true)

/-- `{"lamp":[{"on":true},{"on":"true"}]}` -/
def twoLampsAlias : Value :=
  objectOf (Str.ofPlain (ascii "lamp") plain_lamp)
    (.arr (.more .none (objectOf (Str.ofPlain (ascii "on") plain_on) trueValue) .none
      (.last .none (objectOf (Str.ofPlain (ascii "on") plain_on) trueString) .none)))

def twoLampsCommand : Doc := commandOf (.arr (.last .none twoLampsAlias .none))

def twoLampsId : Member :=
  (twoLampsCommand.val.field (ascii "commandID")).getD ⟨0, [], 0, trueValue⟩

def twoLampsActions : Member :=
  (twoLampsCommand.val.field (ascii "actions")).getD ⟨0, [], 0, trueValue⟩

def twoLampsAliases : List CommandAlias := (commandAliases twoLampsActions.val).getD []

def twoLampsRun : CommandRun Nat Nat where
  sdk := referenceSdk 1000 64
  handlers := referenceHandlers
  stack := zeroStack
  fuel := 64
  machine := referenceMachine
  doc := twoLampsCommand
  commandId := twoLampsId
  actions := twoLampsActions
  aliases := twoLampsAliases
  budget := 64
  json := referenceJson_spec 64
  isCommand := ⟨⟨rfl, rfl, rfl, rfl⟩, rfl⟩
  tokens := by decide
  rounds := by decide

theorem twoLamps_handed :
    twoLampsRun.handed = [(ascii "true", trueValue), (ascii "true", trueString)] := by
  have hsuff : Suffices twoLampsRun.sdk id twoLampsRun.budget twoLampsRun.handlers
      twoLampsRun.stack twoLampsRun.machine twoLampsRun.doc twoLampsRun.commandId
      twoLampsRun.aliases := ⟨by decide, by decide, rfl, by decide⟩
  unfold CommandRun.handed
  rw [twoLampsRun.calls_eq (referenceApi_fixedBuffer 1000) hsuff,
    show twoLampsRun.aliases = twoLampsAliases from rfl]
  rfl

/-- The boolean `true` and the string `"true"` are given to the handler alike. -/
theorem twoLamps_same_params :
    ∃ x ∈ twoLampsRun.handed, ∃ y ∈ twoLampsRun.handed, x.1 = y.1 ∧
      x.2.toJson ≠ y.2.toJson ∧ ¬ Denotes y.1 y.2.toJson := by
  refine ⟨(ascii "true", trueValue), ?_, (ascii "true", trueString), ?_, rfl, nofun, ?_⟩
  · rw [twoLamps_handed]
    exact List.mem_cons_self
  · rw [twoLamps_handed]
    exact List.mem_cons_of_mem _ List.mem_cons_self
  · intro h
    exact (tokenText_denotes_iff trueString).mp h rfl

end ThingIfSdk
