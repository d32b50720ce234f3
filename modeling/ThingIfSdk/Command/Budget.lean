import ThingIfSdk.Command.Elements
import ThingIfSdk.Command.Reach

/-!
# Parsing parts of a message again

Every call of `get_key_and_value_at_index` parses a part of the message again, each time
with the same number of tokens.  A part that has a token of its own in the message needs
no more tokens than the message; so the parses can run out of tokens only on a text that
has none, which is what the loops take for the actions of an alias when the value of the
alias is a string, or when the alias has no value and leftovers stand in for it.
-/

namespace ThingIfSdk

open ByteText JsonText

variable {σ δ : Type}

/-! ## Texts that fit -/

/-- `JSMN_ERROR_NOMEM` -/
def jsmnErrorNomem : Int := -1

/-- A text needs a number of tokens, and `jsmn_parse` answers `JSMN_ERROR_NOMEM` exactly
when that is more than the budget.  What a primitive covers needs no more than one. -/
structure TokensNeeded (json : JsonApi) (budget : Nat) (needed : Bytes → Nat) : Prop where
  noMem : ∀ t stale, (json.jsmnParse t stale).1 = jsmnErrorNomem ↔ budget < needed t
  bare : ∀ t token item, token ∈ textTokens json t → token.kind = .primitive →
    spanOf t token = some item → needed item ≤ 1

/-- No parse of the text runs out of tokens. -/
def Fits (json : JsonApi) (t : Bytes) : Prop :=
  ∀ stale, (json.jsmnParse t stale).1 ≠ jsmnErrorNomem

section

variable {json : JsonApi} {budget : Nat} {needed : Bytes → Nat}
  (htree : TokenTree json budget) (hfields : FieldsByTokens json)
  (hneeded : TokensNeeded json budget needed)

include hneeded in
theorem fits_iff {t : Bytes} : Fits json t ↔ needed t ≤ budget := by
  constructor
  · intro h
    by_contra hgt
    exact h (fun _ => noToken) ((hneeded.noMem t _).mpr (by omega))
  · intro h stale hmem
    have hlt := (hneeded.noMem t stale).mp hmem
    omega

include htree in
/-- A text with tokens was accepted. -/
theorem fits_of_tokens {t : Bytes} (h : textTokens json t ≠ []) : Fits json t := by
  intro stale hmem
  have hpos := parse_nonneg htree.toTokensWritten h stale
  rw [hmem, jsmnErrorNomem] at hpos
  omega

include htree hneeded in
/-- What a token covers fits, unless it is a string. -/
theorem fits_of_token {t item : Bytes} {token : Token} (h : token ∈ textTokens json t)
    (hkind : token.kind ≠ .string) (hitem : spanOf t token = some item) : Fits json item := by
  have hpart : Bracketed token → Fits json item := by
    intro hbracketed
    obtain ⟨i, hi⟩ := List.getElem?_of_mem h
    obtain ⟨⟨inner, hinner⟩, -⟩ := htree.part t i token item hi hbracketed hitem
    apply fits_of_tokens htree
    rw [hinner.tokens_eq]
    exact List.cons_ne_nil _ _
  cases hk : token.kind with
  | undefined => exact absurd hk (htree.known t token h)
  | string => exact absurd hk hkind
  | object => exact hpart (.inl hk)
  | array => exact hpart (.inr hk)
  | primitive =>
      have hone := hneeded.bare t token item h hk hitem
      have hpos := List.length_pos_of_mem h
      have hfits := htree.fits t
      exact (fits_iff hneeded).mpr (by omega)

include htree hfields in
/-- An object that is split fits. -/
theorem fits_item {buffer : Bytes} {aliasIndex : Option Nat} {arrayStr arrayLen : Int} {k : Nat}
    {item : Bytes}
    (h : (readCall json buffer aliasIndex arrayStr arrayLen k).item = some item) :
    Fits json item := by
  obtain ⟨array, inner, hsplit⟩ := splitObject_of_item htree hfields h
  apply fits_of_tokens htree
  rw [hsplit.object.tokens.tokens_eq]
  exact List.cons_ne_nil _ _

include htree hfields in
/-- So a call runs out of tokens only on the text of its array. -/
theorem texts_fit {buffer : Bytes} {aliasIndex : Option Nat} {arrayStr arrayLen : Int} {k : Nat}
    (h : ∀ t, slice? buffer arrayStr arrayLen = some t → Fits json t) :
    ∀ t ∈ (readCall json buffer aliasIndex arrayStr arrayLen k).texts, Fits json t := by
  intro t ht
  rw [ReadCall.texts, List.mem_append, Option.mem_toList, Option.mem_toList] at ht
  rcases ht with ht | ht
  · exact h t ht
  · exact fits_item htree hfields ht

/-! ## The actions of an alias -/

/-- The object of an alias has a token of its own for its value, and that is no string. -/
def HasOwnActions (json : JsonApi) (payload : Bytes) (arrayStr arrayLen : Int) (i : Nat) : Prop :=
  ∃ array item value, slice? payload arrayStr arrayLen = some array ∧
    spanOf array (objectToken json array i) = some item ∧
    (textTokens json item)[2]? = some value ∧ value.kind ≠ .string

include htree hfields hneeded in
/-- What the inner loop reads for such an alias fits. -/
theorem ownActions_fit {payload : Bytes} {arrayStr arrayLen : Int} {i : Nat}
    {stale : Nat → Token} {group : KeyValue}
    (hown : HasOwnActions json payload arrayStr arrayLen i)
    (h : getKeyAndValueAtIndex json payload arrayStr arrayLen i stale = some (.success group))
    {t : Bytes} (ht : slice? (terminated payload group) group.value group.valueLen = some t) :
    Fits json t := by
  obtain ⟨array, item, value, harray, hitem, hvalue, hkind⟩ := hown
  obtain ⟨array', harray', hfound⟩ := found_of_success h
  obtain rfl : array = array' := Option.some.inj (harray.symm.trans harray')
  obtain ⟨item', inner, hsplit, -⟩ := splitObject_of_found htree hfields none harray hfound
  obtain rfl : item = item' := Option.some.inj (hitem.symm.trans hsplit.object.span)
  have hsuccess := (hsplit.success_iff htree).mp h
  have hmem := List.mem_of_getElem? hvalue
  rw [hsplit.object.tokens.tokens_eq, List.getElem?_cons_succ] at hvalue
  -- the key and the value are the second and the third token
  match inner, hvalue, hsplit, hsuccess with
  | [], hvalue, _, _ => cases hvalue
  | [key], hvalue, _, _ => cases hvalue
  | key :: value' :: rest, hvalue, hsplit, ⟨hkey, hgroup⟩ =>
      obtain rfl : value' = value := Option.some.inj hvalue
      obtain ⟨u, hu, htext⟩ := hsplit.value_text htree hkey
      have hgroup' : group = .ofTokens (itemBase json arrayStr array i) key value' := hgroup
      rw [← hgroup'] at htext
      obtain rfl : u = t := Option.some.inj (htext.symm.trans ht)
      exact fits_of_token htree hneeded hmem hkind hu

end

/-! ## Messages -/

/-- In no run on the message whose token arrays hold this before does a parse of a part of
the message run out of tokens. -/
def NeverRunsOut (json : JsonApi) (platform : Platform) (appId authorId payload : Bytes)
    (tokens : Nat → Option Nat → Nat → Token) : Prop :=
  ∀ (σ δ : Type) (api : RequestApi σ) (handlers : Handlers σ δ) (stack : Stack) (fuel : Nat)
    (m : Machine σ δ), stack.tokens = tokens → m.kii.appId = appId →
      m.kii.author.authorId = authorId →
      ∀ c ∈ commandReads ⟨api, json, platform⟩ handlers stack fuel ⟨m, payload⟩,
        ∀ t ∈ c.texts, ∀ stale, (json.jsmnParse t stale).1 ≠ jsmnErrorNomem

/-- For every alias that the loops come to and that has no actions of its own, the text
that is taken for its array needs no more than the budget. -/
def StandInsFit (json : JsonApi) (budget : Nat) (needed : Bytes → Nat) (payload : Bytes)
    (tokens : Nat → Option Nat → Nat → Token) : Prop :=
  let actions := (json.kiiJsonReadObject payload commandFields).2 1
  let len := (actions.stop : Int) - actions.start
  ∀ i group t, Entered json payload tokens actions.start len i group →
    ¬ HasOwnActions json payload actions.start len i →
      slice? (terminated payload group) group.value group.valueLen = some t → needed t ≤ budget

/-- When both fields were found, no parse of a part of the message runs out of tokens, if
and only if the resource path is too long, or what stands in for the actions of an alias
that has none of its own fits. -/
theorem commandReads_fit_iff {json : JsonApi} {budget : Nat} {needed : Bytes → Nat}
    (htree : TokenTree json budget) (hbytokens : FieldsByTokens json)
    (hneeded : TokensNeeded json budget needed) (hreport : FieldReport json)
    (platform : Platform) (appId authorId payload : Bytes)
    (tokens : Nat → Option Nat → Nat → Token)
    (hfirst : (json.kiiJsonReadObject payload commandFields).1 = .success) :
    NeverRunsOut json platform appId authorId payload tokens ↔
      (256 ≤ resultsPathLength platform appId authorId
          ((json.kiiJsonReadObject payload commandFields).2 0).start
          ((json.kiiJsonReadObject payload commandFields).2 0).stop ∨
        StandInsFit json budget needed payload tokens) := by
  have hid : HasCommandId json payload :=
    ⟨.inl hfirst, hreport.success payload commandFields hfirst 0 (by decide)⟩
  constructor
  · intro hnever
    rw [or_iff_not_imp_left, Nat.not_le]
    intro hpath i group t hentered _ ht
    -- a run with an unlimited buffer makes the first call for the alias
    let sdk : Sdk Nat := ⟨unlimitedApi, json, platform⟩
    let s : CommandState Nat Nat := ⟨machineOf appId authorId, payload⟩
    have hunlimited : Unlimited sdk.api := unlimitedApi_unlimited
    have hreport' : FieldReport sdk.json := hreport
    have hopen : LoopsOpen sdk.json sdk.platform s.machine.kii.appId
        s.machine.kii.author.authorId s.buffer := ⟨hid, hpath⟩
    obtain ⟨bound, hbound⟩ := mem_commandReads_of_reached hunlimited hreport' referenceHandlers
      (Stack.holding tokens) hopen (.inner i group 0 hentered (readsUpTo_zero _ _ _ _ _ _))
    have hmem := hbound (bound + 1) (Nat.lt_succ_self bound)
    apply (fits_iff hneeded).mp
    refine hnever Nat Nat unlimitedApi referenceHandlers (Stack.holding tokens) (bound + 1)
      (machineOf appId authorId) rfl rfl rfl _ hmem t ?_
    rw [ReadCall.texts, List.mem_append, Option.mem_toList]
    exact .inl ht
  · intro hcond σ δ api handlers stack fuel m htokens happ hauthor c hc t ht
    have hreached := reached_of_mem_commandReads handlers stack fuel hc
    cases hopen : openCommand (Sdk.mk api json platform) ⟨m, payload⟩ with
    | none =>
        unfold commandReads at hc
        rw [hopen] at hc
        cases hc
    | some r =>
        have hpath := openCommand_path hopen
        have hfits : StandInsFit json budget needed payload tokens := by
          rcases hcond with hlong | hfits
          · unfold prvKiiThingIfJsonReadObject at hpath
            simp only [happ, hauthor] at hpath
            omega
          · exact hfits
        rw [htokens] at hreached
        cases hreached with
        | outer k _ =>
            refine texts_fit htree hbytokens (fun u hu => ?_) t ht
            -- the outer loop reads the text of the field
            have hfound := hbytokens.found payload commandFields 1 actionsField hfirst rfl nofun
            exact fits_of_token htree hneeded hfound nofun hu
        | inner i group j hentered _ =>
            refine texts_fit htree hbytokens (fun u hu => ?_) t ht
            by_cases hown : HasOwnActions json payload
                ((json.kiiJsonReadObject payload commandFields).2 1).start
                ((((json.kiiJsonReadObject payload commandFields).2 1).stop : Int) -
                  ((json.kiiJsonReadObject payload commandFields).2 1).start) i
            · exact ownActions_fit htree hbytokens hneeded hown hentered.split hu
            · exact (fits_iff hneeded).mpr (hfits i group u hentered hown hu)

/-! ## The reference parsers -/

/-- The tokens of a text, as far as it is JSON. -/
def tokensNeeded (t : Bytes) : Nat :=
  match parseDoc t with
  | none => 0
  | some d => d.val.tokenCount

theorem tokensNeeded_value (v : Value) : tokensNeeded v.render = v.tokenCount := by
  unfold tokensNeeded
  rw [parseDoc_value]
  rfl

theorem referenceJson_needed (budget : Nat) :
    TokensNeeded (referenceJson budget) budget tokensNeeded where
  noMem := by
    intro t stale
    unfold tokensNeeded
    simp only [referenceJson, referenceParse, jsmnErrorNomem]
    cases parseDoc t with
    | none => simp
    | some d =>
        simp only
        split
        · rename_i h
          exact iff_of_true rfl h
        · rename_i h
          exact iff_of_false (by omega) h
  bare := by
    intro t token item htoken hkind hitem
    obtain ⟨i, hi⟩ := List.getElem?_of_mem htoken
    obtain ⟨hlen, hstands⟩ := textTokens_standsIn hi
    cases hstands with
    | value w a heq hocc hblock =>
        subst heq
        obtain ⟨rfl, -⟩ := textTokens_standing hlen hocc hblock hitem
        -- of the values only a primitive has a token of that kind
        cases w with
        | prim p => exact Nat.le_of_eq (tokensNeeded_value (.prim p))
        | str | arrNil | arr | objNil | obj => cases hkind
    | key s a heq hocc =>
        subst heq
        cases hkind

theorem lamp_reads_fit_iff :
    NeverRunsOut (referenceJson 64) referencePlatform (ascii "app") (ascii "th.1")
        lampCommand.render zeroStack.tokens ↔
      (256 ≤ resultsPathLength referencePlatform (ascii "app") (ascii "th.1")
          (((referenceJson 64).kiiJsonReadObject lampCommand.render commandFields).2 0).start
          (((referenceJson 64).kiiJsonReadObject lampCommand.render commandFields).2 0).stop ∨
        StandInsFit (referenceJson 64) 64 tokensNeeded lampCommand.render zeroStack.tokens) := by
  obtain ⟨hfirst, -⟩ := (referenceJson_spec 64).command lampCommand lampId lampActions (by decide)
    isCommand_lamp.fields
  exact commandReads_fit_iff (referenceJson_tree 64) (referenceJson_fields 64)
    (referenceJson_needed 64) (referenceJson_report 64) referencePlatform (ascii "app")
    (ascii "th.1") lampCommand.render zeroStack.tokens hfirst

/-! ## A string in the place of the actions -/

/-- `[1,1,1,1,1,1,1,1]` -/
def onesValue : Value := .arr (Elems.compact oneValue (List.replicate 7 oneValue))

theorem plain_ones : ∀ b ∈ onesValue.render, isPlain b = true := all_plain rfl

/-- `{"lamp":"[1,1,1,1,1,1,1,1]"}` -/
def onesLampAlias : Value :=
  objectOf (Str.ofPlain (ascii "lamp") plain_lamp) (.str (Str.ofPlain _ plain_ones))

def onesLampCommand : Doc := commandOf (.arr (.last .none onesLampAlias .none))

def onesLampId : Member :=
  (onesLampCommand.val.field (ascii "commandID")).getD ⟨0, [], 0, trueValue⟩

def onesLampActions : Member :=
  (onesLampCommand.val.field (ascii "actions")).getD ⟨0, [], 0, trueValue⟩

def onesLampMember : Member := (onesLampAlias.members.getD []).headD ⟨0, [], 0, trueValue⟩

/-- Eight tokens are enough for the message, and the string in it, read as an array,
needs nine. -/
theorem onesLamp_not_fit :
    ((referenceJson 8).kiiJsonReadObject onesLampCommand.render commandFields).1 = .success ∧
      ∃ c ∈ commandReads (referenceSdk 1000 8) referenceHandlers zeroStack 8
          ⟨referenceMachine, onesLampCommand.render⟩,
        ∃ t ∈ c.texts, ∀ stale, ((referenceJson 8).jsmnParse t stale).1 = jsmnErrorNomem := by
  have hjson : JsonSpec (referenceSdk 1000 8).json 8 := referenceJson_spec 8
  have hfields : CommandFields onesLampCommand onesLampId onesLampActions := ⟨rfl, rfl, rfl, rfl⟩
  have htok : onesLampCommand.val.tokenCount ≤ 8 := by decide
  obtain ⟨hfirst, -⟩ := hjson.command onesLampCommand onesLampId onesLampActions htok hfields
  refine ⟨hfirst, ?_⟩
  -- the run reaches its loops, on the span of the array
  obtain ⟨field, hopen, -⟩ := openCommand_fields (m := referenceMachine) hjson hfields htok
    (by decide) rfl (by decide)
  have hocc := Doc.tokenText_occurs hfields.actions_eq
  rw [tokenText_of_kind hfields.actions_kind] at hocc
  obtain ⟨-, -, -, hstart, hstop⟩ := hjson.command onesLampCommand onesLampId onesLampActions htok
    hfields
  have hlen : ((onesLampCommand.tokenStop onesLampActions : Nat) : Int) -
      (onesLampCommand.tokenStart onesLampActions : Nat) =
        (onesLampActions.val.render.length : Nat) := by
    simp only [Doc.tokenStop, tokenText_of_kind hfields.actions_kind]
    omega
  have hreads := commandReads_eq hopen referenceHandlers zeroStack 8
  simp only [hstart, hstop, hlen] at hreads
  -- its first element splits, and the string is what the inner loop reads first
  have hm : onesLampAlias.members = some (onesLampMember :: []) := rfl
  have hsplit := getKeyAndValueAtIndex_member hjson hocc (k := 0) (by decide)
    (show onesLampActions.val.elements = some [(1, onesLampAlias)] from rfl) rfl hm
    (zeroStack.tokens 0 none)
  have halias : OccursAt onesLampCommand.render (onesLampCommand.tokenStart onesLampActions + 1)
      onesLampAlias.render :=
    hocc.trans (Value.elements_occur (l := [(1, onesLampAlias)]) rfl List.mem_cons_self)
  obtain ⟨hpeek, -, hvalue, -⟩ := alias_terminated hm halias
  have htext := hvalue.trans onesLampMember.val.tokenText_occurs
  rw [Nat.add_assoc] at htext
  have hcall := first_mem_aliasTrace referenceHandlers hsplit (Option.isSome_of_eq_some hpeek) 7 7
    { referenceMachine with
      kii := (kiiApiCallAppendBody (referenceSdk 1000 8) resultsOpening
        (resultsStart (referenceSdk 1000 8) referenceMachine.kii
          onesLampId.val.tokenText).2).2 }
  rw [← hreads] at hcall
  refine ⟨_, hcall, onesValue.render, ?_, ?_⟩
  · rw [ReadCall.texts, List.mem_append]
    left
    rw [Option.mem_toList]
    have hraw : onesLampMember.val.tokenText = onesValue.render := Str.raw_ofPlain _ plain_ones
    rw [← hraw]
    exact htext.slice?_eq
  · intro stale
    apply ((referenceJson_needed 8).noMem _ _).mpr
    rw [tokensNeeded_value]
    decide

end ThingIfSdk
