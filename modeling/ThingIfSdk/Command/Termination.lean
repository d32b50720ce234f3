import ThingIfSdk.Command.Elements
import ThingIfSdk.Command.Reach

/-!
# The loops come to an end

A loop goes on as long as its calls succeed, and a call succeeds only at the index of an
element.  So the elements of the texts that are read bound the calls, the indices and,
over both loops, the handler calls; unless an object is split whose tokens do not suffice,
such as `{}`: its value, or its key and its value, are leftovers of the token array.
-/

namespace ThingIfSdk

open ByteText JsonText

variable {σ δ : Type}

/-! ## The length of a path -/

theorem length_indexStr (index : Nat) :
    (indexStr index).length = (Nat.toDigits 10 index).length + 3 := by
  have hopen : (ascii "/[").length = 2 := rfl
  have hclose : (ascii "]").length = 1 := rfl
  simp only [indexStr, List.length_append, List.length_map, hopen, hclose]
  omega

theorem length_toDigits_mono {m n : Nat} (h : m ≤ n) :
    (Nat.toDigits 10 m).length ≤ (Nat.toDigits 10 n).length := by
  have hpos : 0 < (Nat.toDigits 10 n).length := Nat.length_toDigits_pos
  rw [Nat.length_toDigits_le_iff (by decide) hpos]
  exact lt_of_le_of_lt h ((Nat.length_toDigits_le_iff (by decide) hpos).mp (Nat.le_refl _))

/-! ## Handler calls are calls with a key -/

/-- The call was made by an inner loop and has split an object with a key. -/
def ReadCall.isAction (json : JsonApi) (c : ReadCall) : Bool :=
  c.aliasIndex.isSome && c.item.any fun item =>
    ((textTokens json item)[1]?).any fun token => token.kind = .string

section

variable {json : JsonApi} {budget : Nat} (htree : TokenTree json budget)
  (hfields : FieldsByTokens json)
include htree hfields

theorem isAction_of_success {buffer : Bytes} {arrayStr arrayLen : Int} {i k : Nat}
    {stale : Nat → Token} {kv : KeyValue}
    (hregular : (readCall json buffer (some i) arrayStr arrayLen k).IsRegular json)
    (h : getKeyAndValueAtIndex json buffer arrayStr arrayLen k stale = some (.success kv)) :
    (readCall json buffer (some i) arrayStr arrayLen k).isAction json = true := by
  obtain ⟨array, item, key, value, rest, hmember, hitem⟩ :=
    splitMember_of_regular htree hfields hregular h
  rw [ReadCall.isAction, hitem, Option.any_some, hmember.split.object.tokens.tokens_eq,
    List.getElem?_cons_succ, List.getElem?_cons_zero, Option.any_some]
  simp only [hmember.isKey, decide_true, Bool.and_true]
  rfl

end

section

variable {sdk : Sdk σ} {budget : Nat} (htree : TokenTree sdk.json budget)
  (hfields : FieldsByTokens sdk.json) (handlers : Handlers σ δ) (stack : Stack)
include htree hfields

/-- On regular calls the inner loop calls the handler at most once for each object with a
key that it splits. -/
theorem actionTrace_adds (i : Nat) (aliasName actions actionsLen : Int) (fuel j : Nat)
    (s : CommandState σ δ) :
    let t := actionTrace sdk handlers stack i aliasName actions actionsLen fuel j s
    (∀ c ∈ t.1, c.IsRegular sdk.json) →
      ∃ es, s.machine.kii.Adds t.2.2.machine.kii es ∧
        (handlerCalls es).length ≤ t.1.countP (ReadCall.isAction sdk.json) := by
  induction fuel generalizing j s with
  | zero => exact fun _ => ⟨[], .refl _, Nat.zero_le _⟩
  | succ fuel ih =>
      simp only [actionTrace]
      cases hread : getKeyAndValueAtIndex sdk.json s.buffer actions actionsLen j
        (stack.tokens i (some j)) with
      | none => exact fun _ => ⟨[], .refl _, Nat.zero_le _⟩
      | some answer =>
          cases answer with
          | fail => exact fun _ => ⟨[], .refl _, Nat.zero_le _⟩
          | finish => exact fun _ => ⟨[], .refl _, Nat.zero_le _⟩
          | success kv =>
              simp only
              obtain ⟨hsome, hnone⟩ := runAction_eq sdk handlers stack i j s.buffer aliasName kv
                s.machine
              cases htexts : actionTexts s.buffer aliasName kv with
              | none =>
                  obtain ⟨buffer', hrun⟩ := hnone htexts
                  rw [hrun]
                  exact fun _ => ⟨[], .refl _, Nat.zero_le _⟩
              | some texts =>
                  obtain ⟨a, n, v⟩ := texts
                  rw [hsome a n v htexts]
                  obtain ⟨es, hadd, happend⟩ :=
                    performAction_adds sdk handlers stack i j a n v s.machine
                  -- an action is one handler call, whatever becomes of its report
                  have hcalls : (handlerCalls (.action a n v
                      (callHandler handlers stack i j a n v s.machine.device).1 :: es)).length =
                        1 := by
                    rw [← List.singleton_append, handlerCalls_append,
                      handlerCalls_of_silent fun e he => isSilent_of_isAppend (happend e he)]
                    rfl
                  simp only
                  by_cases hf : (performAction sdk handlers stack i j a n v s.machine).1 = true
                  · simp only [hf, if_true]
                    intro hregular
                    have haction := isAction_of_success htree hfields
                      (hregular _ List.mem_cons_self) hread
                    refine ⟨_, hadd, ?_⟩
                    rw [hcalls, List.countP_cons_of_pos haction]
                    omega
                  · simp only [hf, Bool.false_eq_true, if_false]
                    intro hregular
                    have haction := isAction_of_success htree hfields
                      (hregular _ List.mem_cons_self) hread
                    obtain ⟨es', hadd', hle⟩ := ih (j + 1)
                      ⟨(performAction sdk handlers stack i j a n v s.machine).2, s.buffer⟩
                      fun c hc => hregular c (List.mem_cons_of_mem _ hc)
                    refine ⟨_, hadd.trans hadd', ?_⟩
                    rw [handlerCalls_append, List.length_append, hcalls,
                      List.countP_cons_of_pos haction]
                    omega

/-- So do both loops together. -/
theorem aliasTrace_adds (aliasActionsStr aliasActionsLen : Int) (innerFuel fuel i : Nat)
    (s : CommandState σ δ) :
    let t := aliasTrace sdk handlers stack aliasActionsStr aliasActionsLen innerFuel fuel i s
    (∀ c ∈ t.1, c.IsRegular sdk.json) →
      ∃ es, s.machine.kii.Adds t.2.2.machine.kii es ∧
        (handlerCalls es).length ≤ t.1.countP (ReadCall.isAction sdk.json) := by
  induction fuel generalizing i s with
  | zero => exact fun _ => ⟨[], .refl _, Nat.zero_le _⟩
  | succ fuel ih =>
      simp only [aliasTrace]
      cases hread : getKeyAndValueAtIndex sdk.json s.buffer aliasActionsStr aliasActionsLen i
        (stack.tokens i none) with
      | none => exact fun _ => ⟨[], .refl _, Nat.zero_le _⟩
      | some answer =>
          cases answer with
          | fail => exact fun _ => ⟨[], .refl _, Nat.zero_le _⟩
          | finish => exact fun _ => ⟨[], .refl _, Nat.zero_le _⟩
          | success kv =>
              simp only
              cases peek? s.buffer (kv.key + kv.keyLen) with
              | none => exact fun _ => ⟨[], .refl _, Nat.zero_le _⟩
              | some aliasNameSwap =>
                  simp only
                  have hinner := actionTrace_adds htree hfields handlers stack i kv.key kv.value
                    kv.valueLen innerFuel 0
                    { s with buffer := poke s.buffer (kv.key + kv.keyLen) 0 }
                  -- the call of the outer loop is none of an action
                  have houter : (readCall sdk.json s.buffer none aliasActionsStr aliasActionsLen
                      i).isAction sdk.json = false := rfl
                  generalize actionTrace sdk handlers stack i kv.key kv.value kv.valueLen innerFuel
                    0 { s with buffer := poke s.buffer (kv.key + kv.keyLen) 0 } = t at hinner ⊢
                  obtain ⟨calls, flow, s'⟩ := t
                  simp only at hinner
                  cases flow with
                  | finished =>
                      intro hregular
                      simp only at hregular
                      obtain ⟨es, hadd, hle⟩ := hinner fun c hc =>
                        hregular c (List.mem_cons_of_mem _ (List.mem_append_left _ hc))
                      obtain ⟨es', hadd', hle'⟩ := ih (i + 1)
                        { s' with buffer := poke s'.buffer (kv.key + kv.keyLen) aliasNameSwap }
                        fun c hc => hregular c (List.mem_cons_of_mem _ (List.mem_append_right _ hc))
                      refine ⟨_, hadd.trans hadd', ?_⟩
                      rw [handlerCalls_append, List.length_append]
                      simp only [List.countP_cons, houter, Bool.false_eq_true, if_false,
                        Nat.add_zero, List.countP_append]
                      omega
                  | returned | undefined | outOfFuel =>
                      intro hregular
                      obtain ⟨es, hadd, hle⟩ := hinner fun c hc =>
                        hregular c (List.mem_cons_of_mem _ hc)
                      refine ⟨es, hadd, ?_⟩
                      simp only [List.countP_cons, houter, Bool.false_eq_true, if_false,
                        Nat.add_zero]
                      exact hle

end

/-! ## Leftovers that lead out of the message -/

/-- Tokens of strings that stand behind a message. -/
def strayTokens (payload : Bytes) : Nat → Option Nat → Nat → Token :=
  fun _ _ _ => ⟨.string, (payload.length + 1 : Nat), (payload.length + 1 : Nat)⟩

/-- The automatic arrays, with such tokens in the token arrays. -/
def Stack.stray (stack : Stack) (payload : Bytes) : Stack :=
  { stack with tokens := strayTokens payload }

theorem runAction_outside (sdk : Sdk σ) (handlers : Handlers σ δ) (stack : Stack) (i j : Nat)
    (aliasName : Int) {kv : KeyValue} {s : CommandState σ δ}
    (h : peek? s.buffer (kv.value + kv.valueLen) = none) :
    runAction sdk handlers stack i j aliasName kv s = (.undefined, s) := by
  unfold runAction
  rw [h]
  cases peek? s.buffer (kv.key + kv.keyLen) <;> rfl

section

variable {sdk : Sdk σ} {budget : Nat} (htree : TokenTree sdk.json budget)
  (hfields : FieldsByTokens sdk.json) (handlers : Handlers σ δ) (stack : Stack)
  {payload buffer : Bytes}

include htree hfields in
/-- On an irregular call the value that is found lies behind the message. -/
theorem answer_stray (payload : Bytes) {aliasIndex : Option Nat} {arrayStr arrayLen : Int} {k : Nat}
    (h : ¬ (readCall sdk.json buffer aliasIndex arrayStr arrayLen k).IsRegular sdk.json)
    (i : Nat) (j : Option Nat) :
    getKeyAndValueAtIndex sdk.json buffer arrayStr arrayLen k (strayTokens payload i j) = none ∨
      ∃ kv, getKeyAndValueAtIndex sdk.json buffer arrayStr arrayLen k (strayTokens payload i j) =
        some (.success kv) ∧ (payload.length : Int) < kv.value ∧ kv.valueLen = 0 := by
  by_cases harray : (readCall sdk.json buffer aliasIndex arrayStr arrayLen k).array = none
  · left
    have harray' : slice? buffer arrayStr arrayLen = none := harray
    unfold getKeyAndValueAtIndex
    simp only [harray']
  · right
    obtain ⟨item, hitem, hnot⟩ : ∃ item, (readCall sdk.json buffer aliasIndex arrayStr arrayLen
        k).item = some item ∧ ¬ TokensSuffice sdk.json item := by
      by_contra hnone
      exact h ⟨harray, fun item hitem => by_contra fun hnot => hnone ⟨item, hitem, hnot⟩⟩
    obtain ⟨array, inner, hsplit⟩ := splitObject_of_item htree hfields hitem
    rw [hsplit.object.tokens.suffice_iff htree.toTokensWritten, Decisive, not_or, not_exists]
      at hnot
    obtain ⟨hkey, hlen⟩ := hnot
    obtain ⟨h0, hbase⟩ := hsplit.behind
    -- the value at least is a leftover
    have hstale : inner[1]? = none := List.getElem?_eq_none (by omega)
    refine ⟨_, (hsplit.success_iff htree).mpr ⟨?_, rfl⟩, ?_, ?_⟩
    · cases hfirst : inner[0]? with
      | none => rfl
      | some key => exact by_contra fun hkind => hkey key ⟨hfirst, hkind⟩
    · rw [hstale]
      simp only [KeyValue.ofTokens, Option.getD_none, strayTokens]
      omega
    · rw [hstale]
      simp only [KeyValue.ofTokens, Option.getD_none, strayTokens]
      omega

include htree hfields in
/-- The inner loop does not depend on the leftovers, or comes to an irregular call,
where they can lead out of the message. -/
theorem actionTrace_stray (hlen : buffer.length = payload.length) (i : Nat)
    (aliasName actions actionsLen : Int) (fuel j : Nat) (m : Machine σ δ) :
    let t := actionTrace sdk handlers stack i aliasName actions actionsLen fuel j
      { machine := m, buffer := buffer }
    let t' := actionTrace sdk handlers (stack.stray payload) i aliasName actions actionsLen fuel j
      { machine := m, buffer := buffer }
    ((∀ c ∈ t.1, c.IsRegular sdk.json) ∧ t' = t) ∨ t'.2.1 = .undefined := by
  induction fuel generalizing j m with
  | zero => exact .inl ⟨by simp [actionTrace], rfl⟩
  | succ fuel ih =>
      by_cases hregular :
          (readCall sdk.json buffer (some i) actions actionsLen j).IsRegular sdk.json
      · obtain ⟨answer, -, hanswer⟩ := answer_of_regular htree hfields hregular
        simp only [actionTrace, hanswer]
        cases answer with
        | none => exact .inl ⟨by simpa using hregular, rfl⟩
        | some answer =>
            cases answer with
            | fail => exact .inl ⟨by simpa using hregular, rfl⟩
            | finish => exact .inl ⟨by simpa using hregular, rfl⟩
            | success kv =>
                simp only
                -- an action is not run on the token array
                have hsame : runAction sdk handlers (stack.stray payload) i j aliasName kv
                    { machine := m, buffer := buffer } =
                    runAction sdk handlers stack i j aliasName kv
                      { machine := m, buffer := buffer } := rfl
                rw [hsame]
                rcases hrun : runAction sdk handlers stack i j aliasName kv
                  { machine := m, buffer := buffer } with ⟨flow, s'⟩
                cases flow with
                | finished =>
                    have hbuffer := runAction_buffer hrun
                    obtain ⟨m', buffer'⟩ := s'
                    simp only at hbuffer
                    subst hbuffer
                    rcases ih (j + 1) m' with ⟨hall, heq⟩ | hundefined
                    · refine .inl ⟨?_, ?_⟩
                      · intro c hc
                        rcases List.mem_cons.mp hc with rfl | hc
                        · exact hregular
                        · exact hall c hc
                      · simp only [heq]
                    · exact .inr hundefined
                | returned | undefined | outOfFuel => exact .inl ⟨by simpa using hregular, rfl⟩
      · right
        rcases answer_stray htree hfields payload hregular i (some j) with
          hnone | ⟨kv, hkv, hvalue, hzero⟩
        · simp only [actionTrace, Stack.stray, hnone]
        · have hpeek : peek? buffer (kv.value + kv.valueLen) = none := by
            unfold peek?
            rw [if_pos (by omega), List.getElem?_eq_none (by omega)]
          have hrun : runAction sdk handlers (stack.stray payload) i j aliasName kv
              { machine := m, buffer := buffer } =
                (.undefined, { machine := m, buffer := buffer }) :=
            runAction_outside sdk handlers _ i j aliasName hpeek
          simp only [Stack.stray] at hrun
          simp only [actionTrace, Stack.stray, hkv, hrun]

include htree hfields in
/-- So it is with both loops. -/
theorem aliasTrace_stray (aliasActionsStr aliasActionsLen : Int) {innerFuel : Nat}
    (hinnerFuel : 0 < innerFuel) (fuel i : Nat) (m : Machine σ δ) :
    let t := aliasTrace sdk handlers stack aliasActionsStr aliasActionsLen innerFuel fuel i
      { machine := m, buffer := payload }
    let t' := aliasTrace sdk handlers (stack.stray payload) aliasActionsStr aliasActionsLen
      innerFuel fuel i { machine := m, buffer := payload }
    ((∀ c ∈ t.1, c.IsRegular sdk.json) ∧ t' = t) ∨ t'.2.1 = .undefined := by
  induction fuel generalizing i m with
  | zero => exact .inl ⟨by simp [aliasTrace], rfl⟩
  | succ fuel ih =>
      by_cases hregular :
          (readCall sdk.json payload none aliasActionsStr aliasActionsLen i).IsRegular sdk.json
      · obtain ⟨answer, -, hanswer⟩ := answer_of_regular htree hfields hregular
        simp only [aliasTrace, hanswer]
        cases answer with
        | none => exact .inl ⟨by simpa using hregular, rfl⟩
        | some answer =>
            cases answer with
            | fail => exact .inl ⟨by simpa using hregular, rfl⟩
            | finish => exact .inl ⟨by simpa using hregular, rfl⟩
            | success kv =>
                simp only
                cases hpeek : peek? payload (kv.key + kv.keyLen) with
                | none => exact .inl ⟨by simpa using hregular, rfl⟩
                | some aliasNameSwap =>
                    simp only
                    have hlen : (poke payload (kv.key + kv.keyLen) 0).length = payload.length :=
                      length_poke _ _ _
                    obtain ⟨-, -, -, -, hbuffer⟩ := actionTrace_spec sdk handlers stack i kv.key
                      kv.value kv.valueLen (poke payload (kv.key + kv.keyLen) 0) innerFuel 0 m
                    -- either the inner loop is the same too, or it comes to something undefined
                    rcases actionTrace_stray htree hfields handlers stack hlen i kv.key kv.value
                      kv.valueLen innerFuel 0 m with ⟨hinner, heq⟩ | hundefined
                    · rw [heq]
                      generalize actionTrace sdk handlers stack i kv.key kv.value kv.valueLen
                        innerFuel 0 { machine := m, buffer := poke payload (kv.key + kv.keyLen) 0 }
                        = t at hinner hbuffer ⊢
                      obtain ⟨calls, flow, s'⟩ := t
                      have hfirst : ∀ c ∈ readCall sdk.json payload none aliasActionsStr
                          aliasActionsLen i :: calls, c.IsRegular sdk.json := by
                        intro c hc
                        rcases List.mem_cons.mp hc with rfl | hc
                        · exact hregular
                        · exact hinner c hc
                      cases flow with
                      | finished =>
                          obtain ⟨m', buffer'⟩ := s'
                          have hbuffer' : buffer' = poke payload (kv.key + kv.keyLen) 0 :=
                            hbuffer rfl
                          subst hbuffer'
                          simp only [poke_poke_restore hpeek]
                          rcases ih (i + 1) m' with ⟨hall, heq'⟩ | hundefined
                          · refine .inl ⟨?_, ?_⟩
                            · intro c hc
                              rw [← List.cons_append, List.mem_append] at hc
                              rcases hc with hc | hc
                              · exact hfirst c hc
                              · exact hall c hc
                            · simp only [heq']
                          · exact .inr hundefined
                      | returned | undefined | outOfFuel => exact .inl ⟨hfirst, rfl⟩
                    · right
                      generalize actionTrace sdk handlers (stack.stray payload) i kv.key kv.value
                        kv.valueLen innerFuel 0
                        { machine := m, buffer := poke payload (kv.key + kv.keyLen) 0 } = t
                        at hundefined ⊢
                      obtain ⟨calls, flow, s'⟩ := t
                      simp only at hundefined
                      subst hundefined
                      rfl
      · right
        rcases answer_stray htree hfields payload hregular i none with
          hnone | ⟨kv, hkv, hvalue, hzero⟩
        · simp only [aliasTrace, Stack.stray, hnone]
        · -- there is no array for the inner loop to read
          obtain ⟨innerFuel, rfl⟩ := Nat.exists_eq_succ_of_ne_zero (Nat.ne_of_gt hinnerFuel)
          have hslice : ∀ b, slice? (poke payload (kv.key + kv.keyLen) b) kv.value kv.valueLen =
              none := by
            intro b
            unfold slice?
            rw [if_neg]
            rw [length_poke]
            omega
          simp only [aliasTrace, Stack.stray, hkv]
          cases peek? payload (kv.key + kv.keyLen) with
          | none => rfl
          | some b =>
              simp only [actionTrace, getKeyAndValueAtIndex, hslice]

end

/-! ## Runs on regular calls -/

section

variable {sdk : Sdk σ} {budget : Nat} (htree : TokenTree sdk.json budget)
  (hfields : FieldsByTokens sdk.json) (handlers : Handlers σ δ) (stack : Stack)
  {payload buffer : Bytes}
include htree hfields

/-- On regular calls the inner loop comes to nothing undefined. -/
theorem actionTrace_defined (i : Nat) {aliasName actions : Int} (h0 : 0 ≤ aliasName)
    (hle : aliasName ≤ actions) (actionsLen : Int) (fuel j : Nat) (m : Machine σ δ) :
    let t := actionTrace sdk handlers stack i aliasName actions actionsLen fuel j
      { machine := m, buffer := buffer }
    (∀ c ∈ t.1, c.IsRegular sdk.json) → t.2.1 ≠ .undefined := by
  induction fuel generalizing j m with
  | zero => simp [actionTrace]
  | succ fuel ih =>
      simp only [actionTrace]
      cases hread : getKeyAndValueAtIndex sdk.json buffer actions actionsLen j
        (stack.tokens i (some j)) with
      | none =>
          intro hregular
          obtain ⟨answer, hanswer, hall⟩ := answer_of_regular htree hfields
            (hregular _ List.mem_cons_self)
          rw [hall] at hread
          exact absurd hread hanswer
      | some answer =>
          cases answer with
          | fail => simp
          | finish => simp
          | success kv =>
              simp only
              intro hregular
              have hhere : (readCall sdk.json buffer (some i) actions actionsLen j).IsRegular
                  sdk.json := by
                apply hregular
                split <;> exact List.mem_cons_self
              obtain ⟨array, item, key, value, rest, hmember, -⟩ :=
                splitMember_of_regular htree hfields hhere hread
              -- both NULs lie in the message, and all three strings end at one
              obtain ⟨⟨a, n, v⟩, htexts⟩ := Option.ne_none_iff_exists'.mp
                (hmember.actionTexts_ne_none h0 hle)
              obtain ⟨hsome, -⟩ := runAction_eq sdk handlers stack i j buffer aliasName kv m
              rw [hsome a n v htexts] at hregular ⊢
              simp only at hregular ⊢
              by_cases hf : (performAction sdk handlers stack i j a n v m).1 = true
              · simp [hf]
              · simp only [hf, Bool.false_eq_true, if_false] at hregular ⊢
                exact ih (j + 1) _ fun c hc => hregular c (List.mem_cons_of_mem _ hc)

theorem aliasTrace_defined (aliasActionsStr aliasActionsLen : Int) (innerFuel fuel i : Nat)
    (m : Machine σ δ) :
    let t := aliasTrace sdk handlers stack aliasActionsStr aliasActionsLen innerFuel fuel i
      { machine := m, buffer := payload }
    (∀ c ∈ t.1, c.IsRegular sdk.json) → t.2.1 ≠ .undefined := by
  induction fuel generalizing i m with
  | zero => simp [aliasTrace]
  | succ fuel ih =>
      simp only [aliasTrace]
      cases hread : getKeyAndValueAtIndex sdk.json payload aliasActionsStr aliasActionsLen i
        (stack.tokens i none) with
      | none =>
          intro hregular
          obtain ⟨answer, hanswer, hall⟩ := answer_of_regular htree hfields
            (hregular _ List.mem_cons_self)
          rw [hall] at hread
          exact absurd hread hanswer
      | some answer =>
          cases answer with
          | fail => simp
          | finish => simp
          | success kv =>
              simp only
              intro hregular
              have hhere : (readCall sdk.json payload none aliasActionsStr aliasActionsLen
                  i).IsRegular sdk.json := by
                apply hregular
                split
                · exact List.mem_cons_self
                · split <;> exact List.mem_cons_self
              obtain ⟨array, item, key, value, rest, hmember, -⟩ :=
                splitMember_of_regular htree hfields hhere hread
              obtain ⟨swap, hpeek⟩ := Option.isSome_iff_exists.mp hmember.nuls.1
              rw [hpeek] at hregular ⊢
              simp only at hregular ⊢
              -- the name of an alias lies in front of its actions
              obtain ⟨h0, hbase⟩ := hmember.split.behind
              have hwithin := hmember.within
              have hinner : (∀ c ∈ (actionTrace sdk handlers stack i kv.key kv.value kv.valueLen
                  innerFuel 0 { machine := m, buffer := poke payload (kv.key + kv.keyLen) 0 }).1,
                    c.IsRegular sdk.json) →
                  (actionTrace sdk handlers stack i kv.key kv.value kv.valueLen innerFuel 0
                    { machine := m, buffer := poke payload (kv.key + kv.keyLen) 0 }).2.1 ≠
                    .undefined :=
                actionTrace_defined htree hfields handlers stack i
                  (show 0 ≤ kv.key from Int.le_trans (Int.le_trans h0 hbase) hwithin.key_start)
                  (show kv.key ≤ kv.value by
                    have := hwithin.key_len
                    have := hwithin.ordered
                    omega)
                  kv.valueLen innerFuel 0 m
              obtain ⟨-, -, -, -, hbuffer⟩ := actionTrace_spec sdk handlers stack i kv.key kv.value
                kv.valueLen (poke payload (kv.key + kv.keyLen) 0) innerFuel 0 m
              generalize actionTrace sdk handlers stack i kv.key kv.value kv.valueLen innerFuel 0
                { machine := m, buffer := poke payload (kv.key + kv.keyLen) 0 } = t
                at hinner hbuffer hregular ⊢
              obtain ⟨calls, flow, s'⟩ := t
              cases flow with
              | finished =>
                  obtain ⟨m', buffer'⟩ := s'
                  have hbuffer' := hbuffer rfl
                  simp only at hbuffer'
                  subst hbuffer'
                  simp only [poke_poke_restore hpeek] at hregular ⊢
                  exact ih (i + 1) m' fun c hc =>
                    hregular c (List.mem_cons_of_mem _ (List.mem_append_right _ hc))
              | returned => simp
              | undefined =>
                  exact absurd rfl (hinner fun c hc => hregular c (List.mem_cons_of_mem _ hc))
              | outOfFuel => simp

end

/-! ## Counting -/

theorem countP_range'_le {p : Nat → Bool} {count : Nat} (h : ∀ j, p j = true → j < count)
    (n : Nat) : (List.range' 0 n).countP p ≤ count := by
  rw [List.countP_eq_length_filter]
  have hnodup : ((List.range' 0 n).filter p).Nodup := List.Nodup.filter p List.nodup_range'
  have hsub : (List.range' 0 n).filter p ⊆ List.range count := by
    intro j hj
    rw [List.mem_range]
    exact h j (List.mem_filter.mp hj).2
  have hle := (hnodup.subperm hsub).length_le
  rwa [List.length_range] at hle

/-- Two disjoint parts of what is counted. -/
theorem countP_add_countP_le {α : Type} {p q r : α → Bool} (hp : ∀ a, p a = true → r a = true)
    (hq : ∀ a, q a = true → r a = true) (hpq : ∀ a, p a = true → q a = false) (l : List α) :
    l.countP p + l.countP q ≤ l.countP r := by
  induction l with
  | nil => exact Nat.le_refl 0
  | cons a l ih =>
      simp only [List.countP_cons]
      cases hpa : p a with
      | true =>
          rw [hp a hpa, hpq a hpa]
          simp only [if_true, Bool.false_eq_true, if_false]
          omega
      | false =>
          cases hqa : q a with
          | true =>
              rw [hq a hqa]
              simp only [if_true, Bool.false_eq_true, if_false]
              omega
          | false =>
              simp only [Bool.false_eq_true, if_false]
              omega

/-- What is charged to tokens that start in spans one behind the other comes to no more
than the tokens in front of the end of the last. -/
theorem sum_le_countP {w : Nat → Nat} (lo hi : Nat → Int) {l : List Token} (n : Nat) (b : Int)
    (hw : ∀ k < n, w k ≠ 0 →
      w k ≤ l.countP fun t => decide (lo k ≤ t.start ∧ t.start < hi k))
    (horder : ∀ j k, j < k → k < n → w j ≠ 0 → w k ≠ 0 → hi j ≤ lo k)
    (hb : ∀ k < n, w k ≠ 0 → hi k ≤ b) :
    ((List.range n).map w).sum ≤ l.countP fun t => decide (t.start < b) := by
  induction n generalizing b with
  | zero => exact Nat.zero_le _
  | succ n ih =>
      have hw' : ∀ k < n, w k ≠ 0 →
          w k ≤ l.countP fun t => decide (lo k ≤ t.start ∧ t.start < hi k) :=
        fun k hk => hw k (by omega)
      have horder' : ∀ j k, j < k → k < n → w j ≠ 0 → w k ≠ 0 → hi j ≤ lo k :=
        fun j k hjk hk => horder j k hjk (by omega)
      rw [List.range_succ, List.map_append, List.sum_append, List.map_singleton,
        List.sum_singleton]
      by_cases hzero : w n = 0
      · rw [hzero, Nat.add_zero]
        exact ih b hw' horder' fun k hk => hb k (by omega)
      · have hbefore := ih (lo n) hw' horder'
          fun k hk hne => horder k n hk (Nat.lt_succ_self n) hne hzero
        have hlast := hw n (Nat.lt_succ_self n) hzero
        have hend := hb n (Nat.lt_succ_self n) hzero
        -- a charged span is not empty
        have hlt : lo n < hi n := by
          by_contra hge
          apply hzero
          have hnone : (l.countP fun t => decide (lo n ≤ t.start ∧ t.start < hi n)) = 0 := by
            rw [List.countP_eq_zero]
            intro t _ ht
            rw [decide_eq_true_eq] at ht
            omega
          omega
        calc ((List.range n).map w).sum + w n
            ≤ (l.countP fun t => decide (t.start < lo n)) +
                l.countP fun t => decide (lo n ≤ t.start ∧ t.start < hi n) :=
              Nat.add_le_add hbefore hlast
          _ ≤ l.countP fun t => decide (t.start < b) := by
              apply countP_add_countP_le
              · intro t ht
                rw [decide_eq_true_eq] at ht ⊢
                omega
              · intro t ht
                rw [decide_eq_true_eq] at ht ⊢
                omega
              · intro t ht
                rw [decide_eq_true_eq] at ht
                rw [decide_eq_false_iff_not]
                omega

/-- Where only one entry contributes. -/
theorem flatMap_single {α β : Type} {f : α → List β} {l : List α} {a : α} (hl : l.Nodup)
    (ha : a ∈ l) (hf : ∀ b ∈ l, b ≠ a → f b = []) : l.flatMap f = f a := by
  induction l with
  | nil => cases ha
  | cons x l ih =>
      rw [List.nodup_cons] at hl
      rw [List.flatMap_cons]
      rcases List.mem_cons.mp ha with rfl | hmem
      · have hnil : l.flatMap f = [] := by
          rw [List.flatMap_eq_nil_iff]
          intro b hb
          refine hf b (List.mem_cons_of_mem _ hb) ?_
          rintro rfl
          exact hl.1 hb
        rw [hnil, List.append_nil]
      · have hx : f x = [] := by
          refine hf x List.mem_cons_self ?_
          rintro rfl
          exact hl.1 hmem
        rw [hx, List.nil_append]
        exact ih hl.2 hmem fun b hb => hf b (List.mem_cons_of_mem _ hb)

/-! ## The number of calls -/

section

variable {json : JsonApi} {budget : Nat} (htree : TokenTree json budget)
  (hfields : FieldsByTokens json) {buffer : Bytes} {arrayStr arrayLen : Int}
include hfields

/-- A call succeeds only at the index of an element. -/
theorem index_lt_of_success {k : Nat} {stale : Nat → Token} {kv : KeyValue}
    (h : getKeyAndValueAtIndex json buffer arrayStr arrayLen k stale = some (.success kv)) :
    ∃ array, slice? buffer arrayStr arrayLen = some array ∧ k < elementCount json array := by
  obtain ⟨array, harray, hfound⟩ := found_of_success h
  exact ⟨array, harray, hfields.index array k hfound⟩

/-- A loop makes one call more than there are elements, at most. -/
theorem CallsFrom.length_le {tokens : Nat → Nat → Token} {n : Nat}
    (h : CallsFrom json buffer arrayStr arrayLen tokens 0 n) {array : Bytes}
    (harray : slice? buffer arrayStr arrayLen = some array) :
    n ≤ elementCount json array + 1 := by
  by_cases hn : n ≤ 1
  · omega
  · obtain ⟨kv, hkv⟩ := h.before (n - 2) (Nat.zero_le _) (by omega)
    obtain ⟨array', harray', hlt⟩ := index_lt_of_success hfields hkv
    rw [harray] at harray'
    cases harray'
    omega

include htree

omit hfields in
/-- An array with an element has fewer of them than the budget. -/
theorem elementCount_lt {array : Bytes} {k : Nat} (h : k < elementCount json array) :
    elementCount json array < budget := by
  have hne : textTokens json array ≠ [] := by
    intro hnil
    rw [elementCount, hnil] at h
    exact absurd h (Nat.not_lt_zero k)
  have hlt := countElements_lt hne
  have hfits := htree.fits array
  unfold elementCount
  omega

/-- A loop makes no more calls than there are tokens. -/
theorem CallsFrom.length_le_budget {tokens : Nat → Nat → Token} {n : Nat}
    (h : CallsFrom json buffer arrayStr arrayLen tokens 0 n) (hpos : 0 < budget) : n ≤ budget := by
  by_cases hn : n ≤ 1
  · omega
  · obtain ⟨kv, hkv⟩ := h.before (n - 2) (Nat.zero_le _) (by omega)
    obtain ⟨array, -, hlt⟩ := index_lt_of_success hfields hkv
    have hless := elementCount_lt htree hlt
    omega

/-- So the rounds of a loop suffice when they are as many as the tokens. -/
theorem not_all_split {tokens : Nat → Nat → Token} {fuel : Nat} (hfuel : budget ≤ fuel)
    (hpos : 0 < budget) :
    ¬ ∀ k, 0 ≤ k → k < 0 + fuel → SplitsAt json buffer arrayStr arrayLen tokens k := by
  intro hall
  obtain ⟨kv, hkv⟩ := hall (fuel - 1) (Nat.zero_le _) (by omega)
  obtain ⟨array, -, hlt⟩ := index_lt_of_success hfields hkv
  have hless := elementCount_lt htree hlt
  omega

end

/-! ## The number of actions -/

section

variable {json : JsonApi} {budget : Nat} (htree : TokenTree json budget)
  (hfields : FieldsByTokens json) {payload : Bytes} {arrayStr arrayLen : Int} {i : Nat}
include htree hfields

/-- What the inner loop of an alias splits are elements of the value of the alias, which
has fewer than the alias has tokens. -/
theorem SplitMember.countP_le {kv : KeyValue} {array item : Bytes} {key value : Token}
    {rest : List Token}
    (h : SplitMember json payload arrayStr arrayLen i kv array item key value rest) (n : Nat) :
    ((List.range' 0 n).map (readCall json (poke payload (kv.key + kv.keyLen) 0) (some i)
      kv.value kv.valueLen)).countP (ReadCall.isAction json) ≤ (textTokens json item).length := by
  obtain ⟨t, hspan, htext⟩ := h.split.value_text htree h.isKey
  simp only [← h.kv_eq] at htext
  have hmem : value ∈ textTokens json item := by
    rw [h.split.object.tokens.tokens_eq]
    exact List.mem_cons_of_mem _ (List.mem_cons_of_mem _ List.mem_cons_self)
  -- an action is an element of the text with a key
  have haction : ∀ j, (readCall json (poke payload (kv.key + kv.keyLen) 0) (some i) kv.value
      kv.valueLen j).isAction json = true → j < elementCount json t ∧
        ¬ ∀ a ∈ textTokens json t, a.kind ≠ .string := by
    intro j hj
    rw [ReadCall.isAction, Bool.and_eq_true] at hj
    obtain ⟨u, hu, hkey⟩ := (Option.any_eq_true _ _).mp hj.2
    obtain ⟨array', inner, hsplit⟩ := splitObject_of_item htree hfields hu
    obtain rfl : t = array' := Option.some.inj (htext.symm.trans hsplit.array_eq)
    refine ⟨hfields.index t j hsplit.found, fun hnone => ?_⟩
    rw [hsplit.object.tokens.tokens_eq, List.getElem?_cons_succ] at hkey
    obtain ⟨a, ha, hkind⟩ := (Option.any_eq_true _ _).mp hkey
    exact hsplit.object.no_string hnone a (List.mem_of_getElem? ha) (of_decide_eq_true hkind)
  rw [List.countP_map]
  have hfew : ∀ count, (∀ j, (readCall json (poke payload (kv.key + kv.keyLen) 0) (some i)
      kv.value kv.valueLen j).isAction json = true → j < count) →
        (List.range' 0 n).countP (ReadCall.isAction json ∘ readCall json
          (poke payload (kv.key + kv.keyLen) 0) (some i) kv.value kv.valueLen) ≤ count :=
    fun count hcount => countP_range'_le hcount n
  have hbracketed : Bracketed value → elementCount json t ≤ (textTokens json item).length := by
    intro hvalue
    obtain ⟨p, hp⟩ := List.getElem?_of_mem hmem
    obtain ⟨⟨inner, hinner⟩, hblock⟩ := htree.part item p value t hp hvalue hspan
    have hle := hblock.length_le
    rw [List.length_map, List.length_drop] at hle
    have hlt := countElements_lt (l := textTokens json t)
      (by rw [hinner.tokens_eq]; exact List.cons_ne_nil _ _)
    unfold elementCount
    omega
  cases hkind : value.kind with
  | undefined => exact absurd hkind (htree.known item value hmem)
  | object => exact Nat.le_trans (hfew _ fun j hj => (haction j hj).1) (hbracketed (.inl hkind))
  | array => exact Nat.le_trans (hfew _ fun j hj => (haction j hj).1) (hbracketed (.inr hkind))
  | string =>
      have hnone := htree.escaped item value t hmem hkind hspan
      exact Nat.le_trans (hfew 0 fun j hj => absurd hnone (haction j hj).2) (Nat.zero_le _)
  | primitive =>
      have hbare := htree.bare item value t hmem hkind hspan
      refine Nat.le_trans (hfew 0 fun j hj => absurd (fun a ha => ?_) (haction j hj).2)
        (Nat.zero_le _)
      rw [hbare a ha]
      exact nofun

end

section

variable {sdk : Sdk σ} {handlers : Handlers σ δ} {stack : Stack} {payload : Bytes}
  {aliasActionsStr aliasActionsLen : Int} {innerFuel : Nat}

/-- The calls of both loops, by the alias they are made for. -/
theorem filter_aliasTrace {n : Nat} {inner : Nat → List ReadCall}
    (hinner : ∀ k, 0 ≤ k → k < 0 + n → inner k = [] ∨ ∃ kv m', RunsInner sdk handlers stack payload
      aliasActionsStr aliasActionsLen innerFuel k kv m' (inner k)) :
    let calls := (List.range' 0 n).flatMap fun k =>
      readCall sdk.json payload none aliasActionsStr aliasActionsLen k :: inner k
    (calls.filter fun x => x.aliasIndex = none) =
        (List.range' 0 n).map (readCall sdk.json payload none aliasActionsStr aliasActionsLen) ∧
      ∀ k < n, (calls.filter fun x => x.aliasIndex = some k) = inner k := by
  intro calls
  -- The calls of an inner loop carry the index of its alias, and no others do.
  have halias : ∀ k, 0 ≤ k → k < 0 + n → ∀ c ∈ inner k, c.aliasIndex = some k := by
    intro k hk hlt c hc
    rcases hinner k hk hlt with hnil | ⟨kv, m', hrun⟩
    · rw [hnil] at hc
      cases hc
    · obtain ⟨n', hcalls, -⟩ := actionTrace_spec sdk handlers stack k kv.key kv.value kv.valueLen
        (poke payload (kv.key + kv.keyLen) 0) innerFuel 0 m'
      rw [hrun.calls_eq, innerTrace, hcalls, List.mem_map] at hc
      obtain ⟨j, -, rfl⟩ := hc
      rfl
  constructor
  · rw [List.filter_flatMap, List.map_eq_flatMap]
    apply List.flatMap_congr
    intro k hk
    rw [List.mem_range'_1] at hk
    rw [List.filter_cons_of_pos (by exact decide_eq_true rfl)]
    congr 1
    rw [List.filter_eq_nil_iff]
    intro c hc
    rw [halias k hk.1 hk.2 c hc]
    simp
  · intro k hk
    have hmem : k ∈ List.range' 0 n := List.mem_range'_1.mpr ⟨Nat.zero_le _, by omega⟩
    rw [List.filter_flatMap, flatMap_single List.nodup_range' hmem]
    · rw [List.filter_cons_of_neg (by exact of_decide_eq_false rfl), List.filter_eq_self]
      intro c hc
      exact decide_eq_true (halias k (Nat.zero_le _) (by omega) c hc)
    · intro k' hk' hne
      rw [List.mem_range'_1] at hk'
      rw [List.filter_cons_of_neg (by exact of_decide_eq_false rfl), List.filter_eq_nil_iff]
      intro c hc
      rw [halias k' hk'.1 hk'.2 c hc]
      simpa using hne

/-- Where the calls of the outer loop are regular, the inner loops together split no more
actions than the message has tokens. -/
theorem countP_aliasTrace_le {budget : Nat} (htree : TokenTree sdk.json budget)
    (hfields : FieldsByTokens sdk.json) (fuel : Nat) (m : Machine σ δ) :
    let t := aliasTrace sdk handlers stack aliasActionsStr aliasActionsLen innerFuel fuel 0
      { machine := m, buffer := payload }
    (∀ c ∈ t.1, c.IsRegular sdk.json) → t.1.countP (ReadCall.isAction sdk.json) ≤ budget := by
  intro t hregular
  obtain ⟨n, inner, htrace, -, hinner, -⟩ := aliasTrace_spec sdk handlers stack payload
    aliasActionsStr aliasActionsLen innerFuel fuel 0 m
  have hcalls : t.1 = (List.range' 0 n).flatMap fun k =>
      readCall sdk.json payload none aliasActionsStr aliasActionsLen k :: inner k := htrace
  have houter : ∀ k < n, (readCall sdk.json payload none aliasActionsStr aliasActionsLen
      k).IsRegular sdk.json := by
    intro k hk
    apply hregular
    rw [hcalls, List.mem_flatMap]
    exact ⟨k, List.mem_range'_1.mpr ⟨Nat.zero_le _, by omega⟩, List.mem_cons_self⟩
  cases harray : slice? payload aliasActionsStr aliasActionsLen with
  | none =>
      -- a regular call reads a text
      have hzero : n = 0 := by
        by_contra hne
        exact (houter 0 (by omega)).inside harray
      rw [hcalls, hzero]
      exact Nat.zero_le _
  | some array =>
      -- the alias of an inner loop with actions
      have halias : ∀ k < n, (inner k).countP (ReadCall.isAction sdk.json) ≠ 0 →
          ∃ item inner', SplitObject sdk.json payload aliasActionsStr aliasActionsLen k array item
            inner' ∧ (inner k).countP (ReadCall.isAction sdk.json) ≤
              (textTokens sdk.json item).length := by
        intro k hk hne
        rcases hinner k (Nat.zero_le _) (by omega) with hnil | ⟨kv, m', hrun⟩
        · rw [hnil] at hne
          exact absurd rfl hne
        · obtain ⟨array', item, key, value, rest, hmember, -⟩ :=
            splitMember_of_regular htree hfields (houter k hk) hrun.split
          obtain rfl : array = array' :=
            Option.some.inj (harray.symm.trans hmember.split.array_eq)
          obtain ⟨n', hlist, -⟩ := actionTrace_spec sdk handlers stack k kv.key kv.value
            kv.valueLen (poke payload (kv.key + kv.keyLen) 0) innerFuel 0 m'
          refine ⟨item, _, hmember.split, ?_⟩
          rw [hrun.calls_eq, innerTrace, hlist]
          exact hmember.countP_le htree hfields n'
      calc t.1.countP (ReadCall.isAction sdk.json)
          = ((List.range n).map fun k => (inner k).countP (ReadCall.isAction sdk.json)).sum := by
            rw [hcalls, List.countP_flatMap, ← List.range_eq_range']
            congr 1
        _ ≤ (textTokens sdk.json array).countP fun token : Token =>
            decide (token.start < (array.length : Nat)) := by
            refine sum_le_countP (fun k => (objectToken sdk.json array k).start)
              (fun k => (objectToken sdk.json array k).stop) n _ ?_ ?_ ?_
            · intro k hk hne
              obtain ⟨item, inner', hsplit, hle⟩ := halias k hk hne
              obtain ⟨p, hp, -⟩ := hsplit.object.block
              exact Nat.le_trans hle (htree.part_le hp (.inl rfl) hsplit.object.span)
            · intro j k hjk hk hnej hnek
              obtain ⟨_, _, hsplitj, -⟩ := halias j (by omega) hnej
              obtain ⟨_, _, hsplitk, -⟩ := halias k hk hnek
              exact Int.ofNat_le.mpr (hfields.inOrder array j k hjk hsplitj.found hsplitk.found)
            · intro k hk hne
              obtain ⟨_, _, hsplit, -⟩ := halias k hk hne
              have hbound := (slice?_bounds hsplit.object.span).2.2
              omega
        _ ≤ (textTokens sdk.json array).length := List.countP_le_length
        _ ≤ budget := htree.fits array

end

/-! ## The loops end -/

/-- `handle_command` returns; each of its loops makes at most one call more than the
array it reads has elements; the handler is called no more often than the message
has tokens; and every index is below that number, so that its path fits a buffer
for the digits of the number and four bytes more. -/
structure LoopsEnd (sdk : Sdk σ) (handlers : Handlers σ δ) (stack : Stack) (fuel budget : Nat)
    (s : CommandState σ δ) : Prop where
  ends : (handleCommand sdk handlers stack fuel s).1 = .returned
  calls : ∀ c ∈ commandReads sdk handlers stack fuel s, ∀ t, c.array = some t →
    ((commandReads sdk handlers stack fuel s).filter fun x =>
      x.aliasIndex = c.aliasIndex).length ≤ elementCount sdk.json t + 1
  handled : (handlerCalls (newEvents s.machine.kii
    (handleCommand sdk handlers stack fuel s).2.machine.kii)).length ≤ budget
  index : ∀ c ∈ commandReads sdk handlers stack fuel s, c.index < budget
  path : ∀ size, (Nat.toDigits 10 budget).length + 4 ≤ size →
    ∀ c ∈ commandReads sdk handlers stack fuel s, (indexStr c.index).length + 1 ≤ size

section

variable {sdk : Sdk σ} (handlers : Handlers σ δ) (stack : Stack) {payload : Bytes}
  {aliasActionsStr aliasActionsLen : Int}

theorem indexStr_fits {index budget size : Nat} (h : index < budget)
    (hsize : (Nat.toDigits 10 budget).length + 4 ≤ size) : (indexStr index).length + 1 ≤ size := by
  have hle := length_toDigits_mono (Nat.le_of_lt h)
  rw [length_indexStr]
  omega

/-- A run that does not reach the loops returns. -/
theorem handleCommand_returned_of_not_open (hreport : FieldReport sdk.json)
    {s : CommandState σ δ} (h : openCommand sdk s = none) (fuel : Nat) :
    (handleCommand sdk handlers stack fuel s).1 = .returned := by
  unfold openCommand at h
  unfold handleCommand
  simp only at h ⊢
  split
  · rfl
  · rename_i hgo
    rw [if_neg hgo] at h
    split
    · rfl
    · rename_i hpath
      rw [if_neg hpath] at h
      rw [Bool.not_eq_false] at hgo
      obtain ⟨text, htext⟩ :=
        slice?_commandId hreport ((commandGoesOn_iff hreport s.buffer).mp hgo)
      rw [htext] at h ⊢
      simp only at h ⊢
      split
      · rfl
      · rename_i hstart
        rw [if_neg hstart] at h
        unfold dispatchCommand
        simp only
        split
        · rfl
        · rename_i hopen
          rw [if_neg hopen] at h
          cases h

/-- Loops all of whose calls are regular end, within their bounds. -/
theorem aliasTrace_ends {budget : Nat} (htree : TokenTree sdk.json budget)
    (hfields : FieldsByTokens sdk.json) {fuel : Nat} (hfuel : budget ≤ fuel) (hpos : 0 < budget)
    (m : Machine σ δ) :
    let t := aliasTrace sdk handlers stack aliasActionsStr aliasActionsLen fuel fuel 0
      { machine := m, buffer := payload }
    (∀ c ∈ t.1, c.IsRegular sdk.json) →
      (t.2.1 = .finished ∨ t.2.1 = .returned) ∧
      (∀ c ∈ t.1, ∀ text, c.array = some text →
        (t.1.filter fun x => x.aliasIndex = c.aliasIndex).length ≤
          elementCount sdk.json text + 1) ∧
      ∀ c ∈ t.1, c.index < budget := by
  intro t hregular
  have hdefined := aliasTrace_defined htree hfields handlers stack aliasActionsStr aliasActionsLen
    fuel fuel 0 m hregular
  obtain ⟨n, inner, htrace, hfrom, hinner, hout⟩ := aliasTrace_spec sdk handlers stack payload
    aliasActionsStr aliasActionsLen fuel fuel 0 m
  have hcalls : t.1 = (List.range' 0 n).flatMap fun k =>
      readCall sdk.json payload none aliasActionsStr aliasActionsLen k :: inner k := htrace
  obtain ⟨houter, halias⟩ := filter_aliasTrace hinner
  have hnot : t.2.1 ≠ .outOfFuel := by
    intro h
    rcases hout h with ⟨hn, hall⟩ | ⟨k, kv, m', calls, -, hflow⟩
    · rw [hn] at hall
      exact not_all_split htree hfields hfuel hpos hall
    · obtain ⟨n', -, -, hfuel', -⟩ := actionTrace_spec sdk handlers stack k kv.key kv.value
        kv.valueLen (poke payload (kv.key + kv.keyLen) 0) fuel 0 m'
      obtain ⟨hn, hall⟩ := hfuel' hflow
      rw [hn] at hall
      exact not_all_split htree hfields hfuel hpos hall
  -- a call of the outer loop, or of the inner loop of an alias
  have hcases : ∀ c ∈ t.1, (∃ k < n, c = readCall sdk.json payload none aliasActionsStr
      aliasActionsLen k) ∨ ∃ k < n, c ∈ inner k := by
    intro c hc
    rw [hcalls, List.mem_flatMap] at hc
    obtain ⟨k, hk, hc⟩ := hc
    rw [List.mem_range'_1] at hk
    rcases List.mem_cons.mp hc with hc | hc
    · exact .inl ⟨k, by omega, hc⟩
    · exact .inr ⟨k, by omega, hc⟩
  -- the calls of the inner loop of an alias
  have hloop : ∀ k < n, ∀ c ∈ inner k, ∃ n' str len, ∃ buffer,
      inner k = (List.range' 0 n').map (readCall sdk.json buffer (some k) str len) ∧
        CallsFrom sdk.json buffer str len (fun j => stack.tokens k (some j)) 0 n' := by
    intro k hk c hc
    rcases hinner k (Nat.zero_le _) (by omega) with hnil | ⟨kv, m', hrun⟩
    · rw [hnil] at hc
      cases hc
    · obtain ⟨n', hcalls', hfrom', -⟩ := actionTrace_spec sdk handlers stack k kv.key kv.value
        kv.valueLen (poke payload (kv.key + kv.keyLen) 0) fuel 0 m'
      exact ⟨n', kv.value, kv.valueLen, _, hrun.calls_eq.trans hcalls', hfrom'⟩
  refine ⟨?_, ?_, ?_⟩
  · cases hflow : t.2.1 with
    | finished => exact .inl rfl
    | returned => exact .inr rfl
    | undefined => exact absurd hflow hdefined
    | outOfFuel => exact absurd hflow hnot
  · intro c hc text htext
    rw [hcalls]
    rcases hcases c hc with ⟨k, hk, rfl⟩ | ⟨k, hk, hin⟩
    · rw [show (readCall sdk.json payload none aliasActionsStr aliasActionsLen k).aliasIndex = none
        from rfl, houter, List.length_map, List.length_range']
      exact hfrom.length_le hfields htext
    · obtain ⟨n', str, len, buffer, heq, hfrom'⟩ := hloop k hk c hin
      rw [heq, List.mem_map] at hin
      obtain ⟨j, -, rfl⟩ := hin
      rw [show (readCall sdk.json buffer (some k) str len j).aliasIndex = some k from rfl,
        halias k hk, heq, List.length_map, List.length_range']
      exact hfrom'.length_le hfields htext
  · intro c hc
    rcases hcases c hc with ⟨k, hk, rfl⟩ | ⟨k, hk, hin⟩
    · exact Nat.lt_of_lt_of_le hk (hfrom.length_le_budget htree hfields hpos)
    · obtain ⟨n', str, len, buffer, heq, hfrom'⟩ := hloop k hk c hin
      have hle := hfrom'.length_le_budget htree hfields hpos
      rw [heq, List.mem_map] at hin
      obtain ⟨j, hj, rfl⟩ := hin
      rw [List.mem_range'_1] at hj
      show j < budget
      omega

end

/-! ## What leftovers cannot change -/

/-- Token arrays that hold nothing. -/
def blankTokens : Nat → Option Nat → Nat → Token :=
  fun _ _ _ => noToken

section

variable {json : JsonApi} {budget : Nat} (htree : TokenTree json budget)
  (hfields : FieldsByTokens json) {payload : Bytes} {aliasActionsStr aliasActionsLen : Int}
  (hregular : ∀ c, Reached json payload blankTokens aliasActionsStr aliasActionsLen c →
    c.IsRegular json) {tokens : Nat → Option Nat → Nat → Token}
include htree hfields hregular

/-- In an inner loop that blank token arrays lead to. -/
theorem actionsUpTo_blank {i : Nat} {group : KeyValue}
    (hentered : Entered json payload blankTokens aliasActionsStr aliasActionsLen i group) {n : Nat}
    (h : ActionsUpTo json payload tokens i group n) :
    ActionsUpTo json payload blankTokens i group n := by
  induction n with
  | zero => exact readsUpTo_zero _ _ _ _ _ _
  | succ n ih =>
      have hbefore := ih fun k hk => h k (Nat.lt_succ_of_lt hk)
      obtain ⟨kv, hkv, hpassed⟩ := h n (Nat.lt_succ_self n)
      obtain ⟨answer, -, hanswer⟩ := answer_of_regular htree hfields
        (hregular _ (.inner i group n hentered hbefore))
      have hsplit : getKeyAndValueAtIndex json (terminated payload group) group.value
          group.valueLen n (blankTokens i (some n)) = some (.success kv) := by
        rw [hanswer] at hkv ⊢
        exact hkv
      exact hbefore.succ hsplit hpassed

theorem aliasesUpTo_blank {n : Nat}
    (h : AliasesUpTo json payload tokens aliasActionsStr aliasActionsLen n) :
    AliasesUpTo json payload blankTokens aliasActionsStr aliasActionsLen n := by
  induction n with
  | zero => exact readsUpTo_zero _ _ _ _ _ _
  | succ n ih =>
      have hbefore := ih fun k hk => h k (Nat.lt_succ_of_lt hk)
      obtain ⟨group, hgroup, hinside, n', hupTo, hfinish⟩ := h n (Nat.lt_succ_self n)
      obtain ⟨answer, -, hanswer⟩ := answer_of_regular htree hfields
        (hregular _ (.outer n hbefore))
      have hsplit : getKeyAndValueAtIndex json payload aliasActionsStr aliasActionsLen n
          (blankTokens n none) = some (.success group) := by
        rw [hanswer] at hgroup ⊢
        exact hgroup
      have hentered : Entered json payload blankTokens aliasActionsStr aliasActionsLen n group :=
        ⟨hbefore, hsplit, hinside⟩
      -- the inner loop is passed with blank token arrays too
      have hupTo' := actionsUpTo_blank htree hfields hregular hentered hupTo
      obtain ⟨answer', -, hanswer'⟩ := answer_of_regular htree hfields
        (hregular _ (.inner n group n' hentered hupTo'))
      refine ReadsUpTo.succ hbefore hsplit ⟨hinside, n', hupTo', ?_⟩
      rw [hanswer'] at hfinish ⊢
      exact hfinish

/-- Where the calls that blank token arrays lead to are regular, others lead to no more. -/
theorem reached_blank {c : ReadCall}
    (h : Reached json payload tokens aliasActionsStr aliasActionsLen c) :
    Reached json payload blankTokens aliasActionsStr aliasActionsLen c := by
  have hentered : ∀ {i group},
      Entered json payload tokens aliasActionsStr aliasActionsLen i group →
        Entered json payload blankTokens aliasActionsStr aliasActionsLen i group := by
    intro i group hentered
    have hbefore := aliasesUpTo_blank htree hfields hregular hentered.before
    obtain ⟨answer, -, hanswer⟩ := answer_of_regular htree hfields
      (hregular _ (.outer i hbefore))
    refine ⟨hbefore, ?_, hentered.inside⟩
    have hsplit := hentered.split
    rw [hanswer] at hsplit ⊢
    exact hsplit
  cases h with
  | outer k h => exact .outer k (aliasesUpTo_blank htree hfields hregular h)
  | inner i group j h h' =>
      exact .inner i group j (hentered h)
        (actionsUpTo_blank htree hfields hregular (hentered h) h')

end

/-! ## The loops always end -/

/-- They end within their bounds in every run on the message with as many rounds as there
are tokens, whatever its handlers do and its automatic arrays hold before. -/
def LoopsAlwaysEnd (json : JsonApi) (platform : Platform) (appId authorId : Bytes)
    (budget : Nat) (payload : Bytes) : Prop :=
  ∀ (σ δ : Type) (api : RequestApi σ) (handlers : Handlers σ δ) (stack : Stack) (fuel : Nat)
    (m : Machine σ δ), budget ≤ fuel → m.kii.appId = appId → m.kii.author.authorId = authorId →
      LoopsEnd ⟨api, json, platform⟩ handlers stack fuel budget ⟨m, payload⟩

section

variable {sdk : Sdk σ} {budget : Nat} (htree : TokenTree sdk.json budget)
  (hfields : FieldsByTokens sdk.json) (hreport : FieldReport sdk.json) (handlers : Handlers σ δ)
  (stack : Stack) {s : CommandState σ δ}

include hreport in
/-- A run that does not reach its loops. -/
theorem loopsEnd_of_not_open (h : openCommand sdk s = none) (fuel : Nat) :
    LoopsEnd sdk handlers stack fuel budget s := by
  have hnil : commandReads sdk handlers stack fuel s = [] := by
    unfold commandReads
    rw [h]
  obtain ⟨es, hadd, hsilent, -⟩ := handleCommand_of_not_open h handlers stack fuel
  refine ⟨handleCommand_returned_of_not_open handlers stack hreport h fuel, ?_, ?_, ?_, ?_⟩
  · simp [hnil]
  · rw [newEvents_eq hadd.log_eq, handlerCalls_of_silent hsilent]
    exact Nat.zero_le _
  · simp [hnil]
  · simp [hnil]

include htree hfields in
/-- A run all of whose calls are regular. -/
theorem loopsEnd_of_regular (hpos : 0 < budget) {fuel : Nat} (hfuel : budget ≤ fuel)
    {actions : JsonFieldOut} {m : Machine σ δ} (hopen : openCommand sdk s = some (actions, m))
    (hregular : ∀ c ∈ commandReads sdk handlers stack fuel s, c.IsRegular sdk.json) :
    LoopsEnd sdk handlers stack fuel budget s := by
  have hreads : commandReads sdk handlers stack fuel s = (aliasTrace sdk handlers stack
      actions.start ((actions.stop : Int) - actions.start) fuel fuel 0 ⟨m, s.buffer⟩).1 := by
    unfold commandReads
    rw [hopen]
  rw [hreads] at hregular
  obtain ⟨hflow, hcalls, hindex⟩ := aliasTrace_ends handlers stack htree hfields hfuel hpos m
    hregular
  have hcount := countP_aliasTrace_le htree hfields fuel m hregular
  obtain ⟨es, hadd, hle⟩ := aliasTrace_adds htree hfields handlers stack actions.start
    ((actions.stop : Int) - actions.start) fuel fuel 0 ⟨m, s.buffer⟩ hregular
  obtain ⟨-, -, call, hopened⟩ := openCommand_adds hopen
  -- the bounds are about the calls that the run makes
  rw [← hreads] at hcalls hindex hcount hle
  rw [aliasTrace_run] at hflow hadd
  rcases hloop : aliasLoop sdk handlers stack actions.start ((actions.stop : Int) - actions.start)
    fuel fuel 0 ⟨m, s.buffer⟩ with ⟨flow, s'⟩
  rw [hloop] at hflow hadd
  simp only at hflow hadd
  have hloops := hopened.trans hadd
  have hrun := handleCommand_loops hopen hloop
  have hhandled : (handlerCalls ([.callStart call 0, .appendBody resultsOpening 0] ++
      es)).length ≤ budget := by
    rw [handlerCalls_append]
    show (handlerCalls es).length ≤ budget
    omega
  refine ⟨?_, hcalls, ?_, hindex, fun size hsize c hc => indexStr_fits (hindex c hc) hsize⟩
  · rw [hrun]
    rcases hflow with rfl | rfl <;> rfl
  · rw [hrun]
    rcases hflow with rfl | rfl
    · obtain ⟨es', hlog, hnone⟩ := finishCommand_log sdk handlers s'.machine
      rw [hloops.log_eq, List.append_assoc] at hlog
      rw [if_pos rfl, newEvents_eq hlog, handlerCalls_append, hnone, List.append_nil]
      exact hhandled
    · rw [if_neg (by simp), newEvents_eq hloops.log_eq]
      exact hhandled

include htree hfields hreport in
/-- With an unlimited buffer, a message that leads to an irregular call has a run that
comes to something undefined. -/
theorem regular_of_loopsEnd (hunlimited : Unlimited sdk.api)
    (hopen : LoopsOpen sdk.json sdk.platform s.machine.kii.appId s.machine.kii.author.authorId
      s.buffer) {c : ReadCall} (hc : CommandReached sdk.json s.buffer stack.tokens c)
    (hends : ∀ fuel, budget ≤ fuel →
      (handleCommand sdk handlers (stack.stray s.buffer) fuel s).1 = .returned) :
    c.IsRegular sdk.json := by
  obtain ⟨bound, hbound⟩ := mem_commandReads_of_reached hunlimited hreport handlers stack hopen hc
  obtain ⟨m, hopen⟩ := open_of_loopsOpen hunlimited hreport hopen
  -- a number of rounds that is enough for the call and for the budget
  have hmem := hbound (max bound budget + 1) (by omega)
  have hreturned := hends (max bound budget + 1) (by omega)
  rw [commandReads_eq hopen] at hmem
  rcases aliasTrace_stray htree hfields handlers stack
    ((sdk.json.kiiJsonReadObject s.buffer commandFields).2 1).start
    ((((sdk.json.kiiJsonReadObject s.buffer commandFields).2 1).stop : Int) -
      ((sdk.json.kiiJsonReadObject s.buffer commandFields).2 1).start)
    (Nat.succ_pos (max bound budget)) (max bound budget + 1) 0 m with ⟨hregular, -⟩ | hundefined
  · exact hregular c hmem
  · exfalso
    rw [aliasTrace_run] at hundefined
    rcases hloop : aliasLoop sdk handlers (stack.stray s.buffer)
      ((sdk.json.kiiJsonReadObject s.buffer commandFields).2 1).start
      ((((sdk.json.kiiJsonReadObject s.buffer commandFields).2 1).stop : Int) -
        ((sdk.json.kiiJsonReadObject s.buffer commandFields).2 1).start)
      (max bound budget + 1) (max bound budget + 1) 0 ⟨m, s.buffer⟩ with ⟨flow, s'⟩
    rw [hloop] at hundefined
    simp only at hundefined
    subst hundefined
    have hrun := handleCommand_loops hopen hloop
    rw [hrun, if_neg (by simp)] at hreturned
    cases hreturned

end

/-- On every run the loops of `handle_command` end within their bounds, if and only if the
message does not get to them, or every text that it leads them to read lies in it and
every object that it leads them to split has tokens that suffice. -/
theorem loopsEnd_iff {json : JsonApi} {budget : Nat} (hpos : 0 < budget)
    (htree : TokenTree json budget) (hbytokens : FieldsByTokens json) (hreport : FieldReport json)
    (platform : Platform) (appId authorId payload : Bytes) :
    LoopsAlwaysEnd json platform appId authorId budget payload ↔
      (¬ LoopsOpen json platform appId authorId payload ∨
        ∀ c, CommandReached json payload blankTokens c → c.IsRegular json) := by
  constructor
  · intro hends
    rw [or_iff_not_imp_left, not_not]
    intro hopen c hc
    let sdk : Sdk Nat := ⟨unlimitedApi, json, platform⟩
    let s : CommandState Nat Nat := ⟨machineOf appId authorId, payload⟩
    have htree' : TokenTree sdk.json budget := htree
    exact regular_of_loopsEnd htree' hbytokens hreport referenceHandlers
      (Stack.holding blankTokens) (s := s) unlimitedApi_unlimited hopen hc
      fun fuel hfuel => (hends Nat Nat unlimitedApi referenceHandlers _ fuel
        (machineOf appId authorId) hfuel rfl rfl).ends
  · intro hcond σ δ api handlers stack fuel m hfuel happ hauthor
    cases hopen : openCommand (Sdk.mk api json platform) ⟨m, payload⟩ with
    | none => exact loopsEnd_of_not_open hreport handlers stack hopen fuel
    | some r =>
        have hloops := loopsOpen_of_open hreport hopen
        simp only [happ, hauthor] at hloops
        have hregular := hcond.resolve_left (not_not.mpr hloops)
        have htree' : TokenTree (Sdk.mk api json platform).json budget := htree
        refine loopsEnd_of_regular htree' hbytokens handlers stack hpos hfuel hopen fun c hc => ?_
        -- leftovers lead to no other calls than blank token arrays
        have hreached := reached_of_mem_commandReads handlers stack fuel hc
        exact hregular c (reached_blank htree hbytokens hregular hreached)

theorem lamp_loopsEnd_iff :
    LoopsAlwaysEnd (referenceJson 64) referencePlatform (ascii "app") (ascii "th.1") 64
        lampCommand.render ↔
      (¬ LoopsOpen (referenceJson 64) referencePlatform (ascii "app") (ascii "th.1")
          lampCommand.render ∨
        ∀ c, CommandReached (referenceJson 64) lampCommand.render blankTokens c →
          c.IsRegular (referenceJson 64)) :=
  loopsEnd_iff (by decide) (referenceJson_tree 64) (referenceJson_fields 64)
    (referenceJson_report 64) referencePlatform (ascii "app") (ascii "th.1") lampCommand.render

theorem plain_empties : ∀ b ∈ ascii "[\x7b\x7d,\x7b\x7d,\x7b\x7d,\x7b\x7d,\x7b\x7d,\x7b\x7d]",
    isPlain b = true := all_plain rfl

theorem plain_l : ∀ b ∈ ascii "l", isPlain b = true := all_plain rfl

/-- `{"l":"[{},{},{},{},{},{}]"}` -/
def emptiesAlias : Value := objectOf (Str.ofPlain _ plain_l) (.str (Str.ofPlain _ plain_empties))

/-- `{"commandID":"c","actions":[{"l":"[{},..]"},{"l":"[{},..]"}]}` -/
def emptiesCommand : Doc :=
  commandOf (.arr (.more .none emptiesAlias .none (.last .none emptiesAlias .none)))

/-- Token arrays that hold empty strings, at the start of the text that was parsed. -/
def emptyStringStack : Stack :=
  { zeroStack with tokens := fun _ _ _ => ⟨.string, 0, 0⟩ }

/-- A message of eleven tokens, for which the handler is called twelve times. -/
theorem empties_not_loopsEnd :
    let s : CommandState Nat Nat := ⟨referenceMachine, emptiesCommand.render⟩
    emptiesCommand.val.tokenCount = 11 ∧
      ((referenceJson 11).kiiJsonReadObject s.buffer commandFields).1 = .success ∧
      ¬ LoopsEnd (referenceSdk 1000 11) referenceHandlers emptyStringStack 11 11 s := by
  intro s
  refine ⟨rfl, by decide +kernel, fun h => ?_⟩
  have hcalls : (handlerCalls (newEvents s.machine.kii (handleCommand (referenceSdk 1000 11)
      referenceHandlers emptyStringStack 11 s).2.machine.kii)).length = 12 := by
    decide +kernel
  have hle := h.handled
  omega

end ThingIfSdk
