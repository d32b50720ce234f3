import ThingIfSdk.Command.Run

/-!
# The rounds of the loops

Neither loop of `handle_command` has a bound of its own: each calls
`get_key_and_value_at_index` with a growing index until the answer is not a
success.  `aliasTrace` runs the loops and lists these calls with the texts they
parse, and `aliasTrace_run` says that it is the loops that it runs.  The calls of
one loop are made with the indices from zero on, on one and the same text.
-/

namespace ThingIfSdk

open ByteText JsonText

variable {σ δ : Type}

/-! ## Calls -/

/-- A call of `get_key_and_value_at_index`: the alias whose actions it reads, or
none in the outer loop; the text of the array and the index into it; and the text
of the element that is split, when there is one. -/
structure ReadCall where
  aliasIndex : Option Nat
  array : Option Bytes
  index : Nat
  item : Option Bytes

/-- The texts that a call has parsed. -/
def ReadCall.texts (c : ReadCall) : List Bytes :=
  c.array.toList ++ c.item.toList

def readCall (json : JsonApi) (buffer : Bytes) (aliasIndex : Option Nat)
    (arrayStr arrayLen : Int) (index : Nat) : ReadCall where
  aliasIndex := aliasIndex
  array := slice? buffer arrayStr arrayLen
  index := index
  item := (slice? buffer arrayStr arrayLen).bind fun array =>
    let r := json.kiiJsonReadObject array [indexField index]
    if r.1 = .success then
      slice? buffer (arrayStr + (r.2 0).start) ((r.2 0).stop - (r.2 0).start)
    else none

/-! ## The loops with their calls -/

/-- `actionLoop`, with the calls it makes. -/
def actionTrace (sdk : Sdk σ) (handlers : Handlers σ δ) (stack : Stack) (aliasIndex : Nat)
    (aliasName actions actionsLen : Int) :
    Nat → Nat → CommandState σ δ → List ReadCall × (Flow × CommandState σ δ)
  | 0, _, s => ([], .outOfFuel, s)
  | fuel + 1, actionIndex, s =>
      let call := readCall sdk.json s.buffer (some aliasIndex) actions actionsLen actionIndex
      match getKeyAndValueAtIndex sdk.json s.buffer actions actionsLen actionIndex
        (stack.tokens aliasIndex (some actionIndex)) with
      | none => ([call], .undefined, s)
      | some .fail => ([call], .returned, s)
      | some .finish => ([call], .finished, s)
      | some (.success kv) =>
          match runAction sdk handlers stack aliasIndex actionIndex aliasName kv s with
          | (.finished, s') =>
              let rest := actionTrace sdk handlers stack aliasIndex aliasName actions actionsLen
                fuel (actionIndex + 1) s'
              (call :: rest.1, rest.2)
          | r => ([call], r)

/-- `aliasLoop`, with the calls that it and the inner loops make. -/
def aliasTrace (sdk : Sdk σ) (handlers : Handlers σ δ) (stack : Stack)
    (aliasActionsStr aliasActionsLen : Int) (innerFuel : Nat) :
    Nat → Nat → CommandState σ δ → List ReadCall × (Flow × CommandState σ δ)
  | 0, _, s => ([], .outOfFuel, s)
  | fuel + 1, aliasIndex, s =>
      let call := readCall sdk.json s.buffer none aliasActionsStr aliasActionsLen aliasIndex
      match getKeyAndValueAtIndex sdk.json s.buffer aliasActionsStr aliasActionsLen aliasIndex
        (stack.tokens aliasIndex none) with
      | none => ([call], .undefined, s)
      | some .fail => ([call], .returned, s)
      | some .finish => ([call], .finished, s)
      | some (.success kv) =>
          match peek? s.buffer (kv.key + kv.keyLen) with
          | none => ([call], .undefined, s)
          | some aliasNameSwap =>
              let inner := actionTrace sdk handlers stack aliasIndex kv.key kv.value kv.valueLen
                innerFuel 0 { s with buffer := poke s.buffer (kv.key + kv.keyLen) 0 }
              match inner.2 with
              | (.finished, s') =>
                  let rest := aliasTrace sdk handlers stack aliasActionsStr aliasActionsLen
                    innerFuel fuel (aliasIndex + 1)
                    { s' with buffer := poke s'.buffer (kv.key + kv.keyLen) aliasNameSwap }
                  (call :: (inner.1 ++ rest.1), rest.2)
              | r => (call :: inner.1, r)

theorem actionTrace_run (sdk : Sdk σ) (handlers : Handlers σ δ) (stack : Stack)
    (aliasIndex : Nat) (aliasName actions actionsLen : Int) (fuel actionIndex : Nat)
    (s : CommandState σ δ) :
    (actionTrace sdk handlers stack aliasIndex aliasName actions actionsLen fuel actionIndex
        s).2 =
      actionLoop sdk handlers stack aliasIndex aliasName actions actionsLen fuel actionIndex s := by
  induction fuel generalizing actionIndex s with
  | zero => rfl
  | succ fuel ih =>
      simp only [actionTrace, actionLoop]
      cases getKeyAndValueAtIndex sdk.json s.buffer actions actionsLen actionIndex
        (stack.tokens aliasIndex (some actionIndex)) with
      | none => rfl
      | some answer =>
          cases answer with
          | fail => rfl
          | finish => rfl
          | success kv =>
              simp only
              rcases hrun : runAction sdk handlers stack aliasIndex actionIndex aliasName kv s with
                ⟨flow, s'⟩
              cases flow with
              | finished => exact ih (actionIndex + 1) s'
              | returned | undefined | outOfFuel => rfl

/-- The calls are those of the loops themselves. -/
theorem aliasTrace_run (sdk : Sdk σ) (handlers : Handlers σ δ) (stack : Stack)
    (aliasActionsStr aliasActionsLen : Int) (innerFuel fuel aliasIndex : Nat)
    (s : CommandState σ δ) :
    (aliasTrace sdk handlers stack aliasActionsStr aliasActionsLen innerFuel fuel aliasIndex
        s).2 =
      aliasLoop sdk handlers stack aliasActionsStr aliasActionsLen innerFuel fuel aliasIndex s := by
  induction fuel generalizing aliasIndex s with
  | zero => rfl
  | succ fuel ih =>
      simp only [aliasTrace, aliasLoop]
      cases getKeyAndValueAtIndex sdk.json s.buffer aliasActionsStr aliasActionsLen aliasIndex
        (stack.tokens aliasIndex none) with
      | none => rfl
      | some answer =>
          cases answer with
          | fail => rfl
          | finish => rfl
          | success kv =>
              simp only [runAlias, ← actionTrace_run]
              cases peek? s.buffer (kv.key + kv.keyLen) with
              | none => rfl
              | some aliasNameSwap =>
                  simp only
                  rcases (actionTrace sdk handlers stack aliasIndex kv.key kv.value kv.valueLen
                    innerFuel 0 { s with buffer := poke s.buffer (kv.key + kv.keyLen) 0 }) with
                    ⟨calls, flow, s'⟩
                  cases flow with
                  | finished => exact ih (aliasIndex + 1) _
                  | returned | undefined | outOfFuel => rfl

/-- The calls that `handle_command` makes on a message. -/
def commandReads (sdk : Sdk σ) (handlers : Handlers σ δ) (stack : Stack) (fuel : Nat)
    (s : CommandState σ δ) : List ReadCall :=
  match openCommand sdk s with
  | none => []
  | some (actions, m) =>
      (aliasTrace sdk handlers stack actions.start ((actions.stop : Int) - actions.start) fuel
        fuel 0 { machine := m, buffer := s.buffer }).1

/-! ## The calls of one loop -/

/-- An action that is finished leaves the buffer as it found it. -/
theorem runAction_buffer {sdk : Sdk σ} {handlers : Handlers σ δ} {stack : Stack} {i j : Nat}
    {buffer : Bytes} {aliasName : Int} {kv : KeyValue} {m : Machine σ δ}
    {s' : CommandState σ δ}
    (h : runAction sdk handlers stack i j aliasName kv { machine := m, buffer := buffer } =
      (.finished, s')) : s'.buffer = buffer := by
  obtain ⟨hsome, hnone⟩ := runAction_eq sdk handlers stack i j buffer aliasName kv m
  cases htexts : actionTexts buffer aliasName kv with
  | none =>
      obtain ⟨buffer', hrun⟩ := hnone htexts
      rw [hrun] at h
      cases h
  | some texts =>
      obtain ⟨a, n, v⟩ := texts
      rw [hsome a n v htexts] at h
      simp only at h
      split at h
      · cases h
      · cases h
        rfl

theorem runAction_ne_outOfFuel (sdk : Sdk σ) (handlers : Handlers σ δ) (stack : Stack)
    (i j : Nat) (aliasName : Int) (kv : KeyValue) (s : CommandState σ δ) :
    (runAction sdk handlers stack i j aliasName kv s).1 ≠ .outOfFuel := by
  obtain ⟨hsome, hnone⟩ := runAction_eq sdk handlers stack i j s.buffer aliasName kv s.machine
  cases htexts : actionTexts s.buffer aliasName kv with
  | none =>
      obtain ⟨buffer', hrun⟩ := hnone htexts
      rw [hrun]
      simp
  | some texts =>
      obtain ⟨a, n, v⟩ := texts
      rw [hsome a n v htexts]
      simp only
      split <;> simp

/-- The answer at an index is a success. -/
def SplitsAt (json : JsonApi) (buffer : Bytes) (arrayStr arrayLen : Int)
    (tokens : Nat → Nat → Token) (k : Nat) : Prop :=
  ∃ kv, getKeyAndValueAtIndex json buffer arrayStr arrayLen k (tokens k) = some (.success kv)

/-- The calls of a loop over an array: `n` of them with the indices from `j` on,
all successes but perhaps the last. -/
structure CallsFrom (json : JsonApi) (buffer : Bytes) (arrayStr arrayLen : Int)
    (tokens : Nat → Nat → Token) (j n : Nat) : Prop where
  before : ∀ k, j ≤ k → k + 1 < j + n → SplitsAt json buffer arrayStr arrayLen tokens k

/-- The inner loop reads one text, at one index after the other. -/
theorem actionTrace_spec (sdk : Sdk σ) (handlers : Handlers σ δ) (stack : Stack)
    (aliasIndex : Nat) (aliasName actions actionsLen : Int) (buffer : Bytes) (fuel j : Nat)
    (m : Machine σ δ) :
    let t := actionTrace sdk handlers stack aliasIndex aliasName actions actionsLen fuel j
      { machine := m, buffer := buffer }
    ∃ n, t.1 = (List.range' j n).map (readCall sdk.json buffer (some aliasIndex) actions
        actionsLen) ∧
      CallsFrom sdk.json buffer actions actionsLen (fun k => stack.tokens aliasIndex (some k)) j
        n ∧
      (t.2.1 = .outOfFuel → n = fuel ∧ ∀ k, j ≤ k → k < j + n →
        SplitsAt sdk.json buffer actions actionsLen (fun k => stack.tokens aliasIndex (some k)) k) ∧
      (t.2.1 = .finished → t.2.2.buffer = buffer) := by
  induction fuel generalizing j m with
  | zero =>
      refine ⟨0, rfl, ⟨fun k hj hlt => absurd hlt (by omega)⟩,
        fun _ => ⟨rfl, fun k hj hlt => absurd hlt (by omega)⟩, fun h => ?_⟩
      cases h
  | succ fuel ih =>
      -- a call that is the last one
      have hlast : CallsFrom sdk.json buffer actions actionsLen
          (fun k => stack.tokens aliasIndex (some k)) j 1 :=
        ⟨fun k hj hlt => absurd hlt (by omega)⟩
      simp only [actionTrace]
      cases hread : getKeyAndValueAtIndex sdk.json buffer actions actionsLen j
        (stack.tokens aliasIndex (some j)) with
      | none => exact ⟨1, rfl, hlast, by simp, by simp⟩
      | some answer =>
          cases answer with
          | fail => exact ⟨1, rfl, hlast, by simp, by simp⟩
          | finish => exact ⟨1, rfl, hlast, by simp, by simp⟩
          | success kv =>
              simp only
              have hne := runAction_ne_outOfFuel sdk handlers stack aliasIndex j aliasName kv
                { machine := m, buffer := buffer }
              rcases hrun : runAction sdk handlers stack aliasIndex j aliasName kv
                { machine := m, buffer := buffer } with ⟨flow, s'⟩
              rw [hrun] at hne
              cases flow with
              | finished =>
                  have hbuffer := runAction_buffer hrun
                  obtain ⟨m', buffer'⟩ := s'
                  simp only at hbuffer
                  subst hbuffer
                  obtain ⟨n, htrace, hcalls, hfuel, hrest⟩ := ih (j + 1) m'
                  have hhere : SplitsAt sdk.json buffer' actions actionsLen
                      (fun k => stack.tokens aliasIndex (some k)) j := ⟨kv, hread⟩
                  refine ⟨n + 1, ?_, ⟨fun k hj hlt => ?_⟩, fun h => ?_, hrest⟩
                  · simp only [htrace, List.range'_succ, List.map_cons]
                  · by_cases hk : k = j
                    · rw [hk]
                      exact hhere
                    · exact hcalls.before k (by omega) (by omega)
                  · obtain ⟨hn, hall⟩ := hfuel h
                    refine ⟨by omega, fun k hj hlt => ?_⟩
                    by_cases hk : k = j
                    · rw [hk]
                      exact hhere
                    · exact hall k (by omega) (by omega)
              | returned => exact ⟨1, rfl, hlast, by simp, by simp⟩
              | undefined => exact ⟨1, rfl, hlast, by simp, by simp⟩
              | outOfFuel => exact absurd rfl hne

/-! ## The calls of both loops -/

/-- The inner loop of an alias that was split as `kv`, on the message. -/
def innerTrace (sdk : Sdk σ) (handlers : Handlers σ δ) (stack : Stack) (payload : Bytes)
    (innerFuel aliasIndex : Nat) (kv : KeyValue) (m : Machine σ δ) :
    List ReadCall × (Flow × CommandState σ δ) :=
  actionTrace sdk handlers stack aliasIndex kv.key kv.value kv.valueLen innerFuel 0
    { machine := m, buffer := poke payload (kv.key + kv.keyLen) 0 }

/-- The inner loop of alias `k` was run from some machine, and made these calls. -/
structure RunsInner (sdk : Sdk σ) (handlers : Handlers σ δ) (stack : Stack) (payload : Bytes)
    (aliasActionsStr aliasActionsLen : Int) (innerFuel k : Nat) (kv : KeyValue)
    (m : Machine σ δ) (calls : List ReadCall) : Prop where
  split : getKeyAndValueAtIndex sdk.json payload aliasActionsStr aliasActionsLen k
    (stack.tokens k none) = some (.success kv)
  inside : (peek? payload (kv.key + kv.keyLen)).isSome
  calls_eq : calls = (innerTrace sdk handlers stack payload innerFuel k kv m).1

/-- The outer loop reads one text too, and between its calls stand those of the
inner loops. -/
theorem aliasTrace_spec (sdk : Sdk σ) (handlers : Handlers σ δ) (stack : Stack)
    (payload : Bytes) (aliasActionsStr aliasActionsLen : Int) (innerFuel fuel i : Nat)
    (m : Machine σ δ) :
    let t := aliasTrace sdk handlers stack aliasActionsStr aliasActionsLen innerFuel fuel i
      { machine := m, buffer := payload }
    ∃ (n : Nat) (inner : Nat → List ReadCall),
      t.1 = (List.range' i n).flatMap (fun k =>
        readCall sdk.json payload none aliasActionsStr aliasActionsLen k :: inner k) ∧
      CallsFrom sdk.json payload aliasActionsStr aliasActionsLen (fun k => stack.tokens k none) i
        n ∧
      (∀ k, i ≤ k → k < i + n → inner k = [] ∨ ∃ kv m', RunsInner sdk handlers stack payload
        aliasActionsStr aliasActionsLen innerFuel k kv m' (inner k)) ∧
      (t.2.1 = .outOfFuel →
        (n = fuel ∧ ∀ k, i ≤ k → k < i + n → SplitsAt sdk.json payload aliasActionsStr
          aliasActionsLen (fun k => stack.tokens k none) k) ∨
        ∃ k kv m' calls, RunsInner sdk handlers stack payload aliasActionsStr aliasActionsLen
          innerFuel k kv m' calls ∧
          (innerTrace sdk handlers stack payload innerFuel k kv m').2.1 = .outOfFuel) := by
  induction fuel generalizing i m with
  | zero =>
      refine ⟨0, fun _ => [], rfl, ⟨fun k hj hlt => absurd hlt (by omega)⟩,
        fun k hj hlt => absurd hlt (by omega), fun _ => .inl ⟨rfl, ?_⟩⟩
      intro k hj hlt
      exact absurd hlt (by omega)
  | succ fuel ih =>
      have hlast : CallsFrom sdk.json payload aliasActionsStr aliasActionsLen
          (fun k => stack.tokens k none) i 1 := ⟨fun k hj hlt => absurd hlt (by omega)⟩
      have hnone : ∀ k, i ≤ k → k < i + 1 → ([] : List ReadCall) = [] ∨ ∃ kv m',
          RunsInner sdk handlers stack payload aliasActionsStr aliasActionsLen innerFuel k kv m'
            [] := fun _ _ _ => .inl rfl
      simp only [aliasTrace]
      cases hread : getKeyAndValueAtIndex sdk.json payload aliasActionsStr aliasActionsLen i
        (stack.tokens i none) with
      | none => exact ⟨1, fun _ => [], rfl, hlast, hnone, by simp⟩
      | some answer =>
          cases answer with
          | fail => exact ⟨1, fun _ => [], rfl, hlast, hnone, by simp⟩
          | finish => exact ⟨1, fun _ => [], rfl, hlast, hnone, by simp⟩
          | success kv =>
              simp only
              cases hpeek : peek? payload (kv.key + kv.keyLen) with
              | none => exact ⟨1, fun _ => [], rfl, hlast, hnone, by simp⟩
              | some aliasNameSwap =>
                  have hinner : RunsInner sdk handlers stack payload aliasActionsStr
                      aliasActionsLen innerFuel i kv m
                      (innerTrace sdk handlers stack payload innerFuel i kv m).1 :=
                    ⟨hread, Option.isSome_of_eq_some hpeek, rfl⟩
                  obtain ⟨-, -, -, -, hbuffer⟩ := actionTrace_spec sdk handlers stack i kv.key
                    kv.value kv.valueLen (poke payload (kv.key + kv.keyLen) 0) innerFuel 0 m
                  have htrace : actionTrace sdk handlers stack i kv.key kv.value kv.valueLen
                      innerFuel 0 { machine := m, buffer := poke payload (kv.key + kv.keyLen) 0 } =
                      innerTrace sdk handlers stack payload innerFuel i kv m := rfl
                  simp only [htrace] at hbuffer ⊢
                  -- the inner loop ends the outer one
                  have hstop : ∀ k, i ≤ k → k < i + 1 →
                      (innerTrace sdk handlers stack payload innerFuel i kv m).1 = [] ∨ ∃ kv' m',
                        RunsInner sdk handlers stack payload aliasActionsStr aliasActionsLen
                          innerFuel k kv' m'
                          (innerTrace sdk handlers stack payload innerFuel i kv m).1 := by
                    intro k hik hk
                    obtain rfl : k = i := by omega
                    exact .inr ⟨kv, m, hinner⟩
                  have hfuel : (innerTrace sdk handlers stack payload innerFuel i kv m).2.1 =
                      .outOfFuel → ∃ k kv' m' calls, RunsInner sdk handlers stack payload
                        aliasActionsStr aliasActionsLen innerFuel k kv' m' calls ∧
                        (innerTrace sdk handlers stack payload innerFuel k kv' m').2.1 =
                          .outOfFuel := fun h => ⟨i, kv, m, _, hinner, h⟩
                  generalize innerTrace sdk handlers stack payload innerFuel i kv m = t at *
                  obtain ⟨calls, flow, s'⟩ := t
                  cases flow with
                  | finished =>
                      obtain ⟨m', buffer'⟩ := s'
                      have hbuffer' : buffer' = poke payload (kv.key + kv.keyLen) 0 := hbuffer rfl
                      subst hbuffer'
                      simp only [poke_poke_restore hpeek]
                      obtain ⟨n, inner, hcalls, hfrom, hinners, hout⟩ := ih (i + 1) m'
                      refine ⟨n + 1, fun k => if k = i then calls else inner k, ?_,
                        ⟨fun k hik hlt => ?_⟩, fun k hik hlt => ?_, fun h => ?_⟩
                      · rw [hcalls, List.range'_succ, List.flatMap_cons]
                        simp only [if_true, List.cons_append, List.cons.injEq, true_and,
                          List.append_cancel_left_eq]
                        apply List.flatMap_congr
                        intro k hk
                        rw [List.mem_range'_1] at hk
                        rw [if_neg (by omega)]
                      · by_cases hk : k = i
                        · rw [hk]
                          exact ⟨kv, hread⟩
                        · exact hfrom.before k (by omega) (by omega)
                      · by_cases hk : k = i
                        · subst hk
                          simp only [if_true]
                          exact hstop k (Nat.le_refl k) (by omega)
                        · simp only [if_neg hk]
                          exact hinners k (by omega) (by omega)
                      · rcases hout h with ⟨hn, hall⟩ | hsome
                        · refine .inl ⟨by omega, fun k hik hlt => ?_⟩
                          by_cases hk : k = i
                          · rw [hk]
                            exact ⟨kv, hread⟩
                          · exact hall k (by omega) (by omega)
                        · exact .inr hsome
                  | returned => exact ⟨1, fun _ => calls, by simp, hlast, hstop, by simp⟩
                  | undefined => exact ⟨1, fun _ => calls, by simp, hlast, hstop, by simp⟩
                  | outOfFuel =>
                      exact ⟨1, fun _ => calls, by simp, hlast, hstop, fun _ => .inr (hfuel rfl)⟩

/-- An inner loop that is entered makes its first call. -/
theorem first_mem_aliasTrace {sdk : Sdk σ} (handlers : Handlers σ δ) {stack : Stack}
    {payload : Bytes} {aliasActionsStr aliasActionsLen : Int} {i : Nat} {kv : KeyValue}
    (hsplit : getKeyAndValueAtIndex sdk.json payload aliasActionsStr aliasActionsLen i
      (stack.tokens i none) = some (.success kv))
    (hinside : (peek? payload (kv.key + kv.keyLen)).isSome) (innerFuel fuel : Nat)
    (m : Machine σ δ) :
    readCall sdk.json (poke payload (kv.key + kv.keyLen) 0) (some i) kv.value kv.valueLen 0 ∈
      (aliasTrace sdk handlers stack aliasActionsStr aliasActionsLen (innerFuel + 1) (fuel + 1) i
        { machine := m, buffer := payload }).1 := by
  obtain ⟨swap, hswap⟩ := Option.isSome_iff_exists.mp hinside
  have hfirst : ∃ calls r, actionTrace sdk handlers stack i kv.key kv.value kv.valueLen
      (innerFuel + 1) 0 { machine := m, buffer := poke payload (kv.key + kv.keyLen) 0 } =
        (readCall sdk.json (poke payload (kv.key + kv.keyLen) 0) (some i) kv.value kv.valueLen 0 ::
          calls, r) := by
    simp only [actionTrace]
    split
    · exact ⟨_, _, rfl⟩
    · exact ⟨_, _, rfl⟩
    · exact ⟨_, _, rfl⟩
    · split <;> exact ⟨_, _, rfl⟩
  obtain ⟨calls, ⟨flow, s'⟩, htrace⟩ := hfirst
  simp only [aliasTrace, hsplit, hswap, htrace]
  cases flow with
  | finished => exact List.mem_cons_of_mem _ (List.mem_append_left _ List.mem_cons_self)
  | returned | undefined | outOfFuel => exact List.mem_cons_of_mem _ List.mem_cons_self

end ThingIfSdk
