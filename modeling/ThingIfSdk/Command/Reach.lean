import ThingIfSdk.Command.Rounds
import ThingIfSdk.Command.Capacity
import ThingIfSdk.Command.Ignoring

/-!
# How far the loops get

How far the loops get in a message is settled by the message and by what the token
arrays hold: handlers, and a request buffer without room, can only end them earlier.
`Reached` describes the calls that the message leads to.  `reached_of_mem` says that a
run makes no others, and `mem_of_reached` that with an unlimited buffer it makes them all.
-/

namespace ThingIfSdk

open ByteText JsonText

variable {σ δ : Type}

/-! ## Reading an array up to an index -/

/-- At each index before this one something was split, and passed. -/
def ReadsUpTo (json : JsonApi) (buffer : Bytes) (arrayStr arrayLen : Int)
    (tokens : Nat → Nat → Token) (passed : Nat → KeyValue → Prop) (n : Nat) : Prop :=
  ∀ k < n, ∃ kv, getKeyAndValueAtIndex json buffer arrayStr arrayLen k (tokens k) =
    some (.success kv) ∧ passed k kv

theorem readsUpTo_zero (json : JsonApi) (buffer : Bytes) (arrayStr arrayLen : Int)
    (tokens : Nat → Nat → Token) (passed : Nat → KeyValue → Prop) :
    ReadsUpTo json buffer arrayStr arrayLen tokens passed 0 :=
  fun k hk => absurd hk (Nat.not_lt_zero k)

theorem ReadsUpTo.succ {json : JsonApi} {buffer : Bytes} {arrayStr arrayLen : Int}
    {tokens : Nat → Nat → Token} {passed : Nat → KeyValue → Prop} {n : Nat}
    (h : ReadsUpTo json buffer arrayStr arrayLen tokens passed n) {kv : KeyValue}
    (hkv : getKeyAndValueAtIndex json buffer arrayStr arrayLen n (tokens n) = some (.success kv))
    (hpassed : passed n kv) : ReadsUpTo json buffer arrayStr arrayLen tokens passed (n + 1) := by
  intro k hk
  rcases Nat.lt_succ_iff_lt_or_eq.mp hk with hk | rfl
  · exact h k hk
  · exact ⟨kv, hkv, hpassed⟩

/-! ## The loops over a message -/

/-- The message with the name of an alias terminated. -/
def terminated (payload : Bytes) (group : KeyValue) : Bytes :=
  poke payload (group.key + group.keyLen) 0

section

variable (json : JsonApi) (payload : Bytes) (tokens : Nat → Option Nat → Nat → Token)
  (aliasActionsStr aliasActionsLen : Int)

/-- The inner loop of an alias comes to an index: before it are actions whose name and
value are strings of the message. -/
def ActionsUpTo (i : Nat) (group : KeyValue) (n : Nat) : Prop :=
  ReadsUpTo json (terminated payload group) group.value group.valueLen
    (fun k => tokens i (some k))
    (fun _ kv => actionTexts (terminated payload group) group.key kv ≠ none) n

/-- The inner loop of an alias comes to the end of its array. -/
structure AliasPassed (i : Nat) (group : KeyValue) : Prop where
  inside : (peek? payload (group.key + group.keyLen)).isSome
  ends : ∃ n, ActionsUpTo json payload tokens i group n ∧
    getKeyAndValueAtIndex json (terminated payload group) group.value group.valueLen n
      (tokens i (some n)) = some .finish

/-- The outer loop comes to an index. -/
def AliasesUpTo (n : Nat) : Prop :=
  ReadsUpTo json payload aliasActionsStr aliasActionsLen (fun k => tokens k none)
    (AliasPassed json payload tokens) n

/-- The outer loop enters the inner loop of an alias. -/
structure Entered (i : Nat) (group : KeyValue) : Prop where
  before : AliasesUpTo json payload tokens aliasActionsStr aliasActionsLen i
  split : getKeyAndValueAtIndex json payload aliasActionsStr aliasActionsLen i (tokens i none) =
    some (.success group)
  inside : (peek? payload (group.key + group.keyLen)).isSome

/-- The calls that the message leads to. -/
inductive Reached : ReadCall → Prop where
  | outer (k : Nat) (h : AliasesUpTo json payload tokens aliasActionsStr aliasActionsLen k) :
      Reached (readCall json payload none aliasActionsStr aliasActionsLen k)
  | inner (i : Nat) (group : KeyValue) (j : Nat)
      (h : Entered json payload tokens aliasActionsStr aliasActionsLen i group)
      (h' : ActionsUpTo json payload tokens i group j) :
      Reached (readCall json (terminated payload group) (some i) group.value group.valueLen j)

end

/-! ## A run makes no other calls -/

section

variable (sdk : Sdk σ) (handlers : Handlers σ δ) (stack : Stack) {payload : Bytes}
  {aliasActionsStr aliasActionsLen : Int}

/-- The calls of an inner loop, and how it comes to its end. -/
theorem actionTrace_upTo {i : Nat} {group : KeyValue} (fuel j : Nat) (m : Machine σ δ)
    (h : ActionsUpTo sdk.json payload stack.tokens i group j) :
    let t := actionTrace sdk handlers stack i group.key group.value group.valueLen fuel j
      { machine := m, buffer := terminated payload group }
    (∀ c ∈ t.1, ∃ k, ActionsUpTo sdk.json payload stack.tokens i group k ∧
      c = readCall sdk.json (terminated payload group) (some i) group.value group.valueLen k) ∧
    (t.2.1 = .finished → t.2.2.buffer = terminated payload group ∧
      ∃ n, ActionsUpTo sdk.json payload stack.tokens i group n ∧
        getKeyAndValueAtIndex sdk.json (terminated payload group) group.value group.valueLen n
          (stack.tokens i (some n)) = some .finish) := by
  induction fuel generalizing j m with
  | zero => exact ⟨fun c hc => absurd hc List.not_mem_nil, fun hend => by cases hend⟩
  | succ fuel ih =>
      have hhere : ∀ c ∈ [readCall sdk.json (terminated payload group) (some i) group.value
          group.valueLen j], ∃ k, ActionsUpTo sdk.json payload stack.tokens i group k ∧
          c = readCall sdk.json (terminated payload group) (some i) group.value group.valueLen
            k := by
        intro c hc
        exact ⟨j, h, List.mem_singleton.mp hc⟩
      simp only [actionTrace]
      cases hread : getKeyAndValueAtIndex sdk.json (terminated payload group) group.value
        group.valueLen j (stack.tokens i (some j)) with
      | none => exact ⟨hhere, fun hend => by cases hend⟩
      | some answer =>
          cases answer with
          | fail => exact ⟨hhere, fun hend => by cases hend⟩
          | finish => exact ⟨hhere, fun _ => ⟨rfl, j, h, hread⟩⟩
          | success kv =>
              simp only
              -- an action that is performed gives the message back as it was
              obtain ⟨hsome, hnone⟩ := runAction_eq sdk handlers stack i j
                (terminated payload group) group.key kv m
              cases htexts : actionTexts (terminated payload group) group.key kv with
              | none =>
                  obtain ⟨buffer', hrun⟩ := hnone htexts
                  rw [hrun]
                  exact ⟨hhere, fun hend => by cases hend⟩
              | some texts =>
                  obtain ⟨a, n, v⟩ := texts
                  rw [hsome a n v htexts]
                  simp only
                  by_cases hf : (performAction sdk handlers stack i j a n v m).1 = true
                  · simp only [hf, if_true]
                    exact ⟨hhere, fun hend => by cases hend⟩
                  · simp only [hf, Bool.false_eq_true, if_false]
                    have hnext := h.succ hread
                      (by rw [htexts]; exact Option.some_ne_none _)
                    obtain ⟨hcalls, hend⟩ := ih (j + 1)
                      (performAction sdk handlers stack i j a n v m).2 hnext
                    refine ⟨fun c hc => ?_, hend⟩
                    rcases List.mem_cons.mp hc with rfl | hc
                    · exact ⟨j, h, rfl⟩
                    · exact hcalls c hc

theorem aliasTrace_upTo (innerFuel fuel i : Nat) (m : Machine σ δ)
    (h : AliasesUpTo sdk.json payload stack.tokens aliasActionsStr aliasActionsLen i) :
    ∀ c ∈ (aliasTrace sdk handlers stack aliasActionsStr aliasActionsLen innerFuel fuel i
        { machine := m, buffer := payload }).1,
      Reached sdk.json payload stack.tokens aliasActionsStr aliasActionsLen c := by
  induction fuel generalizing i m with
  | zero => exact nofun
  | succ fuel ih =>
      have hhere : ∀ c ∈ [readCall sdk.json payload none aliasActionsStr aliasActionsLen i],
          Reached sdk.json payload stack.tokens aliasActionsStr aliasActionsLen c := by
        intro c hc
        rw [List.mem_singleton.mp hc]
        exact .outer i h
      simp only [aliasTrace]
      cases hread : getKeyAndValueAtIndex sdk.json payload aliasActionsStr aliasActionsLen i
        (stack.tokens i none) with
      | none => exact hhere
      | some answer =>
          cases answer with
          | fail => exact hhere
          | finish => exact hhere
          | success group =>
              simp only
              cases hpeek : peek? payload (group.key + group.keyLen) with
              | none => exact hhere
              | some aliasNameSwap =>
                  simp only
                  have hinside := Option.isSome_of_eq_some hpeek
                  -- the inner loop starts at its first index, on the terminated message
                  have hentered : Entered sdk.json payload stack.tokens aliasActionsStr
                      aliasActionsLen i group := ⟨h, hread, hinside⟩
                  obtain ⟨hcalls, hend⟩ := actionTrace_upTo sdk handlers stack innerFuel 0 m
                    (readsUpTo_zero _ _ _ _ _ _ :
                      ActionsUpTo sdk.json payload stack.tokens i group 0)
                  have hfirst : ∀ c ∈ readCall sdk.json payload none aliasActionsStr
                      aliasActionsLen i :: (actionTrace sdk handlers stack i group.key group.value
                        group.valueLen innerFuel 0
                        { machine := m, buffer := terminated payload group }).1,
                      Reached sdk.json payload stack.tokens aliasActionsStr aliasActionsLen c := by
                    intro c hc
                    rcases List.mem_cons.mp hc with rfl | hc
                    · exact .outer i h
                    · obtain ⟨k, hk, rfl⟩ := hcalls c hc
                      exact .inner i group k hentered hk
                  rw [show poke payload (group.key + group.keyLen) 0 = terminated payload group
                    from rfl]
                  generalize actionTrace sdk handlers stack i group.key group.value group.valueLen
                    innerFuel 0 { machine := m, buffer := terminated payload group } = t
                    at hend hfirst ⊢
                  obtain ⟨calls, flow, m', buffer'⟩ := t
                  cases flow with
                  | finished =>
                      -- behind it the byte is put back, and the outer loop goes on
                      obtain ⟨hbuffer, hends⟩ := hend rfl
                      simp only at hbuffer
                      subst hbuffer
                      intro c hc
                      simp only [terminated, poke_poke_restore hpeek] at hc
                      rw [← List.cons_append, List.mem_append] at hc
                      rcases hc with hc | hc
                      · exact hfirst c hc
                      · exact ih (i + 1) m' (h.succ hread ⟨hinside, hends⟩) c hc
                  | returned | undefined | outOfFuel => exact hfirst

/-- Whatever handlers and request buffers a run has, it makes only calls that the
message leads to. -/
theorem reached_of_mem (innerFuel fuel : Nat) (m : Machine σ δ) {c : ReadCall}
    (h : c ∈ (aliasTrace sdk handlers stack aliasActionsStr aliasActionsLen innerFuel fuel 0
      { machine := m, buffer := payload }).1) :
    Reached sdk.json payload stack.tokens aliasActionsStr aliasActionsLen c :=
  aliasTrace_upTo sdk handlers stack innerFuel fuel 0 m (readsUpTo_zero _ _ _ _ _ _) c h

end

/-! ## A run with an unlimited buffer makes them all -/

/-- A loop with a round left makes its next call. -/
theorem head_mem_actionTrace (sdk : Sdk σ) (handlers : Handlers σ δ) (stack : Stack) (i : Nat)
    (aliasName actions actionsLen : Int) (fuel j : Nat) (s : CommandState σ δ) :
    readCall sdk.json s.buffer (some i) actions actionsLen j ∈
      (actionTrace sdk handlers stack i aliasName actions actionsLen (fuel + 1) j s).1 := by
  simp only [actionTrace]
  split
  · exact List.mem_cons_self
  · exact List.mem_cons_self
  · exact List.mem_cons_self
  · split <;> exact List.mem_cons_self

theorem head_mem_aliasTrace (sdk : Sdk σ) (handlers : Handlers σ δ) (stack : Stack)
    (aliasActionsStr aliasActionsLen : Int) (innerFuel fuel i : Nat) (s : CommandState σ δ) :
    readCall sdk.json s.buffer none aliasActionsStr aliasActionsLen i ∈
      (aliasTrace sdk handlers stack aliasActionsStr aliasActionsLen innerFuel (fuel + 1) i s).1 := by
  simp only [aliasTrace]
  split
  · exact List.mem_cons_self
  · exact List.mem_cons_self
  · exact List.mem_cons_self
  · split
    · exact List.mem_cons_self
    · split <;> exact List.mem_cons_self

section

variable {sdk : Sdk σ} (hunlimited : Unlimited sdk.api) (handlers : Handlers σ δ) (stack : Stack)
  {payload : Bytes} {aliasActionsStr aliasActionsLen : Int}
include hunlimited

/-- The inner loop goes on to any index that it comes to. -/
theorem actionTrace_skips {i : Nat} {group : KeyValue} {n : Nat}
    (h : ActionsUpTo sdk.json payload stack.tokens i group n) (fuel k j : Nat) (hk : j + k = n)
    (m : Machine σ δ) :
    ∃ (front : List ReadCall) (m' : Machine σ δ),
      let rest := actionTrace sdk handlers stack i group.key group.value group.valueLen fuel n
        { machine := m', buffer := terminated payload group }
      actionTrace sdk handlers stack i group.key group.value group.valueLen (fuel + k) j
        { machine := m, buffer := terminated payload group } = (front ++ rest.1, rest.2) := by
  induction k generalizing j m with
  | zero =>
      obtain rfl : j = n := by omega
      exact ⟨[], m, rfl⟩
  | succ k ih =>
      obtain ⟨kv, hread, hpassed⟩ := h j (by omega)
      obtain ⟨⟨a, n', v⟩, htexts⟩ := Option.ne_none_iff_exists'.mp hpassed
      obtain ⟨hsome, -⟩ := runAction_eq sdk handlers stack i j (terminated payload group)
        group.key kv m
      -- with an unlimited buffer no action ends the loop
      obtain ⟨hok, -⟩ := hunlimited.performAction_accepted handlers stack i j a n' v m
      obtain ⟨front, m', hrest⟩ := ih (j + 1) (by omega)
        (performAction sdk handlers stack i j a n' v m).2
      refine ⟨readCall sdk.json (terminated payload group) (some i) group.value group.valueLen j ::
        front, m', ?_⟩
      rw [← Nat.add_assoc]
      simp only [actionTrace, hread, hsome a n' v htexts, hok, Bool.false_eq_true, if_false]
      simp only at hrest
      rw [hrest]
      rfl

/-- An alias that is passed ends its inner loop, given the rounds. -/
theorem actionTrace_passed {i : Nat} {group : KeyValue}
    (h : AliasPassed sdk.json payload stack.tokens i group) :
    ∃ bound, ∀ fuel, bound < fuel → ∀ m : Machine σ δ, ∃ calls m',
      actionTrace sdk handlers stack i group.key group.value group.valueLen fuel 0
        { machine := m, buffer := terminated payload group } =
          (calls, .finished, { machine := m', buffer := terminated payload group }) := by
  obtain ⟨n, hupTo, hfinish⟩ := h.ends
  refine ⟨n, fun fuel hfuel m => ?_⟩
  obtain ⟨front, m', htrace⟩ := actionTrace_skips hunlimited handlers stack hupTo
    (fuel - n - 1 + 1) n 0 (Nat.zero_add n) m
  rw [show fuel - n - 1 + 1 + n = fuel by omega] at htrace
  simp only [actionTrace, hfinish] at htrace
  exact ⟨_, m', htrace⟩

/-- The same for all aliases before an index. -/
theorem inner_bound {n : Nat}
    (h : AliasesUpTo sdk.json payload stack.tokens aliasActionsStr aliasActionsLen n) :
    ∃ bound, ∀ fuel, bound < fuel → ∀ i < n, ∀ m : Machine σ δ, ∃ group calls m',
      getKeyAndValueAtIndex sdk.json payload aliasActionsStr aliasActionsLen i
        (stack.tokens i none) = some (.success group) ∧
      (peek? payload (group.key + group.keyLen)).isSome ∧
      actionTrace sdk handlers stack i group.key group.value group.valueLen fuel 0
        { machine := m, buffer := terminated payload group } =
          (calls, .finished, { machine := m', buffer := terminated payload group }) := by
  induction n with
  | zero => exact ⟨0, fun fuel _ i hi => absurd hi (Nat.not_lt_zero i)⟩
  | succ n ih =>
      obtain ⟨bound, hbound⟩ := ih fun k hk => h k (Nat.lt_succ_of_lt hk)
      obtain ⟨group, hsplit, hpassed⟩ := h n (Nat.lt_succ_self n)
      obtain ⟨bound', hbound'⟩ := actionTrace_passed hunlimited handlers stack hpassed
      refine ⟨max bound bound', fun fuel hfuel i hi m => ?_⟩
      rcases Nat.lt_succ_iff_lt_or_eq.mp hi with hi | rfl
      · exact hbound fuel (by omega) i hi m
      · obtain ⟨calls, m', htrace⟩ := hbound' fuel (by omega) m
        exact ⟨group, calls, m', hsplit, hpassed.inside, htrace⟩

/-- The outer loop goes on to any index that it comes to. -/
theorem aliasTrace_skips {n : Nat}
    (h : AliasesUpTo sdk.json payload stack.tokens aliasActionsStr aliasActionsLen n) :
    ∃ bound, ∀ innerFuel, bound < innerFuel → ∀ fuel k j, j + k = n → ∀ m : Machine σ δ,
      ∃ (front : List ReadCall) (m' : Machine σ δ),
        let rest := aliasTrace sdk handlers stack aliasActionsStr aliasActionsLen innerFuel fuel n
          { machine := m', buffer := payload }
        aliasTrace sdk handlers stack aliasActionsStr aliasActionsLen innerFuel (fuel + k) j
          { machine := m, buffer := payload } = (front ++ rest.1, rest.2) := by
  obtain ⟨bound, hbound⟩ := inner_bound hunlimited handlers stack h
  refine ⟨bound, fun innerFuel hfuel fuel k => ?_⟩
  induction k with
  | zero =>
      intro j hj m
      obtain rfl : j = n := by omega
      exact ⟨[], m, rfl⟩
  | succ k ih =>
      intro j hj m
      obtain ⟨group, calls, m', hsplit, hinside, hinner⟩ := hbound innerFuel hfuel j (by omega) m
      obtain ⟨swap, hpeek⟩ := Option.isSome_iff_exists.mp hinside
      obtain ⟨front, m'', hrest⟩ := ih (j + 1) (by omega) m'
      refine ⟨readCall sdk.json payload none aliasActionsStr aliasActionsLen j ::
        (calls ++ front), m'', ?_⟩
      rw [← Nat.add_assoc]
      simp only [aliasTrace, hsplit, hpeek]
      rw [show poke payload (group.key + group.keyLen) 0 = terminated payload group from rfl,
        hinner]
      simp only at hrest
      simp only [terminated, poke_poke_restore hpeek, hrest, List.cons_append, List.append_assoc]

/-- Given the rounds, a run with an unlimited buffer makes every call that the message
leads to. -/
theorem mem_of_reached {c : ReadCall}
    (h : Reached sdk.json payload stack.tokens aliasActionsStr aliasActionsLen c) :
    ∃ bound, ∀ fuel, bound < fuel → ∀ m : Machine σ δ,
      c ∈ (aliasTrace sdk handlers stack aliasActionsStr aliasActionsLen fuel fuel 0
        { machine := m, buffer := payload }).1 := by
  cases h with
  | outer k hupTo =>
      obtain ⟨bound, hbound⟩ := aliasTrace_skips hunlimited handlers stack hupTo
      refine ⟨max bound k, fun fuel hfuel m => ?_⟩
      obtain ⟨front, m', htrace⟩ := hbound fuel (by omega) (fuel - k - 1 + 1) k 0
        (Nat.zero_add k) m
      rw [show fuel - k - 1 + 1 + k = fuel by omega] at htrace
      rw [htrace]
      exact List.mem_append_right _ (head_mem_aliasTrace _ _ _ _ _ _ _ _ _)
  | inner i group j hentered hactions =>
      obtain ⟨bound, hbound⟩ := aliasTrace_skips hunlimited handlers stack hentered.before
      refine ⟨max bound (max i j), fun fuel hfuel m => ?_⟩
      obtain ⟨front, m', htrace⟩ := hbound fuel (by omega) (fuel - i - 1 + 1) i 0
        (Nat.zero_add i) m
      rw [show fuel - i - 1 + 1 + i = fuel by omega] at htrace
      rw [htrace]
      apply List.mem_append_right
      -- the call is one of the inner loop, whatever that comes to
      obtain ⟨swap, hpeek⟩ := Option.isSome_iff_exists.mp hentered.inside
      obtain ⟨front', m'', hinner⟩ := actionTrace_skips hunlimited handlers stack hactions
        (fuel - j - 1 + 1) j 0 (Nat.zero_add j) m'
      rw [show fuel - j - 1 + 1 + j = fuel by omega] at hinner
      have hmem : readCall sdk.json (terminated payload group) (some i) group.value
          group.valueLen j ∈ (actionTrace sdk handlers stack i group.key group.value
            group.valueLen fuel 0 { machine := m', buffer := terminated payload group }).1 := by
        rw [hinner]
        exact List.mem_append_right _ (head_mem_actionTrace _ _ _ _ _ _ _ _ _ _)
      simp only [aliasTrace, hentered.split, hpeek]
      rw [show poke payload (group.key + group.keyLen) 0 = terminated payload group from rfl]
      generalize actionTrace sdk handlers stack i group.key group.value group.valueLen fuel 0
        { machine := m', buffer := terminated payload group } = t at hmem ⊢
      obtain ⟨calls, flow, s'⟩ := t
      cases flow with
      | finished => exact List.mem_cons_of_mem _ (List.mem_append_left _ hmem)
      | returned | undefined | outOfFuel => exact List.mem_cons_of_mem _ hmem

end

/-! ## From the fields of the message on -/

/-- The calls that a message leads to behind the reading of its two fields. -/
def CommandReached (json : JsonApi) (payload : Bytes) (tokens : Nat → Option Nat → Nat → Token)
    (c : ReadCall) : Prop :=
  let actions := (json.kiiJsonReadObject payload commandFields).2 1
  Reached json payload tokens actions.start ((actions.stop : Int) - actions.start) c

/-- The message has a command id, with which the resource path is short enough. -/
structure LoopsOpen (json : JsonApi) (platform : Platform) (appId authorId payload : Bytes) :
    Prop where
  commandId : HasCommandId json payload
  path : resultsPathLength platform appId authorId
    ((json.kiiJsonReadObject payload commandFields).2 0).start
    ((json.kiiJsonReadObject payload commandFields).2 0).stop < 256

section

variable {sdk : Sdk σ} {s : CommandState σ δ}

theorem loopsOpen_of_open (hreport : FieldReport sdk.json) {r : JsonFieldOut × Machine σ δ}
    (h : openCommand sdk s = some r) :
    LoopsOpen sdk.json sdk.platform s.machine.kii.appId s.machine.kii.author.authorId
      s.buffer := by
  refine ⟨(commandGoesOn_iff hreport s.buffer).mp ?_, openCommand_path h⟩
  unfold openCommand at h
  simp only at h
  split at h
  · cases h
  · rename_i hgo
    exact Bool.eq_true_of_not_eq_false hgo

theorem open_of_loopsOpen (hunlimited : Unlimited sdk.api) (hreport : FieldReport sdk.json)
    (h : LoopsOpen sdk.json sdk.platform s.machine.kii.appId s.machine.kii.author.authorId
      s.buffer) :
    ∃ m, openCommand sdk s = some ((sdk.json.kiiJsonReadObject s.buffer commandFields).2 1, m) := by
  have hgo := (commandGoesOn_iff hreport s.buffer).mpr h.commandId
  obtain ⟨text, htext⟩ := slice?_commandId hreport h.commandId
  have hstart : (resultsStart sdk s.machine.kii text).1 = 0 := hunlimited.starts _ _
  have hopening := hunlimited.append_accepted resultsOpening
    (resultsStart sdk s.machine.kii text).2
  have hpath : ¬ 256 ≤ resultsPathLength sdk.platform s.machine.kii.appId
      s.machine.kii.author.authorId
      ((prvKiiThingIfJsonReadObject sdk s.buffer commandFields).2 0).start
      ((prvKiiThingIfJsonReadObject sdk s.buffer commandFields).2 0).stop := Nat.not_le.mpr h.path
  unfold openCommand
  simp only [hgo, Bool.true_eq_false, if_false, if_neg hpath, htext, hstart, hopening, ne_eq,
    not_true_eq_false]
  exact ⟨_, rfl⟩

/-- The loops start on the span of the field of the actions. -/
theorem commandReads_eq {actions : JsonFieldOut} {m : Machine σ δ}
    (h : openCommand sdk s = some (actions, m)) (handlers : Handlers σ δ) (stack : Stack)
    (fuel : Nat) :
    let actions := (sdk.json.kiiJsonReadObject s.buffer commandFields).2 1
    commandReads sdk handlers stack fuel s = (aliasTrace sdk handlers stack actions.start
      ((actions.stop : Int) - actions.start) fuel fuel 0 { machine := m, buffer := s.buffer }).1 := by
  obtain ⟨rfl, -⟩ := openCommand_adds h
  unfold commandReads
  rw [h]
  rfl

/-- A run of `handle_command` makes only calls that its message leads to. -/
theorem reached_of_mem_commandReads (handlers : Handlers σ δ) (stack : Stack) (fuel : Nat)
    {c : ReadCall} (h : c ∈ commandReads sdk handlers stack fuel s) :
    CommandReached sdk.json s.buffer stack.tokens c := by
  cases hopen : openCommand sdk s with
  | none =>
      unfold commandReads at h
      rw [hopen] at h
      cases h
  | some r =>
      rw [commandReads_eq hopen] at h
      exact reached_of_mem sdk handlers stack fuel fuel r.2 h

/-- With an unlimited buffer, and given the rounds, it makes them all. -/
theorem mem_commandReads_of_reached (hunlimited : Unlimited sdk.api)
    (hreport : FieldReport sdk.json) (handlers : Handlers σ δ) (stack : Stack)
    (hopen : LoopsOpen sdk.json sdk.platform s.machine.kii.appId s.machine.kii.author.authorId
      s.buffer) {c : ReadCall} (h : CommandReached sdk.json s.buffer stack.tokens c) :
    ∃ bound, ∀ fuel, bound < fuel → c ∈ commandReads sdk handlers stack fuel s := by
  obtain ⟨m, hopen⟩ := open_of_loopsOpen hunlimited hreport hopen
  obtain ⟨bound, hbound⟩ := mem_of_reached hunlimited handlers stack h
  refine ⟨bound, fun fuel hfuel => ?_⟩
  rw [commandReads_eq hopen]
  exact hbound fuel hfuel m

end

/-! ## Runs on a message -/

/-- Automatic arrays, with these token arrays. -/
def Stack.holding (tokens : Nat → Option Nat → Nat → Token) : Stack :=
  { zeroStack with tokens := tokens }

/-- A machine of these ids. -/
def machineOf (appId authorId : Bytes) : Machine Nat Nat :=
  ⟨{ referenceKii with appId := appId, author := ⟨authorId, []⟩ }, 0⟩

end ThingIfSdk
