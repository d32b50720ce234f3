import ThingIfSdk.Command.Reporting

/-!
# What is left of the message buffer

`handle_command` terminates names and values in place and puts the bytes back
behind each use.  The returns inside the inner loop come before that: a run that
stops there leaves its NULs in the message.  `heldAtReturn` finds their offsets
from the items of the message and the room in the request buffer alone, and
`handleCommand_restores_iff` says that they are all the difference there is.
-/

namespace ThingIfSdk

open ByteText JsonText

variable {σ δ : Type}

/-! ## Displaced bytes -/

theorem peek?_heldBuffer_isSome {m : Bytes} {off : Int} (h : (peek? m off).isSome)
    (held : List Int) : (peek? (heldBuffer m held) off).isSome := by
  induction held generalizing m with
  | nil => exact h
  | cons off' held ih => exact ih (peek?_poke_isSome h off' 0)

/-- A NUL stays when more of them are written. -/
theorem peek?_heldBuffer_zero {m : Bytes} {off : Int} (h : peek? m off = some 0)
    (held : List Int) : peek? (heldBuffer m held) off = some 0 := by
  induction held generalizing m with
  | nil => exact h
  | cons off' held ih => exact ih (peek?_poke_same h off')

/-- NULs leave a message as it was exactly when they stood there before. -/
theorem heldBuffer_eq_iff {payload : Bytes} {held : List Int}
    (hin : ∀ off ∈ held, (peek? payload off).isSome) :
    heldBuffer payload held = payload ↔ ∀ off ∈ held, peek? payload off = some 0 := by
  constructor
  · intro heq off hoff
    rw [← heq]
    obtain ⟨front, back, rfl⟩ := List.append_of_mem hoff
    rw [heldBuffer, List.foldl_append, List.foldl_cons]
    apply peek?_heldBuffer_zero
    exact peek?_poke_self (peek?_heldBuffer_isSome (hin off hoff) front) 0
  · intro h
    induction held with
    | nil => rfl
    | cons off held ih =>
        rw [heldBuffer, List.foldl_cons,
          (poke_eq_self_iff (hin off List.mem_cons_self) 0).mpr (h off List.mem_cons_self)]
        exact ih (fun off' hoff' => hin off' (List.mem_cons_of_mem _ hoff'))
          (fun off' hoff' => h off' (List.mem_cons_of_mem _ hoff'))

/-! ## The offsets of an item -/

/-- The offsets at which the buffer holds a NUL while an item is worked on. -/
def Item.held : Item → List Int
  | .action _ _ _ _ _ held => held
  | .fail held => held
  | .undefined => []
  | .outOfFuel => []

theorem actionTexts_in {buffer : Bytes} {aliasName : Int} {kv : KeyValue}
    {texts : Bytes × Bytes × Bytes} (h : actionTexts buffer aliasName kv = some texts) :
    (peek? buffer (kv.key + kv.keyLen)).isSome ∧
      (peek? buffer (kv.value + kv.valueLen)).isSome := by
  unfold actionTexts at h
  cases hn : peek? buffer (kv.key + kv.keyLen) with
  | none =>
      rw [hn] at h
      cases h
  | some nameSwap =>
      cases hv : peek? buffer (kv.value + kv.valueLen) with
      | none =>
          rw [hn, hv] at h
          cases h
      | some valueSwap => exact ⟨rfl, rfl⟩

/-- A byte that can be read after a write could be read before it. -/
theorem peek?_isSome_of_poke {m : Bytes} {i j : Int} {b : Byte}
    (h : (peek? (poke m j b) i).isSome) : (peek? m i).isSome := by
  unfold peek? at h ⊢
  split
  · rename_i hi
    rw [if_pos hi, isSome_getElem?, length_poke] at h
    rw [isSome_getElem?]
    exact h
  · rename_i hi
    rw [if_neg hi] at h
    exact h

/-- The inner loop displaces bytes of the message only. -/
theorem actionItems_held_in (json : JsonApi) (stack : Stack) {payload : Bytes} (aliasIndex : Nat)
    {group : KeyValue} (hgroup : (peek? payload (group.key + group.keyLen)).isSome)
    (fuel actionIndex : Nat) :
    ∀ item ∈ actionItems json stack payload aliasIndex group fuel actionIndex,
      ∀ off ∈ item.held, (peek? payload off).isSome := by
  induction fuel generalizing actionIndex with
  | zero => simp [actionItems, Item.held]
  | succ fuel ih =>
      intro item hitem off hoff
      simp only [actionItems] at hitem
      cases hread : getKeyAndValueAtIndex json (poke payload (group.key + group.keyLen) 0)
        group.value group.valueLen actionIndex (stack.tokens aliasIndex (some actionIndex)) with
      | none =>
          rw [hread, List.mem_singleton] at hitem
          rw [hitem] at hoff
          cases hoff
      | some answer =>
          rw [hread] at hitem
          cases answer with
          | fail =>
              rw [List.mem_singleton] at hitem
              rw [hitem, Item.held, List.mem_singleton] at hoff
              rw [hoff]
              exact hgroup
          | finish => cases hitem
          | success kv =>
              cases htexts :
                  actionTexts (poke payload (group.key + group.keyLen) 0) group.key kv with
              | none =>
                  simp only [htexts, List.mem_singleton] at hitem
                  rw [hitem] at hoff
                  cases hoff
              | some texts =>
                  obtain ⟨hname, hvalue⟩ := actionTexts_in htexts
                  simp only [htexts, List.mem_cons] at hitem
                  rcases hitem with rfl | hitem
                  · simp only [Item.held, List.mem_cons, List.not_mem_nil, or_false] at hoff
                    rcases hoff with rfl | rfl | rfl
                    · exact hgroup
                    · exact peek?_isSome_of_poke hname
                    · exact peek?_isSome_of_poke hvalue
                  · exact ih (actionIndex + 1) item hitem off hoff

/-- So do both loops. -/
theorem aliasItems_held_in (json : JsonApi) (stack : Stack) (payload : Bytes)
    (aliasActionsStr aliasActionsLen : Int) (innerFuel fuel aliasIndex : Nat) :
    ∀ item ∈ aliasItems json stack payload aliasActionsStr aliasActionsLen innerFuel fuel
        aliasIndex,
      ∀ off ∈ item.held, (peek? payload off).isSome := by
  induction fuel generalizing aliasIndex with
  | zero => simp [aliasItems, Item.held]
  | succ fuel ih =>
      intro item hitem off hoff
      simp only [aliasItems] at hitem
      cases hread : getKeyAndValueAtIndex json payload aliasActionsStr aliasActionsLen aliasIndex
        (stack.tokens aliasIndex none) with
      | none =>
          rw [hread, List.mem_singleton] at hitem
          rw [hitem] at hoff
          cases hoff
      | some answer =>
          rw [hread] at hitem
          cases answer with
          | fail =>
              rw [List.mem_singleton] at hitem
              rw [hitem] at hoff
              cases hoff
          | finish => cases hitem
          | success kv =>
              cases hpeek : peek? payload (kv.key + kv.keyLen) with
              | none =>
                  simp only [hpeek, List.mem_singleton] at hitem
                  rw [hitem] at hoff
                  cases hoff
              | some aliasNameSwap =>
                  simp only [hpeek, List.mem_append] at hitem
                  rcases hitem with hitem | hitem
                  · exact actionItems_held_in json stack aliasIndex
                      (Option.isSome_of_eq_some hpeek) innerFuel 0 item hitem off hoff
                  · exact ih (aliasIndex + 1) item hitem off hoff

/-! ## Where the loops return -/

/-- The offsets that hold a NUL when the loops return: those of the first item that
does not read or whose entry does not fit in the room that is left. -/
def heldAtReturn (handlers : Handlers σ δ) (stack : Stack) : List Item → δ → Nat → List Int
  | [], _, _ => []
  | .fail held :: _, _, _ => held
  | .undefined :: _, _, _ => []
  | .outOfFuel :: _, _, _ => []
  | .action i j a n v held :: rest, device, room =>
      let r := callHandler handlers stack i j a n v device
      let size := (Entry.pieces ⟨i, j, a, n, v, r.1⟩).flatten.length
      if size ≤ room then heldAtReturn handlers stack rest r.2 (room - size) else held

theorem heldAtReturn_subset (handlers : Handlers σ δ) (stack : Stack) {items : List Item}
    {device : δ} {room : Nat} {off : Int} (h : off ∈ heldAtReturn handlers stack items device room) :
    ∃ item ∈ items, off ∈ item.held := by
  induction items generalizing device room with
  | nil => cases h
  | cons item items ih =>
      cases item with
      | fail held => exact ⟨.fail held, List.mem_cons_self, h⟩
      | undefined => cases h
      | outOfFuel => cases h
      | action i j a n v held =>
          simp only [heldAtReturn] at h
          split at h
          · obtain ⟨item, hitem, hoff⟩ := ih h
            exact ⟨item, List.mem_cons_of_mem _ hitem, hoff⟩
          · exact ⟨_, List.mem_cons_self, h⟩

/-- The loops hold what the items and the room say. -/
theorem perform_held {sdk : Sdk σ} {remaining : σ → Nat} (hbuf : FixedBuffer sdk.api remaining)
    (handlers : Handlers σ δ) (stack : Stack) (items : List Item) (m : Machine σ δ) :
    (perform sdk handlers stack items m).1.held =
      heldAtReturn handlers stack items m.device (remaining m.kii.core) := by
  induction items generalizing m with
  | nil => rfl
  | cons item items ih =>
      cases item with
      | fail held => rfl
      | undefined => rfl
      | outOfFuel => rfl
      | action i j a n v held =>
          simp only [perform, heldAtReturn]
          split
          · rename_i hf
            rw [if_neg]
            intro hle
            obtain ⟨hok, -⟩ := performAction_fits hbuf handlers stack (m := m) rfl hle
            rw [hok] at hf
            exact absurd hf Bool.false_ne_true
          · rename_i hf
            have hle : (Entry.pieces ⟨i, j, a, n, v,
                (callHandler handlers stack i j a n v m.device).1⟩).flatten.length ≤
                remaining m.kii.core := by
              by_contra hgt
              exact hf (performAction_overflows hbuf handlers stack rfl (by omega))
            obtain ⟨-, -, hdev, hrem⟩ := performAction_fits hbuf handlers stack (m := m) rfl hle
            rw [if_pos hle, ih, hdev, hrem]

/-- Where the loops finish nothing is held. -/
theorem perform_held_of_finished (sdk : Sdk σ) (handlers : Handlers σ δ) (stack : Stack)
    {items : List Item} {m : Machine σ δ}
    (h : (perform sdk handlers stack items m).1.flow = .finished) :
    (perform sdk handlers stack items m).1.held = [] := by
  induction items generalizing m with
  | nil => rfl
  | cons item items ih =>
      cases item with
      | fail held => cases h
      | undefined => rfl
      | outOfFuel => rfl
      | action i j a n v held =>
          simp only [perform] at h ⊢
          split at h
          · cases h
          · rename_i hf
            rw [if_neg hf]
            exact ih h

/-! ## Runs -/

/-- When `handle_command` returns, the message buffer is the message with NULs at
the offsets that were held. -/
theorem handleCommand_buffer {sdk : Sdk σ} {remaining : σ → Nat}
    (hbuf : FixedBuffer sdk.api remaining) (handlers : Handlers σ δ) (stack : Stack) (fuel : Nat)
    {s : CommandState σ δ} {actions : JsonFieldOut} {m : Machine σ δ}
    (hopen : openCommand sdk s = some (actions, m))
    (hreturned : (handleCommand sdk handlers stack fuel s).1 = .returned) :
    (handleCommand sdk handlers stack fuel s).2.buffer =
      heldBuffer s.buffer (heldAtReturn handlers stack
        (commandItems sdk.json stack s.buffer fuel actions) m.device
        (remaining m.kii.core)) := by
  rw [← perform_held hbuf]
  obtain ⟨hfinished, hother⟩ := handleCommand_of_open hopen handlers stack fuel
  by_cases hf : (perform sdk handlers stack (commandItems sdk.json stack s.buffer fuel actions)
      m).1.flow = .finished
  · rw [perform_held_of_finished sdk handlers stack hf]
    exact (hfinished hf).2.1
  · obtain ⟨hflow, -, hbuffer⟩ := hother hf
    exact hbuffer (hflow.symm.trans hreturned)

/-- What is held lies in the message. -/
theorem heldAtReturn_in (json : JsonApi) (handlers : Handlers σ δ) (stack : Stack)
    {payload : Bytes} {fuel : Nat} {actions : JsonFieldOut} {device : δ} {room : Nat} :
    ∀ off ∈ heldAtReturn handlers stack (commandItems json stack payload fuel actions) device room,
      (peek? payload off).isSome := by
  intro off hoff
  obtain ⟨item, hitem, hheld⟩ := heldAtReturn_subset handlers stack hoff
  exact aliasItems_held_in json stack payload _ _ _ _ _ item hitem off hheld

theorem restores_iff_of_open {sdk : Sdk σ} {remaining : σ → Nat}
    (hbuf : FixedBuffer sdk.api remaining) (handlers : Handlers σ δ) (stack : Stack) (fuel : Nat)
    {s : CommandState σ δ} {actions : JsonFieldOut} {m : Machine σ δ}
    (hopen : openCommand sdk s = some (actions, m))
    (hreturned : (handleCommand sdk handlers stack fuel s).1 = .returned) :
    (handleCommand sdk handlers stack fuel s).2.buffer = s.buffer ↔
      ∀ off ∈ heldAtReturn handlers stack (commandItems sdk.json stack s.buffer fuel actions)
          m.device (remaining m.kii.core),
        peek? s.buffer off = some 0 := by
  rw [handleCommand_buffer hbuf handlers stack fuel hopen hreturned]
  exact heldBuffer_eq_iff (heldAtReturn_in sdk.json handlers stack)

/-- `handle_command` gives the message back as it was exactly when the bytes that
are displaced when it returns were NULs already, in particular when there are none. -/
theorem handleCommand_restores_iff {sdk : Sdk σ} {remaining : σ → Nat}
    (hbuf : FixedBuffer sdk.api remaining) (handlers : Handlers σ δ) (stack : Stack) (fuel : Nat)
    (s : CommandState σ δ) (hreturned : (handleCommand sdk handlers stack fuel s).1 = .returned) :
    (handleCommand sdk handlers stack fuel s).2.buffer = s.buffer ↔
      ∀ actions m, openCommand sdk s = some (actions, m) →
        ∀ off ∈ heldAtReturn handlers stack (commandItems sdk.json stack s.buffer fuel actions)
            m.device (remaining m.kii.core),
          peek? s.buffer off = some 0 := by
  cases hopen : openCommand sdk s with
  | none =>
      obtain ⟨-, -, -, -, hbuffer, -⟩ := handleCommand_of_not_open hopen handlers stack fuel
      refine iff_of_true hbuffer ?_
      intro actions m h
      cases h
  | some r =>
      obtain ⟨actions, m⟩ := r
      rw [restores_iff_of_open hbuf handlers stack fuel hopen hreturned]
      constructor
      · intro h actions' m' heq
        cases heq
        exact h
      · intro h
        exact h actions m rfl

theorem lamp_restores_iff :
    let sdk := referenceSdk 1000 64
    let s : CommandState Nat Nat := ⟨referenceMachine, lampCommand.render⟩
    (handleCommand sdk referenceHandlers zeroStack 64 s).2.buffer = s.buffer ↔
      ∀ actions m, openCommand sdk s = some (actions, m) →
        ∀ off ∈ heldAtReturn referenceHandlers zeroStack
            (commandItems sdk.json zeroStack s.buffer 64 actions) m.device m.kii.core,
          peek? s.buffer off = some 0 := by
  have hbuf : FixedBuffer (referenceSdk 1000 64).api id := referenceApi_fixedBuffer 1000
  have hrounds : lampCommand.val.tokenCount ≤ 64 := by decide
  have hrun := handleCommand_command hbuf (referenceJson_spec 64) referenceHandlers zeroStack
    isCommand_lamp suffices_lamp hrounds
  exact handleCommand_restores_iff hbuf referenceHandlers zeroStack 64
    ⟨referenceMachine, lampCommand.render⟩ hrun.1

/-- With a request buffer of 30 bytes the entry of the lamp is refused, and the
message keeps the NULs behind `lamp`, `on` and `true`. -/
theorem lamp_not_restored :
    let run := handleCommand (referenceSdk 30 64) referenceHandlers zeroStack 64
      ⟨referenceMachine, lampCommand.render⟩
    run.1 = .returned ∧ run.2.buffer ≠ lampCommand.render := by
  have hbuf : FixedBuffer (referenceSdk 30 64).api id := referenceApi_fixedBuffer 30
  have hjson : JsonSpec (referenceSdk 30 64).json 64 := referenceJson_spec 64
  obtain ⟨field, hopen, hstart, hstop⟩ := openCommand_fields (m := referenceMachine) hjson
    isCommand_lamp.fields (by decide) (by decide) rfl (by decide)
  have hitems := commandItems_command hjson isCommand_lamp (by decide) zeroStack
    (by decide : lampCommand.val.tokenCount ≤ 64) hstart hstop
  have hreturned := handleCommand_flow hbuf referenceHandlers zeroStack 64 hopen hitems
  rw [if_neg (by decide)] at hreturned
  refine ⟨hreturned, ?_⟩
  rw [handleCommand_buffer hbuf referenceHandlers zeroStack 64 hopen hreturned, hitems]
  decide

end ThingIfSdk
