import ThingIfSdk.Model.Command

/-!
# What the loops read and what they do

The loops of `handle_command` read a buffer that they edit while they read it.
This file separates the two.  `aliasItems` reads the message once, as it was at
entry, into a list of items: the actions to be handed out in order, and the
reason for stopping when reading goes wrong.  `perform` takes such a list and
does what the loops do to the `kii_t` and the device, with no buffer at all.

`aliasLoop_refines` is the connection: whatever the message is, the loops do
what `perform` does on the items of the original message, and the buffer they
leave is the original message with NULs at the offsets that were held when they
stopped.
-/

namespace ThingIfSdk

open ByteText JsonText

variable {σ δ : Type}

/-- The message with NULs written at the given offsets, in order. -/
def heldBuffer (payload : Bytes) (held : List Int) : Bytes :=
  held.foldl (fun m off => poke m off 0) payload

/-- What reading a message comes to next.  `held` are the offsets at which the
buffer holds a NUL at that point. -/
inductive Item where
  | action (aliasIndex actionIndex : Nat) (aliasName name value : Bytes) (held : List Int)
  | fail (held : List Int)
  | undefined
  | outOfFuel

def Item.isAction : Item → Bool
  | .action .. => true
  | _ => false

/-- The strings that the handler is given for an action found in the buffer. -/
def actionTexts (buffer : Bytes) (aliasName : Int) (kv : KeyValue) :
    Option (Bytes × Bytes × Bytes) :=
  match peek? buffer (kv.key + kv.keyLen), peek? buffer (kv.value + kv.valueLen) with
  | some _, some _ =>
      let buffer' := poke (poke buffer (kv.key + kv.keyLen) 0) (kv.value + kv.valueLen) 0
      match cstrAt? buffer' aliasName, cstrAt? buffer' kv.key, cstrAt? buffer' kv.value with
      | some aliasText, some name, some value => some (aliasText, name, value)
      | _, _, _ => none
  | _, _ => none

/-- Read the actions of one alias, from an index on. -/
def actionItems (json : JsonApi) (stack : Stack) (payload : Bytes) (aliasIndex : Nat)
    (group : KeyValue) : Nat → Nat → List Item
  | 0, _ => [.outOfFuel]
  | fuel + 1, actionIndex =>
      let aliasEnd := group.key + group.keyLen
      let buffer := poke payload aliasEnd 0
      match getKeyAndValueAtIndex json buffer group.value group.valueLen actionIndex
        (stack.tokens aliasIndex (some actionIndex)) with
      | none => [.undefined]
      | some .fail => [.fail [aliasEnd]]
      | some .finish => []
      | some (.success kv) =>
          match actionTexts buffer group.key kv with
          | none => [.undefined]
          | some (aliasText, name, value) =>
              .action aliasIndex actionIndex aliasText name value
                  [aliasEnd, kv.key + kv.keyLen, kv.value + kv.valueLen] ::
                actionItems json stack payload aliasIndex group fuel (actionIndex + 1)

/-- Read the aliases, from an index on.  Items behind the first one that is not
an action are never reached. -/
def aliasItems (json : JsonApi) (stack : Stack) (payload : Bytes)
    (aliasActionsStr aliasActionsLen : Int) (innerFuel : Nat) : Nat → Nat → List Item
  | 0, _ => [.outOfFuel]
  | fuel + 1, aliasIndex =>
      match getKeyAndValueAtIndex json payload aliasActionsStr aliasActionsLen aliasIndex
        (stack.tokens aliasIndex none) with
      | none => [.undefined]
      | some .fail => [.fail []]
      | some .finish => []
      | some (.success kv) =>
          match peek? payload (kv.key + kv.keyLen) with
          | none => [.undefined]
          | some _ =>
              actionItems json stack payload aliasIndex kv innerFuel 0 ++
                aliasItems json stack payload aliasActionsStr aliasActionsLen innerFuel fuel
                  (aliasIndex + 1)

/-- How the loops end, and the offsets held when they return early. -/
structure LoopEnd where
  flow : Flow
  held : List Int

/-- Do what the items say, up to the first that stops the loops. -/
def perform (sdk : Sdk σ) (handlers : Handlers σ δ) (stack : Stack) :
    List Item → Machine σ δ → LoopEnd × Machine σ δ
  | [], m => (⟨.finished, []⟩, m)
  | .fail held :: _, m => (⟨.returned, held⟩, m)
  | .undefined :: _, m => (⟨.undefined, []⟩, m)
  | .outOfFuel :: _, m => (⟨.outOfFuel, []⟩, m)
  | .action aliasIndex actionIndex aliasName name value held :: rest, m =>
      let r := performAction sdk handlers stack aliasIndex actionIndex aliasName name value m
      if r.1 then (⟨.returned, held⟩, r.2) else perform sdk handlers stack rest r.2

theorem perform_append (sdk : Sdk σ) (handlers : Handlers σ δ) (stack : Stack)
    (items items' : List Item) (m : Machine σ δ) :
    perform sdk handlers stack (items ++ items') m =
      if (perform sdk handlers stack items m).1.flow = .finished then
        perform sdk handlers stack items' (perform sdk handlers stack items m).2
      else perform sdk handlers stack items m := by
  induction items generalizing m with
  | nil => simp [perform]
  | cons item items ih =>
      cases item with
      | fail held => simp [perform]
      | undefined => simp [perform]
      | outOfFuel => simp [perform]
      | action i j a n v held =>
          simp only [List.cons_append, perform]
          by_cases hf : (performAction sdk handlers stack i j a n v m).1 = true
          · simp [hf]
          · simp only [hf, Bool.false_eq_true, if_false, ih]

/-! ## The loops refine the script -/

/-- The concrete run ends as the abstract one does, on the same machine.  When it
finishes, the buffer is back to `resting`; when it returns early, the buffer is
the message with NULs at the held offsets. -/
structure Refines (payload resting : Bytes) (concrete : Flow × CommandState σ δ)
    (abstract : LoopEnd × Machine σ δ) : Prop where
  flow_eq : concrete.1 = abstract.1.flow
  machine_eq : concrete.2.machine = abstract.2
  buffer_of_finished : abstract.1.flow = .finished → concrete.2.buffer = resting
  buffer_of_returned : abstract.1.flow = .returned →
    concrete.2.buffer = heldBuffer payload abstract.1.held

namespace Refines

variable (payload resting : Bytes) (m : Machine σ δ)

theorem finished :
    Refines payload resting (.finished, { machine := m, buffer := resting })
      (⟨.finished, []⟩, m) :=
  ⟨rfl, rfl, fun _ => rfl, nofun⟩

theorem returned {buffer : Bytes} {held : List Int} (h : buffer = heldBuffer payload held) :
    Refines payload resting (.returned, { machine := m, buffer := buffer })
      (⟨.returned, held⟩, m) :=
  ⟨rfl, rfl, nofun, fun _ => h⟩

theorem undefined (buffer : Bytes) (held : List Int) :
    Refines payload resting (.undefined, { machine := m, buffer := buffer })
      (⟨.undefined, held⟩, m) :=
  ⟨rfl, rfl, nofun, nofun⟩

theorem outOfFuel (buffer : Bytes) (held : List Int) :
    Refines payload resting (.outOfFuel, { machine := m, buffer := buffer })
      (⟨.outOfFuel, held⟩, m) :=
  ⟨rfl, rfl, nofun, nofun⟩

end Refines

/-- One action: the two bytes are displaced and put back, and in between the
handler is given the strings that the item holds. -/
theorem runAction_eq (sdk : Sdk σ) (handlers : Handlers σ δ) (stack : Stack) (i j : Nat)
    (buffer : Bytes) (aliasName : Int) (kv : KeyValue) (m : Machine σ δ) :
    (∀ a n v, actionTexts buffer aliasName kv = some (a, n, v) →
      runAction sdk handlers stack i j aliasName kv { machine := m, buffer := buffer } =
        let r := performAction sdk handlers stack i j a n v m
        if r.1 then
          (.returned,
            { machine := r.2
              buffer := poke (poke buffer (kv.key + kv.keyLen) 0) (kv.value + kv.valueLen) 0 })
        else (.finished, { machine := r.2, buffer := buffer })) ∧
    (actionTexts buffer aliasName kv = none →
      ∃ buffer', runAction sdk handlers stack i j aliasName kv
        { machine := m, buffer := buffer } = (.undefined, { machine := m, buffer := buffer' })) := by
  unfold actionTexts runAction
  constructor
  · intro a n v
    cases hn : peek? buffer (kv.key + kv.keyLen) with
    | none => nofun
    | some nameSwap =>
        cases hv : peek? buffer (kv.value + kv.valueLen) with
        | none => nofun
        | some valueSwap =>
            dsimp only
            -- the strings of the item are those that the source finds behind its two NULs
            cases cstrAt? (poke (poke buffer (kv.key + kv.keyLen) 0)
                (kv.value + kv.valueLen) 0) aliasName with
            | none => nofun
            | some a' =>
                cases cstrAt? (poke (poke buffer (kv.key + kv.keyLen) 0)
                    (kv.value + kv.valueLen) 0) kv.key with
                | none => nofun
                | some n' =>
                    cases cstrAt? (poke (poke buffer (kv.key + kv.keyLen) 0)
                        (kv.value + kv.valueLen) 0) kv.value with
                    | none => nofun
                    | some v' =>
                        intro h
                        cases h
                        simp only [poke_restore_two hn hv 0 0]
  · intro h
    cases hn : peek? buffer (kv.key + kv.keyLen) with
    | none => exact ⟨buffer, rfl⟩
    | some nameSwap =>
        cases hv : peek? buffer (kv.value + kv.valueLen) with
        | none => exact ⟨buffer, rfl⟩
        | some valueSwap =>
            refine ⟨poke (poke buffer (kv.key + kv.keyLen) 0) (kv.value + kv.valueLen) 0, ?_⟩
            simp only [hn, hv] at h ⊢
            cases ha : cstrAt? (poke (poke buffer (kv.key + kv.keyLen) 0)
                (kv.value + kv.valueLen) 0) aliasName with
            | none => rfl
            | some a =>
                cases hk : cstrAt? (poke (poke buffer (kv.key + kv.keyLen) 0)
                    (kv.value + kv.valueLen) 0) kv.key with
                | none => rfl
                | some n =>
                    cases hval : cstrAt? (poke (poke buffer (kv.key + kv.keyLen) 0)
                        (kv.value + kv.valueLen) 0) kv.value with
                    | none => rfl
                    | some v =>
                        simp only [ha, hk, hval] at h
                        cases h

/-- The inner loop.  The induction is on the fuel; the invariant is that every
round starts on the message with the alias terminated. -/
theorem actionLoop_refines (sdk : Sdk σ) (handlers : Handlers σ δ) (stack : Stack)
    (payload : Bytes) (aliasIndex : Nat) (group : KeyValue) (fuel actionIndex : Nat)
    (m : Machine σ δ) :
    Refines payload (poke payload (group.key + group.keyLen) 0)
      (actionLoop sdk handlers stack aliasIndex group.key group.value group.valueLen fuel
        actionIndex { machine := m, buffer := poke payload (group.key + group.keyLen) 0 })
      (perform sdk handlers stack
        (actionItems sdk.json stack payload aliasIndex group fuel actionIndex) m) := by
  induction fuel generalizing actionIndex m with
  | zero => exact Refines.outOfFuel payload _ m _ _
  | succ fuel ih =>
      simp only [actionLoop, actionItems]
      cases hread : getKeyAndValueAtIndex sdk.json (poke payload (group.key + group.keyLen) 0)
        group.value group.valueLen actionIndex (stack.tokens aliasIndex (some actionIndex)) with
      | none => exact Refines.undefined payload _ m _ _
      | some answer =>
          cases answer with
          | fail => exact Refines.returned payload _ m rfl
          | finish => exact Refines.finished payload _ m
          | success kv =>
              obtain ⟨hsome, hnone⟩ :=
                runAction_eq sdk handlers stack aliasIndex actionIndex
                  (poke payload (group.key + group.keyLen) 0) group.key kv m
              cases htexts :
                  actionTexts (poke payload (group.key + group.keyLen) 0) group.key kv with
              | none =>
                  obtain ⟨buffer', hrun⟩ := hnone htexts
                  simp only [hrun, htexts]
                  exact Refines.undefined payload _ m _ _
              | some texts =>
                  obtain ⟨a, n, v⟩ := texts
                  have hrun := hsome a n v htexts
                  simp only [hrun, htexts, perform]
                  by_cases hf :
                      (performAction sdk handlers stack aliasIndex actionIndex a n v m).1 = true
                  · simp only [hf, if_true]
                    exact Refines.returned payload _ _ rfl
                  · simp only [hf, Bool.false_eq_true, if_false]
                    exact ih (actionIndex + 1) _

/-- The loops do what `perform` does on the items of the message as it was. -/
theorem aliasLoop_refines (sdk : Sdk σ) (handlers : Handlers σ δ) (stack : Stack)
    (payload : Bytes) (aliasActionsStr aliasActionsLen : Int) (innerFuel fuel aliasIndex : Nat)
    (m : Machine σ δ) :
    Refines payload payload
      (aliasLoop sdk handlers stack aliasActionsStr aliasActionsLen innerFuel fuel aliasIndex
        { machine := m, buffer := payload })
      (perform sdk handlers stack
        (aliasItems sdk.json stack payload aliasActionsStr aliasActionsLen innerFuel fuel
          aliasIndex) m) := by
  induction fuel generalizing aliasIndex m with
  | zero => exact Refines.outOfFuel payload _ m _ _
  | succ fuel ih =>
      simp only [aliasLoop, aliasItems]
      cases hread : getKeyAndValueAtIndex sdk.json payload aliasActionsStr aliasActionsLen
        aliasIndex (stack.tokens aliasIndex none) with
      | none => exact Refines.undefined payload _ m _ _
      | some answer =>
          cases answer with
          | fail => exact Refines.returned payload _ m rfl
          | finish => exact Refines.finished payload _ m
          | success kv =>
              simp only [runAlias]
              cases hpeek : peek? payload (kv.key + kv.keyLen) with
              | none => exact Refines.undefined payload _ m _ _
              | some aliasNameSwap =>
                  have hinner :=
                    actionLoop_refines sdk handlers stack payload aliasIndex kv innerFuel 0 m
                  simp only [perform_append]
                  -- Only what the refinement says of the inner loop is needed of it.
                  generalize actionLoop sdk handlers stack aliasIndex kv.key kv.value kv.valueLen
                    innerFuel 0 { machine := m, buffer := poke payload (kv.key + kv.keyLen) 0 } =
                      concrete at hinner ⊢
                  generalize perform sdk handlers stack
                    (actionItems sdk.json stack payload aliasIndex kv innerFuel 0) m =
                      abstract at hinner ⊢
                  obtain ⟨flow, machine, buffer⟩ := concrete
                  obtain ⟨⟨flow', held⟩, m'⟩ := abstract
                  obtain ⟨hflow, hmachine, hfinished, hreturned⟩ := hinner
                  simp only at hflow hmachine
                  subst hflow
                  subst hmachine
                  cases flow with
                  | finished =>
                      -- The byte behind the alias is put back before the next round.
                      have hbuffer : buffer = poke payload (kv.key + kv.keyLen) 0 := hfinished rfl
                      simp only [if_true, hbuffer, poke_poke_restore hpeek]
                      exact ih (aliasIndex + 1) machine
                  | returned => exact Refines.returned payload _ machine (hreturned rfl)
                  | undefined => exact Refines.undefined payload _ machine _ _
                  | outOfFuel => exact Refines.outOfFuel payload _ machine _ _

end ThingIfSdk
