import ThingIfSdk.Command.Script
import ThingIfSdk.Model.Log

/-!
# What performing actions comes to

`entries` says which results a list of items has, given the handler and the
device; it mentions neither the buffer that the results are written to nor the
submodule.  With a request buffer of fixed size, `perform` does exactly what the
entries say as long as their text fits, and returns early when it does not.
-/

namespace ThingIfSdk

open ByteText JsonText Monitoring

variable {σ δ : Type}

/-- One entry of the results: the handler call behind it and what it reported. -/
structure Entry where
  aliasIndex : Nat
  actionIndex : Nat
  aliasName : Bytes
  actionName : Bytes
  actionParams : Bytes
  errorMessage : Option Bytes

/-- The pieces that stand between two braces and the name of an action. -/
def entryPieces (name : Bytes) (errorMessage : Option Bytes) : List Bytes :=
  [ascii "\x7b\"", name, ascii "\":\x7b"] ++
    (memberPieces (ascii "succeeded")
        (if errorMessage.isNone then ascii "true" else ascii "false") false false ++
      (optionalPieces (ascii "errorMessage") errorMessage true true ++ [ascii "\x7d\x7d"]))

/-- The comma, which the source decides from the two indices. -/
def separatorPieces (aliasIndex actionIndex : Nat) : List Bytes :=
  if 0 < aliasIndex ∨ 0 < actionIndex then [ascii ","] else []

def Entry.pieces (e : Entry) : List Bytes :=
  separatorPieces e.aliasIndex e.actionIndex ++ entryPieces e.actionName e.errorMessage

def Entry.event (e : Entry) : Event :=
  .action e.aliasName e.actionName e.actionParams e.errorMessage

/-- The log of a call whose entry was accepted. -/
def Entry.log (e : Entry) : List Event :=
  e.event :: accepted e.pieces

/-- The strings that the handler was given. -/
def Entry.call (e : Entry) : Bytes × Bytes × Bytes :=
  (e.aliasName, e.actionName, e.actionParams)

/-- The text of entries, as the loops append it. -/
def entriesText (es : List Entry) : Bytes :=
  (es.flatMap Entry.pieces).flatten

/-- The entries of the actions at the front of a list of items, and the device
that their handler calls leave. -/
def entries (handlers : Handlers σ δ) (stack : Stack) : List Item → δ → List Entry × δ
  | .action i j a n v _ :: rest, device =>
      let r := callHandler handlers stack i j a n v device
      let t := entries handlers stack rest r.2
      (⟨i, j, a, n, v, r.1⟩ :: t.1, t.2)
  | _, device => ([], device)

/-- How the loops end when everything fits. -/
def loopEnd : List Item → LoopEnd
  | [] => ⟨.finished, []⟩
  | .action .. :: rest => loopEnd rest
  | .fail held :: _ => ⟨.returned, held⟩
  | .undefined :: _ => ⟨.undefined, []⟩
  | .outOfFuel :: _ => ⟨.outOfFuel, []⟩

/-- What the action handler is given: three strings and the error array as it is. -/
structure HandlerArgs where
  aliasName : Bytes
  actionName : Bytes
  actionParams : Bytes
  error : ErrorBuff

def HandlerArgs.call (args : HandlerArgs) : Bytes × Bytes × Bytes :=
  (args.aliasName, args.actionName, args.actionParams)

/-- The device that one call of the action handler leaves. -/
def Handlers.act (handlers : Handlers σ δ) (device : δ) (args : HandlerArgs) : δ :=
  (handlers.actionHandler device args.aliasName args.actionName args.actionParams
    args.error).device

def Item.args (stack : Stack) : Item → Option HandlerArgs
  | .action i j a n v _ => some ⟨a, n, v, stack.error i j⟩
  | _ => none

@[simp] theorem entriesText_nil : entriesText [] = [] := rfl

theorem entriesText_cons (e : Entry) (es : List Entry) :
    entriesText (e :: es) = e.pieces.flatten ++ entriesText es := by
  simp [entriesText]

/-- Items that are all actions leave the device on which the handler was called for
each of them in turn. -/
theorem entries_device (handlers : Handlers σ δ) (stack : Stack) {items : List Item}
    (hend : (loopEnd items).flow = .finished) (device : δ) :
    (entries handlers stack items device).2 =
      (items.filterMap (Item.args stack)).foldl handlers.act device := by
  induction items generalizing device with
  | nil => rfl
  | cons item items ih =>
      cases item with
      | action i j a n v held =>
          rw [List.filterMap_cons_some (show Item.args stack _ = some _ from rfl), entries,
            List.foldl_cons, ih hend]
          rfl
      | fail | undefined | outOfFuel => cases hend

/-! ## One action -/

theorem resultBody_pieces (sdk : Sdk σ) (name : Bytes) (errorMessage : Option Bytes)
    (kii : Kii σ) :
    anyFails (resultBody sdk name errorMessage) kii =
      appendPieces sdk (entryPieces name errorMessage) kii := by
  have h : List.Forall₂ (Appends sdk) (resultBody sdk name errorMessage)
      [[ascii "\x7b\""], [name], [ascii "\":\x7b"],
        memberPieces (ascii "succeeded")
          (if errorMessage.isNone then ascii "true" else ascii "false") false false,
        optionalPieces (ascii "errorMessage") errorMessage true true, [ascii "\x7d\x7d"]] :=
    .cons (appends_body sdk _) (.cons (appends_body sdk _) (.cons (appends_body sdk _)
      (.cons (appends_keyValueBool sdk _ _ _) (.cons (appends_keyValueStringOptional sdk _ _ _)
        (.cons (appends_body sdk _) .nil)))))
  rw [anyFails_appends h]
  rfl

/-- A piece of the body appended by the SDK. -/
def Event.isAppend : Event → Bool
  | .appendBody .. => true
  | _ => false

theorem isSilent_of_isAppend {e : Event} (h : e.isAppend = true) : e.isSilent = true := by
  cases e with
  | appendBody => rfl
  | _ => cases h

theorem isAppend_of_mem_accepted {pieces : List Bytes} {e : Event} (h : e ∈ accepted pieces) :
    e.isAppend = true := by
  simp only [accepted, List.mem_map] at h
  obtain ⟨p, _, rfl⟩ := h
  rfl

theorem assertion_not_mem_of_appends {es : List Event} (h : ∀ e ∈ es, e.isAppend = true) :
    .assertion ∉ es :=
  fun he => Bool.false_ne_true (h _ he)

theorem appendPieces_appends (sdk : Sdk σ) (pieces : List Bytes) (kii : Kii σ) :
    ∃ es, kii.Adds (appendPieces sdk pieces kii).2 es ∧ ∀ e ∈ es, e.isAppend = true := by
  have h := appendPieces_effect sdk pieces kii
  cases hf : (appendPieces sdk pieces kii).1 with
  | false => exact ⟨_, h.done hf, fun _ he => isAppend_of_mem_accepted he⟩
  | true =>
      obtain ⟨front, p, back, ret, rfl, _, hadd⟩ := h.refused hf
      refine ⟨_, hadd, ?_⟩
      intro e he
      rw [List.mem_append, List.mem_singleton] at he
      rcases he with he | rfl
      · exact isAppend_of_mem_accepted he
      · rfl

/-- The comma that precedes an entry, with its refusal ignored. -/
def appendSeparator (sdk : Sdk σ) (i j : Nat) (kii : Kii σ) : Kii σ :=
  if 0 < i ∨ 0 < j then (kiiApiCallAppendBody sdk (ascii ",") kii).2 else kii

theorem appendSeparator_eq (sdk : Sdk σ) (i j : Nat) (kii : Kii σ) :
    appendSeparator sdk i j kii = (appendPieces sdk (separatorPieces i j) kii).2 := by
  unfold appendSeparator separatorPieces
  by_cases h : 0 < i ∨ 0 < j
  · rw [if_pos h, if_pos h, appendPieces_cons]
    split <;> rfl
  · rw [if_neg h, if_neg h]
    rfl

theorem performAction_eq (sdk : Sdk σ) (handlers : Handlers σ δ) (stack : Stack) (i j : Nat)
    (a n v : Bytes) (m : Machine σ δ) :
    performAction sdk handlers stack i j a n v m =
      let r := callHandler handlers stack i j a n v m.device
      let body := appendPieces sdk (entryPieces n r.1)
        (appendSeparator sdk i j (m.kii.emit (.action a n v r.1)))
      (body.1, { kii := body.2, device := r.2 }) := by
  simp only [performAction, resultBody_pieces]
  rfl

theorem appendSeparator_appends (sdk : Sdk σ) (i j : Nat) (kii : Kii σ) :
    ∃ es, kii.Adds (appendSeparator sdk i j kii) es ∧ ∀ e ∈ es, e.isAppend = true := by
  unfold appendSeparator
  by_cases hsep : 0 < i ∨ 0 < j
  · rw [if_pos hsep]
    refine ⟨_, adds_append sdk _ kii, ?_⟩
    intro e he
    rw [List.mem_singleton] at he
    rw [he]
    rfl
  · rw [if_neg hsep]
    exact ⟨[], .refl kii, by simp⟩

/-- Whatever comes of an action, the log shows the handler call and then appends. -/
theorem performAction_adds (sdk : Sdk σ) (handlers : Handlers σ δ) (stack : Stack) (i j : Nat)
    (a n v : Bytes) (m : Machine σ δ) :
    ∃ es, m.kii.Adds (performAction sdk handlers stack i j a n v m).2.kii
        (.action a n v (callHandler handlers stack i j a n v m.device).1 :: es) ∧
      ∀ e ∈ es, e.isAppend = true := by
  rw [performAction_eq]
  generalize callHandler handlers stack i j a n v m.device = r
  obtain ⟨es, hes, happend⟩ := appendSeparator_appends sdk i j (m.kii.emit (.action a n v r.1))
  obtain ⟨es', hes', happend'⟩ := appendPieces_appends sdk (entryPieces n r.1)
    (appendSeparator sdk i j (m.kii.emit (.action a n v r.1)))
  refine ⟨es ++ es', (Kii.Adds.emit _ _).trans (hes.trans hes'), ?_⟩
  intro e he
  rcases List.mem_append.mp he with he | he
  · exact happend e he
  · exact happend' e he

section FixedBuffer

variable {sdk : Sdk σ} {remaining : σ → Nat}

/-- An entry that fits is appended as a whole. -/
theorem performAction_fits (hbuf : FixedBuffer sdk.api remaining) (handlers : Handlers σ δ)
    (stack : Stack) {i j : Nat} {a n v : Bytes} {m : Machine σ δ} {e : Entry}
    (he : e = ⟨i, j, a, n, v, (callHandler handlers stack i j a n v m.device).1⟩)
    (hle : e.pieces.flatten.length ≤ remaining m.kii.core) :
    let r := performAction sdk handlers stack i j a n v m
    r.1 = false ∧ m.kii.Adds r.2.kii e.log ∧
      r.2.device = (callHandler handlers stack i j a n v m.device).2 ∧
      remaining r.2.kii.core = remaining m.kii.core - e.pieces.flatten.length := by
  subst he
  simp only [performAction_eq]
  generalize callHandler handlers stack i j a n v m.device = r at hle ⊢
  have hsep := appendSeparator_eq sdk i j (m.kii.emit (.action a n v r.1))
  simp only [Entry.pieces, List.flatten_append, List.length_append] at hle ⊢
  have hemit := Kii.Adds.emit m.kii (.action a n v r.1)
  obtain ⟨hok, hrem⟩ := hbuf.appendPieces_fits (separatorPieces i j)
    (m.kii.emit (.action a n v r.1)) (by simp only [Kii.emit_core]; omega)
  have hadd := (appendPieces_effect sdk _ _).done hok
  rw [Kii.emit_core] at hrem
  rw [hsep]
  obtain ⟨hok', hrem'⟩ := hbuf.appendPieces_fits (entryPieces n r.1)
    (appendPieces sdk (separatorPieces i j) (m.kii.emit (.action a n v r.1))).2 (by omega)
  have hadd' := (appendPieces_effect sdk _ _).done hok'
  refine ⟨hok', ?_, trivial, by omega⟩
  have h := hemit.trans (hadd.trans hadd')
  rw [← accepted_append] at h
  exact h

/-- An entry that does not fit makes the loops return; a refused comma does not
save it, since nothing fits behind one. -/
theorem performAction_overflows (hbuf : FixedBuffer sdk.api remaining) (handlers : Handlers σ δ)
    (stack : Stack) {i j : Nat} {a n v : Bytes} {m : Machine σ δ} {e : Entry}
    (he : e = ⟨i, j, a, n, v, (callHandler handlers stack i j a n v m.device).1⟩)
    (hlt : remaining m.kii.core < e.pieces.flatten.length) :
    (performAction sdk handlers stack i j a n v m).1 = true := by
  subst he
  simp only [performAction_eq]
  generalize callHandler handlers stack i j a n v m.device = r at hlt ⊢
  simp only [Entry.pieces, List.flatten_append, List.length_append] at hlt
  apply hbuf.appendPieces_refused
  unfold appendSeparator separatorPieces at *
  have hentry : 1 < (entryPieces n r.1).flatten.length := by
    simp only [entryPieces, List.cons_append, List.flatten_cons, List.length_append]
    have : (ascii "\x7b\"").length = 2 := rfl
    omega
  have hcomma : (ascii ",").length = 1 := rfl
  by_cases h : 0 < i ∨ 0 < j
  · rw [if_pos h] at hlt ⊢
    simp only [List.flatten_cons, List.flatten_nil, List.append_nil, hcomma] at hlt
    by_cases hroom : 1 ≤ remaining m.kii.core
    · have := (hbuf.append_fits (m.kii.emit (.action a n v r.1)) (ascii ",")
        (by rw [hcomma]; exact hroom)).2
      rw [this, hcomma, Kii.emit_core]
      omega
    · have := (hbuf.append_refused (m.kii.emit (.action a n v r.1)) (ascii ",")
        (by rw [hcomma, Kii.emit_core]; omega)).2
      rw [this, Kii.emit_core]
      omega
  · rw [if_neg h] at hlt ⊢
    simpa using hlt

end FixedBuffer

/-! ## A list of items -/

/-- Whatever comes of the items, the log grows by handler calls and appends, and
it starts with a handler call when the items do.  No state handler is called. -/
theorem perform_adds (sdk : Sdk σ) (handlers : Handlers σ δ) (stack : Stack)
    (items : List Item) (m : Machine σ δ) :
    ∃ es, m.kii.Adds (perform sdk handlers stack items m).2.kii es ∧
      (∀ e ∈ es, e.isRun = false) ∧
      (handlerCalls es = [] ↔ (entries handlers stack items m.device).1 = []) ∧
      .assertion ∉ es ∧ ∀ ret, .stateHandler ret ∉ es := by
  induction items generalizing m with
  | nil => exact ⟨[], .refl _, by simp, by simp [entries], List.not_mem_nil, by simp⟩
  | cons item items ih =>
      cases item with
      | fail held => exact ⟨[], .refl _, by simp, by simp [entries], List.not_mem_nil, by simp⟩
      | undefined => exact ⟨[], .refl _, by simp, by simp [entries], List.not_mem_nil, by simp⟩
      | outOfFuel => exact ⟨[], .refl _, by simp, by simp [entries], List.not_mem_nil, by simp⟩
      | action i j a n v held =>
          obtain ⟨es, hadd, happend⟩ := performAction_adds sdk handlers stack i j a n v m
          have hassert : .assertion ∉ (.action a n v
              (callHandler handlers stack i j a n v m.device).1 :: es : List Event) := by
            intro he
            rcases List.mem_cons.mp he with h | he
            · cases h
            · exact assertion_not_mem_of_appends happend he
          have hstate : ∀ ret, .stateHandler ret ∉ (.action a n v
              (callHandler handlers stack i j a n v m.device).1 :: es : List Event) := by
            intro ret he
            rcases List.mem_cons.mp he with h | he
            · cases h
            · exact Bool.false_ne_true (happend _ he)
          have hrun : ∀ e ∈ (.action a n v (callHandler handlers stack i j a n v m.device).1 ::
              es : List Event), e.isRun = false := by
            intro e he
            rcases List.mem_cons.mp he with rfl | he
            · rfl
            · exact isRun_of_silent (isSilent_of_isAppend (happend e he))
          simp only [perform]
          -- An entry that is refused ends the items; an accepted one goes on to the next.
          by_cases hf : (performAction sdk handlers stack i j a n v m).1 = true
          · rw [if_pos hf]
            exact ⟨_, hadd, hrun, by simp [entries, handlerCalls, Event.handlerCall], hassert,
              hstate⟩
          · rw [if_neg hf]
            obtain ⟨es', hadd', hrun', -, hassert', hstate'⟩ :=
              ih (performAction sdk handlers stack i j a n v m).2
            refine ⟨_, hadd.trans hadd', ?_, by simp [entries, handlerCalls, Event.handlerCall],
              fun he => ?_, fun ret he => ?_⟩
            · intro e he
              rcases List.mem_append.mp he with he | he
              · exact hrun e he
              · exact hrun' e he
            · rcases List.mem_append.mp he with he | he
              · exact hassert he
              · exact hassert' he
            · rcases List.mem_append.mp he with he | he
              · exact hstate ret he
              · exact hstate' ret he

section FixedBuffer

variable {sdk : Sdk σ} {remaining : σ → Nat}

/-- Entries that fit together are all appended, and the loops end as the items do. -/
theorem perform_fits (hbuf : FixedBuffer sdk.api remaining) (handlers : Handlers σ δ)
    (stack : Stack) {items : List Item} {m : Machine σ δ}
    (hle : (entriesText (entries handlers stack items m.device).1).length ≤
      remaining m.kii.core) :
    let r := perform sdk handlers stack items m
    let es := entries handlers stack items m.device
    r.1 = loopEnd items ∧ m.kii.Adds r.2.kii (es.1.flatMap Entry.log) ∧ r.2.device = es.2 ∧
      remaining r.2.kii.core = remaining m.kii.core - (entriesText es.1).length := by
  induction items generalizing m with
  | nil => exact ⟨rfl, .refl _, rfl, rfl⟩
  | cons item items ih =>
      cases item with
      | fail held => exact ⟨rfl, .refl _, rfl, rfl⟩
      | undefined => exact ⟨rfl, .refl _, rfl, rfl⟩
      | outOfFuel => exact ⟨rfl, .refl _, rfl, rfl⟩
      | action i j a n v held =>
          simp only [entries, entriesText_cons, List.length_append] at hle ⊢
          have hentry := performAction_fits hbuf handlers stack (i := i) (j := j) (a := a) (n := n)
            (v := v) (m := m) rfl (by omega)
          obtain ⟨hok, hadd, hdev, hrem⟩ := hentry
          simp only [perform, hok, Bool.false_eq_true, if_false, loopEnd]
          rw [← hdev] at hle ⊢
          obtain ⟨hend, hadd', hdev', hrem'⟩ :=
            ih (m := (performAction sdk handlers stack i j a n v m).2) (by omega)
          refine ⟨hend, ?_, hdev', by omega⟩
          rw [List.flatMap_cons]
          exact hadd.trans hadd'

/-- Entries that do not fit together make the loops return. -/
theorem perform_overflows (hbuf : FixedBuffer sdk.api remaining) (handlers : Handlers σ δ)
    (stack : Stack) {items : List Item} {m : Machine σ δ}
    (hlt : remaining m.kii.core <
      (entriesText (entries handlers stack items m.device).1).length) :
    (perform sdk handlers stack items m).1.flow = .returned := by
  induction items generalizing m with
  | nil => simp [entries] at hlt
  | cons item items ih =>
      cases item with
      | fail held => simp [entries] at hlt
      | undefined => simp [entries] at hlt
      | outOfFuel => simp [entries] at hlt
      | action i j a n v held =>
          simp only [entries, entriesText_cons, List.length_append] at hlt
          simp only [perform]
          by_cases hf : (performAction sdk handlers stack i j a n v m).1 = true
          · rw [if_pos hf]
          · rw [if_neg hf]
            have hle : (Entry.pieces
                ⟨i, j, a, n, v, (callHandler handlers stack i j a n v m.device).1⟩).flatten.length ≤
                remaining m.kii.core := by
              by_contra hgt
              exact hf (performAction_overflows hbuf handlers stack rfl (by omega))
            obtain ⟨_, _, hdev, hrem⟩ := performAction_fits hbuf handlers stack (m := m) rfl hle
            apply ih
            rw [hdev]
            omega

end FixedBuffer

end ThingIfSdk
