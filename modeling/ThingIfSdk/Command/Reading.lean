import ThingIfSdk.Command.Parsers
import ThingIfSdk.Command.Transcript

/-!
# Reading a command from its tree

What `get_key_and_value_at_index` answers on an array whose tree is known, and
from it the items of a message that is a command.  The buffer need not be the
message itself: it only has to hold the array where the message holds it, which
is the case while the name of the alias is terminated.
-/

namespace ThingIfSdk

open ByteText JsonText

variable {json : JsonApi} {budget : Nat}

/-! ## One element -/

/-- The key and the value of a member of an object that lies at `base`. -/
def keyValueOf (base : Nat) (m : Member) : KeyValue where
  key := (base + m.keyOff : Nat)
  keyLen := (m.key.raw.length : Nat)
  value := (base + (m.valOff + m.val.tokenPad) : Nat)
  valueLen := (m.val.tokenText.length : Nat)

/-- Splitting a nonempty object finds its first member. -/
theorem keyAndValueFromJson_members (hjson : JsonSpec json budget) {v : Value} {m : Member}
    {rest : List Member} (hm : v.members = some (m :: rest)) (htok : v.tokenCount ≤ budget)
    (base : Nat) (stale : Nat → Token) :
    prvKiiThingIfGetKeyAndValueFromJson json v.render base stale = some (keyValueOf base m) := by
  cases v with
  | obj ms =>
      obtain ⟨m', rest', toks, hparts, htoks⟩ := ms.tokens_obj
      have hm' : m' :: rest' = m :: rest := by
        rw [← hparts]
        exact Option.some.inj hm
      cases hm'
      unfold prvKiiThingIfGetKeyAndValueFromJson
      rw [hjson.tokens (.obj ms) stale rfl htok, htoks]
      have h0 : (0 : Int) ≤ ((Value.obj ms).tokenCount : Nat) := by omega
      simp only [if_pos h0, List.getElem?_cons_zero, List.getElem?_cons_succ, Option.getD_some,
        Value.token, Value.kind, keyToken, ne_eq, not_true_eq_false, if_false]
      simp only [keyValueOf, Option.some.injEq, KeyValue.mk.injEq]
      refine ⟨?_, ?_, ?_, ?_⟩ <;> omega
  | prim | str | arrNil | arr => cases hm
  | objNil pad =>
      simp only [Value.members, Option.some.injEq] at hm
      cases hm

/-- Splitting an empty object looks at tokens that the parse did not write. -/
theorem keyAndValueFromJson_objNil (hjson : JsonSpec json budget) (pad : Ws)
    (htok : 1 ≤ budget) (base : Int) (stale : Nat → Token) :
    prvKiiThingIfGetKeyAndValueFromJson json (Value.objNil pad).render base stale =
      if (stale 1).kind ≠ .string then none
      else some
        { key := base + (stale 1).start
          keyLen := (stale 1).stop - (stale 1).start
          value := base + (stale 2).start
          valueLen := (stale 2).stop - (stale 2).start } := by
  unfold prvKiiThingIfGetKeyAndValueFromJson
  rw [hjson.tokens (.objNil pad) stale rfl htok]
  simp [Value.tokens, Value.tokenCount, Value.token, Value.kind]

section Element

variable (hjson : JsonSpec json budget) {buffer : Bytes} {off : Nat} {v : Value}
  (hocc : OccursAt buffer off v.render) (htok : v.tokenCount ≤ budget)
  {l : List (Nat × Value)} (hl : v.elements = some l)
include hjson hocc htok hl

/-- An element that is an object is split. -/
theorem getKeyAndValueAtIndex_object {k o : Nat} {e : Value} (hk : l[k]? = some (o, e))
    (he : e.kind = .object) (stale : Nat → Token) :
    getKeyAndValueAtIndex json buffer off v.render.length k stale =
      match prvKiiThingIfGetKeyAndValueFromJson json e.render ((off + o : Nat) : Int) stale with
      | none => some .fail
      | some kv => some (.success kv) := by
  obtain ⟨hsuccess, hstart, hstop⟩ := hjson.element v l k o e htok hl hk he
  have hitem := (hocc.trans (Value.elements_occur hl (List.mem_of_getElem? hk))).slice?_eq
  have hbase : ((off : Nat) : Int) + (o : Nat) = ((off + o : Nat) : Int) := by omega
  have hlen : ((o + e.render.length : Nat) : Int) - (o : Nat) = (e.render.length : Nat) := by
    omega
  unfold getKeyAndValueAtIndex
  cases hkv : prvKiiThingIfGetKeyAndValueFromJson json e.render ((off + o : Nat) : Int) stale with
  | none => simp only [hocc.slice?_eq, hsuccess, hstart, hstop, hbase, hlen, hitem, hkv]
  | some kv => simp only [hocc.slice?_eq, hsuccess, hstart, hstop, hbase, hlen, hitem, hkv]

/-- An element that is a nonempty object is found by its first member. -/
theorem getKeyAndValueAtIndex_member {k o : Nat} {e : Value} (hk : l[k]? = some (o, e))
    {m : Member} {rest : List Member} (hm : e.members = some (m :: rest))
    (stale : Nat → Token) :
    getKeyAndValueAtIndex json buffer off v.render.length k stale =
      some (.success (keyValueOf (off + o) m)) := by
  have he : e.kind = .object := by
    cases e with
    | obj | objNil => rfl
    | prim | str | arr | arrNil => cases hm
  have hlt := Value.tokenCount_elements hl (List.mem_of_getElem? hk)
  rw [getKeyAndValueAtIndex_object hjson hocc htok hl hk he stale,
    keyAndValueFromJson_members hjson hm (by omega)]

omit hl in
/-- Where there is no object at an index, the answer is that the array has ended. -/
theorem getKeyAndValueAtIndex_finish {k : Nat} (hv : v.kind = .array ∨ v.kind = .object)
    (hk : ∀ l o e, v.elements = some l → l[k]? = some (o, e) → e.kind ≠ .object)
    (stale : Nat → Token) :
    getKeyAndValueAtIndex json buffer off v.render.length k stale = some .finish := by
  have hpartial := hjson.noElement v k htok hv hk
  unfold getKeyAndValueAtIndex
  simp only [hocc.slice?_eq, hpartial]

/-- Behind the last element. -/
theorem getKeyAndValueAtIndex_end {k : Nat} (hk : l.length ≤ k) (stale : Nat → Token) :
    getKeyAndValueAtIndex json buffer off v.render.length k stale = some .finish := by
  apply getKeyAndValueAtIndex_finish hjson hocc htok (.inl (Value.kind_of_elements hl))
  intro l' o e hl' hk'
  rw [hl] at hl'
  cases hl'
  rw [List.getElem?_eq_none hk] at hk'
  cases hk'

end Element

/-! ## The strings of an action -/

/-- The handler is given the name of the alias, which is terminated already, and
the raw texts of the key and of the value. -/
theorem actionTexts_member {buffer : Bytes} {aliasOff base : Nat} {aliasName : Bytes}
    {e : Value} {m : Member} {rest : List Member} (hm : e.members = some (m :: rest))
    (halias : OccursAt buffer aliasOff (aliasName ++ [0])) (hnul : (0 : Byte) ∉ aliasName)
    (hocc : OccursAt buffer base e.render) (hbefore : aliasOff + aliasName.length < base) :
    actionTexts buffer aliasOff (keyValueOf base m) =
      some (aliasName, m.key.raw, m.val.tokenText) := by
  have hmem := Value.members_occur hm List.mem_cons_self
  obtain ⟨b, htoken⟩ := hmem.token
  have hname := hocc.trans hmem.key
  have hvalue := hocc.trans htoken
  have horder := hmem.order
  have hkeyEnd : (keyValueOf base m).key + (keyValueOf base m).keyLen =
      ((base + m.keyOff + m.key.raw.length : Nat) : Int) := by
    simp only [keyValueOf]
    omega
  have hvalEnd : (keyValueOf base m).value + (keyValueOf base m).valueLen =
      ((base + (m.valOff + m.val.tokenPad) + m.val.tokenText.length : Nat) : Int) := by
    simp only [keyValueOf]
    omega
  have hpeek := hname.peek?_next
  have hpeek' := hvalue.peek?_next
  -- the three strings, in the buffer with both terminators written
  have halias' : OccursAt (poke (poke buffer
      ((base + m.keyOff + m.key.raw.length : Nat) : Int) 0)
      ((base + (m.valOff + m.val.tokenPad) + m.val.tokenText.length : Nat) : Int) 0)
      aliasOff (aliasName ++ [0]) := by
    apply OccursAt.poke_outside
    · apply OccursAt.poke_outside halias
      right
      simp only [List.length_append, List.length_singleton]
      omega
    · right
      simp only [List.length_append, List.length_singleton]
      omega
  have hname' : OccursAt (poke (poke buffer
      ((base + m.keyOff + m.key.raw.length : Nat) : Int) 0)
      ((base + (m.valOff + m.val.tokenPad) + m.val.tokenText.length : Nat) : Int) 0)
      (base + m.keyOff) (m.key.raw ++ [0]) := by
    apply OccursAt.poke_outside (hname.poke_next 0)
    right
    simp only [List.length_append, List.length_singleton]
    omega
  have hvalue' : OccursAt (poke (poke buffer
      ((base + m.keyOff + m.key.raw.length : Nat) : Int) 0)
      ((base + (m.valOff + m.val.tokenPad) + m.val.tokenText.length : Nat) : Int) 0)
      (base + (m.valOff + m.val.tokenPad)) (m.val.tokenText ++ [0]) := by
    apply OccursAt.poke_next
    apply OccursAt.poke_outside hvalue
    left
    omega
  unfold actionTexts
  rw [hkeyEnd, hvalEnd, hpeek, hpeek']
  simp only [keyValueOf, halias'.cstrAt?_eq hnul, hname'.cstrAt?_eq m.key.nul_not_mem_raw,
    hvalue'.cstrAt?_eq m.val.nul_not_mem_tokenText]

/-! ## The items of a command -/

/-- An alias of a command: where its object starts in the array of actions, its
only member, and the only members of the objects in its array. -/
structure CommandAlias where
  off : Nat
  member : Member
  actions : List (Nat × Member)

/-- The aliases of an array of actions, when all of its elements are one-member
objects of arrays of one-member objects. -/
def commandAliases (actions : Value) : Option (List CommandAlias) :=
  match actions.singles with
  | some l => l.mapM fun x => x.2.val.singles.map fun acts => ⟨x.1, x.2, acts⟩
  | none => none

/-- The handler calls that an alias asks for. -/
def CommandAlias.calls (a : CommandAlias) : List (Bytes × Bytes × Bytes) :=
  a.actions.map fun x => (a.member.key.raw, x.2.key.raw, x.2.val.tokenText)

/-- The handler calls that a command asks for, in document order. -/
def commandCalls (aliases : List CommandAlias) : List (Bytes × Bytes × Bytes) :=
  aliases.flatMap CommandAlias.calls

/-- What the handler is to be given for the actions of the `i`-th alias. -/
def CommandAlias.args (stack : Stack) (i : Nat) (a : CommandAlias) : List HandlerArgs :=
  a.actions.mapIdx fun j x =>
    ⟨a.member.key.raw, x.2.key.raw, x.2.val.tokenText, stack.error i j⟩

/-- What the handler is to be given for a command, in document order. -/
def commandArgs (stack : Stack) (aliases : List CommandAlias) : List HandlerArgs :=
  (aliases.mapIdx (CommandAlias.args stack)).flatten

/-- The item of an action that lies at `base`, in the alias of `group`. -/
def itemOf (aliasName : Bytes) (group : KeyValue) (i j base : Nat) (m : Member) : Item :=
  let kv := keyValueOf base m
  .action i j aliasName m.key.raw m.val.tokenText
    [group.key + group.keyLen, kv.key + kv.keyLen, kv.value + kv.valueLen]

/-- The items of the actions of an alias, from the `j`-th on; its array lies at
`base`. -/
def itemsOfActions (aliasName : Bytes) (group : KeyValue) (i base : Nat) :
    Nat → List (Nat × Member) → List Item
  | _, [] => []
  | j, x :: rest =>
      itemOf aliasName group i j (base + x.1) x.2 ::
        itemsOfActions aliasName group i base (j + 1) rest

/-- The items of the aliases, from the `i`-th on; the array of actions lies at `base`. -/
def itemsOfAliases (base : Nat) : Nat → List CommandAlias → List Item
  | _, [] => []
  | i, a :: rest =>
      itemsOfActions a.member.key.raw (keyValueOf (base + a.off) a.member) i
          (base + a.off + a.member.valOff) 0 a.actions ++
        itemsOfAliases base (i + 1) rest

theorem tokenPad_of_kind {v : Value} (h : v.kind = .array) : v.tokenPad = 0 := by
  cases v with
  | arr | arrNil => rfl
  | prim | str | obj | objNil => cases h

theorem tokenText_of_kind {v : Value} (h : v.kind = .array) : v.tokenText = v.render := by
  cases v with
  | arr | arrNil => rfl
  | prim | str | obj | objNil => cases h

/-- The key and the value of an alias whose value is an array. -/
theorem keyValueOf_array {m : Member} (h : m.val.kind = .array) (base : Nat) :
    (keyValueOf base m).value = ((base + m.valOff : Nat) : Int) ∧
      (keyValueOf base m).valueLen = (m.val.render.length : Nat) := by
  simp [keyValueOf, tokenPad_of_kind h, tokenText_of_kind h]

/-- With the name of an alias terminated, the buffer still holds the value of the
alias, and behind the name there is a NUL. -/
theorem alias_terminated {payload : Bytes} {base : Nat} {e : Value} {m : Member}
    {rest : List Member} (hm : e.members = some (m :: rest)) (hocc : OccursAt payload base e.render) :
    let group := keyValueOf base m
    let buffer := poke payload (group.key + group.keyLen) 0
    peek? payload (group.key + group.keyLen) = some quote ∧
      OccursAt buffer (base + m.keyOff) (m.key.raw ++ [0]) ∧
      OccursAt buffer (base + m.valOff) m.val.render ∧
      base + m.keyOff + m.key.raw.length < base + m.valOff := by
  have hmem := Value.members_occur hm List.mem_cons_self
  have hname := hocc.trans hmem.key
  have hvalue := hocc.trans hmem.val
  have horder := hmem.order
  have hend : (keyValueOf base m).key + (keyValueOf base m).keyLen =
      ((base + m.keyOff + m.key.raw.length : Nat) : Int) := by
    simp only [keyValueOf]
    omega
  simp only [hend]
  refine ⟨hname.peek?_next, hname.poke_next 0, ?_, by omega⟩
  apply OccursAt.poke_outside hvalue
  left
  omega

/-- The inner loop on an array of one-member objects. -/
theorem actionItems_singles (hjson : JsonSpec json budget) (stack : Stack) {payload : Bytes}
    {base : Nat} {e : Value} {m : Member} {rest : List Member}
    (hm : e.members = some (m :: rest)) (hocc : OccursAt payload base e.render)
    (htok : m.val.tokenCount ≤ budget) {acts : List (Nat × Member)}
    (hacts : m.val.singles = some acts) (i fuel j : Nat) (hj : j ≤ acts.length)
    (hfuel : acts.length < j + fuel) :
    actionItems json stack payload i (keyValueOf base m) fuel j =
      itemsOfActions m.key.raw (keyValueOf base m) i (base + m.valOff) j (acts.drop j) := by
  obtain ⟨es, hes, hlen, hget⟩ := Value.singles_spec hacts
  obtain ⟨-, hname, hvalue, horder⟩ := alias_terminated hm hocc
  obtain ⟨hval, hvalLen⟩ := keyValueOf_array (Value.kind_of_elements hes) base
  -- there is a round for each action and one more to find the end
  induction fuel generalizing j with
  | zero => omega
  | succ fuel ih =>
      simp only [actionItems, hval, hvalLen]
      by_cases hlt : j < acts.length
      · obtain ⟨e', hk, hm'⟩ := hget j acts[j].1 acts[j].2 (List.getElem?_eq_getElem hlt)
        have hin := hvalue.trans (Value.elements_occur hes (List.mem_of_getElem? hk))
        have htexts : actionTexts (poke payload ((keyValueOf base m).key +
            (keyValueOf base m).keyLen) 0) (keyValueOf base m).key
            (keyValueOf (base + m.valOff + acts[j].1) acts[j].2) =
              some (m.key.raw, acts[j].2.key.raw, acts[j].2.val.tokenText) :=
          actionTexts_member hm' hname m.key.nul_not_mem_raw hin (by omega)
        simp only [getKeyAndValueAtIndex_member hjson hvalue htok hes hk hm', htexts]
        rw [ih (j + 1) (by omega) (by omega), List.drop_eq_getElem_cons hlt]
        rfl
      · simp only [getKeyAndValueAtIndex_end hjson hvalue htok hes (k := j) (by omega)]
        rw [List.drop_eq_nil_of_le (Nat.le_of_not_lt hlt), itemsOfActions]

/-- What stands behind the aliases of a command. -/
theorem commandAliases_spec {v : Value} {aliases : List CommandAlias}
    (h : commandAliases v = some aliases) :
    ∃ es, v.elements = some es ∧ es.length = aliases.length ∧
      ∀ (k : Nat) (a : CommandAlias), aliases[k]? = some a →
        a.member.val.singles = some a.actions ∧
          ∃ e : Value, es[k]? = some (a.off, e) ∧ e.members = some [a.member] := by
  unfold commandAliases at h
  cases hs : v.singles with
  | none => simp [hs] at h
  | some l =>
      simp only [hs] at h
      obtain ⟨es, hes, hlen, hget⟩ := Value.singles_spec hs
      have hall := forall₂_of_mapM h
      refine ⟨es, hes, hlen.trans hall.length_eq, ?_⟩
      intro k a hk
      obtain ⟨hlt, ha⟩ := List.getElem?_eq_some_iff.mp hk
      have hlt' : k < l.length := by rw [hall.length_eq]; exact hlt
      have hstep := (List.forall₂_iff_get.mp hall).2 k hlt' hlt
      rw [List.get_eq_getElem, List.get_eq_getElem, ha, Option.map_eq_some_iff] at hstep
      obtain ⟨acts, hacts, heq⟩ := hstep
      subst heq
      exact ⟨hacts, hget k _ _ (List.getElem?_eq_getElem hlt')⟩

/-- The outer loop on an array of aliases. -/
theorem aliasItems_command (hjson : JsonSpec json budget) (stack : Stack) {payload : Bytes}
    {base : Nat} {v : Value} (hocc : OccursAt payload base v.render)
    (htok : v.tokenCount ≤ budget) {aliases : List CommandAlias}
    (haliases : commandAliases v = some aliases) (innerFuel fuel i : Nat)
    (hinner : v.tokenCount ≤ innerFuel) (hi : i ≤ aliases.length)
    (hfuel : aliases.length < i + fuel) :
    aliasItems json stack payload base v.render.length innerFuel fuel i =
      itemsOfAliases base i (aliases.drop i) := by
  obtain ⟨es, hes, hlen, hget⟩ := commandAliases_spec haliases
  induction fuel generalizing i with
  | zero => omega
  | succ fuel ih =>
      simp only [aliasItems]
      by_cases hlt : i < aliases.length
      · obtain ⟨hacts, e, hk, hm⟩ := hget i aliases[i] (List.getElem?_eq_getElem hlt)
        have hin := hocc.trans (Value.elements_occur hes (List.mem_of_getElem? hk))
        obtain ⟨hpeek, -⟩ := alias_terminated hm hin
        have htok' : aliases[i].member.val.tokenCount < v.tokenCount :=
          (Value.tokenCount_members hm List.mem_cons_self).trans
            (Value.tokenCount_elements hes (List.mem_of_getElem? hk))
        have hlen' : aliases[i].actions.length < aliases[i].member.val.tokenCount := by
          obtain ⟨es', hes', hlen', -⟩ := Value.singles_spec hacts
          rw [← hlen']
          exact Value.length_elements_lt hes'
        simp only [getKeyAndValueAtIndex_member hjson hocc htok hes hk hm, hpeek]
        rw [actionItems_singles hjson stack hm hin (by omega) hacts i innerFuel 0 (by omega)
          (by omega), ih (i + 1) (by omega) (by omega), List.drop_eq_getElem_cons hlt]
        rfl
      · simp only [getKeyAndValueAtIndex_end hjson hocc htok hes (k := i) (by omega)]
        rw [List.drop_eq_nil_of_le (Nat.le_of_not_lt hlt), itemsOfAliases]

/-! ## The results of a command -/

/-- The strings that the handler is given for an item. -/
def Item.call : Item → Option (Bytes × Bytes × Bytes)
  | .action _ _ a n v _ => some (a, n, v)
  | _ => none

theorem filterMap_call_itemsOfActions (name : Bytes) (group : KeyValue) (i base j : Nat)
    (acts : List (Nat × Member)) :
    (itemsOfActions name group i base j acts).filterMap Item.call =
      acts.map fun x => (name, x.2.key.raw, x.2.val.tokenText) := by
  induction acts generalizing j with
  | nil => rfl
  | cons x acts ih =>
      rw [itemsOfActions, List.filterMap_cons_some (show Item.call _ = some _ from rfl), ih,
        List.map_cons]

/-- Read off its items, a command asks for its calls. -/
theorem filterMap_call_itemsOfAliases (base i : Nat) (aliases : List CommandAlias) :
    (itemsOfAliases base i aliases).filterMap Item.call = commandCalls aliases := by
  induction aliases generalizing i with
  | nil => rfl
  | cons a rest ih =>
      rw [itemsOfAliases, List.filterMap_append, filterMap_call_itemsOfActions, ih]
      rfl

theorem filterMap_args_itemsOfActions (stack : Stack) (name : Bytes) (group : KeyValue)
    (i base j : Nat) (acts : List (Nat × Member)) :
    (itemsOfActions name group i base j acts).filterMap (Item.args stack) =
      acts.mapIdx fun k x =>
        ⟨name, x.2.key.raw, x.2.val.tokenText, stack.error i (j + k)⟩ := by
  induction acts generalizing j with
  | nil => rfl
  | cons x acts ih =>
      rw [itemsOfActions, List.filterMap_cons_some (show Item.args stack _ = some _ from rfl), ih,
        List.mapIdx_cons]
      simp only [Nat.add_zero, Nat.add_assoc, Nat.add_comm 1]

theorem filterMap_args_itemsOfAliases (stack : Stack) (base i : Nat)
    (aliases : List CommandAlias) :
    (itemsOfAliases base i aliases).filterMap (Item.args stack) =
      (aliases.mapIdx fun k a => a.args stack (i + k)).flatten := by
  induction aliases generalizing i with
  | nil => rfl
  | cons a rest ih =>
      rw [itemsOfAliases, List.filterMap_append, filterMap_args_itemsOfActions, ih,
        List.mapIdx_cons, List.flatten_cons]
      simp only [CommandAlias.args, Nat.zero_add, Nat.add_zero, Nat.add_assoc, Nat.add_comm 1]

theorem itemsOfAliases_args (stack : Stack) (base : Nat) (aliases : List CommandAlias) :
    (itemsOfAliases base 0 aliases).filterMap (Item.args stack) = commandArgs stack aliases := by
  rw [filterMap_args_itemsOfAliases]
  simp only [Nat.zero_add]
  rfl

theorem Item.args_call (stack : Stack) (item : Item) :
    (item.args stack).map HandlerArgs.call = item.call := by
  cases item <;> rfl

/-- The strings that a command asks for are those of its calls. -/
theorem commandArgs_calls (stack : Stack) (aliases : List CommandAlias) :
    (commandArgs stack aliases).map HandlerArgs.call = commandCalls aliases := by
  rw [← itemsOfAliases_args stack 0 aliases, List.map_filterMap]
  simp only [Item.args_call]
  exact filterMap_call_itemsOfAliases 0 0 aliases

theorem loopEnd_itemsOfActions (name : Bytes) (group : KeyValue) (i base j : Nat)
    (acts : List (Nat × Member)) (rest : List Item) :
    loopEnd (itemsOfActions name group i base j acts ++ rest) = loopEnd rest := by
  induction acts generalizing j with
  | nil => rfl
  | cons x acts ih => exact ih (j + 1)

/-- Every item of a command is an action. -/
theorem loopEnd_itemsOfAliases (base i : Nat) (aliases : List CommandAlias) :
    (loopEnd (itemsOfAliases base i aliases)).flow = .finished := by
  induction aliases generalizing i with
  | nil => rfl
  | cons a rest ih =>
      rw [itemsOfAliases, loopEnd_itemsOfActions]
      exact ih (i + 1)

variable {σ δ : Type}

/-- The entries of items that are all actions follow the items. -/
theorem entries_calls (handlers : Handlers σ δ) (stack : Stack) {items : List Item}
    (hend : (loopEnd items).flow = .finished) (device : δ) :
    (entries handlers stack items device).1.map Entry.call = items.filterMap Item.call := by
  induction items generalizing device with
  | nil => rfl
  | cons item items ih =>
      cases item with
      | action i j a n v held =>
          rw [List.filterMap_cons_some (show Item.call _ = some _ from rfl), entries,
            List.map_cons, ih hend]
          rfl
      | fail | undefined | outOfFuel => cases hend

/-- The entries that the handler calls of an alias come to, from action `j` on. -/
def actionEntries (handlers : Handlers σ δ) (stack : Stack) (aliasName : Bytes) (i : Nat) :
    Nat → List (Nat × Member) → δ → List Entry × δ
  | _, [], device => ([], device)
  | j, x :: rest, device =>
      let r := callHandler handlers stack i j aliasName x.2.key.raw x.2.val.tokenText device
      let t := actionEntries handlers stack aliasName i (j + 1) rest r.2
      (⟨i, j, aliasName, x.2.key.raw, x.2.val.tokenText, r.1⟩ :: t.1, t.2)

/-- The entries of a command, from alias `i` on, and the device left in the end. -/
def commandEntries (handlers : Handlers σ δ) (stack : Stack) :
    Nat → List CommandAlias → δ → List Entry × δ
  | _, [], device => ([], device)
  | i, a :: rest, device =>
      let r := actionEntries handlers stack a.member.key.raw i 0 a.actions device
      let t := commandEntries handlers stack (i + 1) rest r.2
      (r.1 ++ t.1, t.2)

theorem entries_itemsOfActions (handlers : Handlers σ δ) (stack : Stack) (name : Bytes)
    (group : KeyValue) (i base j : Nat) (acts : List (Nat × Member)) (rest : List Item)
    (device : δ) :
    let r := actionEntries handlers stack name i j acts device
    entries handlers stack (itemsOfActions name group i base j acts ++ rest) device =
      (r.1 ++ (entries handlers stack rest r.2).1, (entries handlers stack rest r.2).2) := by
  induction acts generalizing j device with
  | nil => rfl
  | cons x acts ih =>
      simp only [itemsOfActions, List.cons_append, itemOf, entries, actionEntries]
      rw [ih]

/-- The entries of a command do not depend on where it lies. -/
theorem entries_itemsOfAliases (handlers : Handlers σ δ) (stack : Stack) (base i : Nat)
    (aliases : List CommandAlias) (device : δ) :
    entries handlers stack (itemsOfAliases base i aliases) device =
      commandEntries handlers stack i aliases device := by
  induction aliases generalizing i device with
  | nil => rfl
  | cons a rest ih =>
      rw [itemsOfAliases, entries_itemsOfActions, ih]
      rfl

end ThingIfSdk
