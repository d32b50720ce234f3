import ThingIfSdk.Command.Reading
import ThingIfSdk.Command.Tokens

/-!
# Messages that read to their end

`get_key_and_value_at_index` takes a partial success for the end of the array, and
only the first member of an object is ever looked at.  So the loops also read
messages to their end that are not commands: an element that is not an object ends
its array, further members are left out, and the value of an alias may be an object.

`ReadsQuietly` describes the messages that can be read to their end.
`aliasItems_not_quiet` says that the others never are, and `aliasItems_quiet` that
these are by some run: an empty object is split by what an earlier parse left in
the token array, so it depends on the run whether it ends the loops.
-/

namespace ThingIfSdk

open ByteText JsonText

/-! ## Messages that read to their end -/

/-- An index leads to an object of a single token, such as `{}` or, for a parser that is
not strict, `{,}`. -/
def LoneObjectAt (json : JsonApi) (t : Bytes) (k : Nat) : Prop :=
  (json.kiiJsonReadObject t [indexField k]).1 = .success ∧
    ∃ item, spanOf t (objectToken json t k) = some item ∧ (textTokens json item).length = 1

/-- Answers that make the text of a string read as an array: objects of a single token
up to some index, and then a partial success. -/
def TextReadsQuietly (json : JsonApi) (t : Bytes) : Prop :=
  ∃ n, (∀ k < n, LoneObjectAt json t k) ∧
    (json.kiiJsonReadObject t [indexField n]).1 = .partialSuccess

/-- The value of an alias can be read to an end. -/
def ValueReadsQuietly (json : JsonApi) : Value → Prop
  | .prim _ => False
  | .str s => TextReadsQuietly json s.raw
  | .arrNil _ => True
  | .arr _ => True
  | .objNil _ => True
  | .obj _ => True

/-- The elements up to the first that is not an object can be read to an end: each
is empty, or its first member has a value that can be read to an end. -/
def ElementsReadQuietly (json : JsonApi) : List (Nat × Value) → Prop
  | [] => True
  | (_, e) :: rest =>
      match e.members with
      | none => True
      | some [] => ElementsReadQuietly json rest
      | some (m :: _) => ValueReadsQuietly json m.val ∧ ElementsReadQuietly json rest

/-- The array of actions can be read to its end. -/
def ReadsQuietly (json : JsonApi) (actions : Value) : Prop :=
  ∀ l, actions.elements = some l → ElementsReadQuietly json l

theorem loopEnd_append (xs ys : List Item) :
    loopEnd (xs ++ ys) = if (loopEnd xs).flow = .finished then loopEnd ys else loopEnd xs := by
  induction xs with
  | nil => rfl
  | cons item xs ih =>
      cases item with
      | action => exact ih
      | fail | undefined | outOfFuel => rfl

section

variable {json : JsonApi} {budget : Nat} (hjson : JsonSpec json budget)
  (htree : TokenTree json budget) (hfields : FieldsByTokens json)

/-! ## The text of a string -/

include hjson htree in
/-- There is no string in the text of a string. -/
theorem no_string_in_raw {e : Value} {m : Member} {rest : List Member}
    (hm : e.members = some (m :: rest)) (htok : e.tokenCount ≤ budget) {s : Str}
    (hval : m.val = .str s) : ∀ a ∈ textTokens json s.raw, a.kind ≠ .string := by
  have htokens := textTokens_object hjson (Value.kind_of_members hm) htok
  have hmem := Value.token_mem_members hm List.mem_cons_self 0
  rw [← htokens, Nat.zero_add] at hmem
  have hspan := spanOf_token (Value.members_occur hm List.mem_cons_self).val
  rw [hval] at hmem hspan
  exact htree.escaped e.render _ s.raw hmem rfl hspan

include htree in
/-- An object without a key is split by what the token array held, if it is split. -/
theorem split_of_no_string {item : Bytes} {inner : List Token}
    (h : BracketTokens json .object item inner) (hnone : ∀ a ∈ inner, a.kind ≠ .string)
    {base : Int} {stale : Nat → Token} {kv : KeyValue}
    (hkv : prvKiiThingIfGetKeyAndValueFromJson json item base stale = some kv) : inner = [] := by
  rw [h.split_eq htree.toTokensWritten] at hkv
  cases inner with
  | nil => rfl
  | cons a inner =>
      rw [List.getElem?_cons_zero, Option.getD_some, if_neg (hnone a List.mem_cons_self)] at hkv
      cases hkv

/-! ## Messages that do not read to their end -/

include hjson htree hfields in
/-- The text of a string that does not read quietly ends the inner loop early, at
any index up to which it has read quietly. -/
theorem actionItems_text_not_quiet (stack : Stack) {payload : Bytes} {base : Nat} {e : Value}
    {m : Member} {rest : List Member} (hm : e.members = some (m :: rest))
    (hocc : OccursAt payload base e.render) (htok : e.tokenCount ≤ budget) {s : Str}
    (hval : m.val = .str s) (hnot : ¬ TextReadsQuietly json s.raw) (i fuel j : Nat)
    (hbefore : ∀ k < j, LoneObjectAt json s.raw k) :
    (loopEnd (actionItems json stack payload i (keyValueOf base m) fuel j)).flow ≠ .finished := by
  obtain ⟨-, -, hvalue, -⟩ := alias_terminated hm hocc
  have hraw := hvalue.trans m.val.tokenText_occurs
  have hgroup : (keyValueOf base m).value = ((base + m.valOff + m.val.tokenPad : Nat) : Int) ∧
      (keyValueOf base m).valueLen = (s.raw.length : Nat) := by
    rw [keyValueOf, hval]
    exact ⟨by rw [Nat.add_assoc], rfl⟩
  rw [show m.val.tokenText = s.raw by rw [hval]; rfl] at hraw
  induction fuel generalizing j with
  | zero =>
      intro h
      cases h
  | succ fuel ih =>
      unfold actionItems getKeyAndValueAtIndex
      simp only [hgroup.1, hgroup.2, hraw.slice?_eq]
      cases hr : (json.kiiJsonReadObject s.raw [indexField j]).1 with
      | partialSuccess => exact absurd ⟨j, hbefore, hr⟩ hnot
      | rootTypeError | invalidInput =>
          intro h
          cases h
      | success =>
          obtain ⟨item, inner, hobject⟩ := object_of_success htree hfields hr
          have hslice : slice? s.raw ((json.kiiJsonReadObject s.raw [indexField j]).2 0).start
              ((((json.kiiJsonReadObject s.raw [indexField j]).2 0).stop : Int) -
                ((json.kiiJsonReadObject s.raw [indexField j]).2 0).start) = some item :=
            hobject.span
          simp only [hraw.slice?_inside hslice]
          cases hkv : prvKiiThingIfGetKeyAndValueFromJson json item
              (((base + m.valOff + m.val.tokenPad : Nat) : Int) +
                ((json.kiiJsonReadObject s.raw [indexField j]).2 0).start)
              (stack.tokens i (some j)) with
          | none =>
              intro h
              cases h
          | some kv =>
              simp only
              -- only a lone object is split, by what the tokens held before
              have hinner := split_of_no_string htree hobject.tokens
                (hobject.no_string (no_string_in_raw hjson htree hm htok hval)) hkv
              have hlone : LoneObjectAt json s.raw j := by
                refine ⟨hr, item, hobject.span, ?_⟩
                rw [hobject.tokens.tokens_eq, hinner]
                rfl
              cases actionTexts (poke payload ((keyValueOf base m).key +
                  (keyValueOf base m).keyLen) 0) (keyValueOf base m).key kv with
              | none =>
                  intro h
                  cases h
              | some texts =>
                  apply ih (j + 1)
                  intro k hk
                  rcases Nat.lt_succ_iff_lt_or_eq.mp hk with hk | rfl
                  · exact hbefore k hk
                  · exact hlone

include hjson htree hfields in
/-- The value of an alias that cannot be read to an end never is. -/
theorem actionItems_not_quiet (stack : Stack) {payload : Bytes} {base : Nat} {e : Value}
    {m : Member} {rest : List Member} (hm : e.members = some (m :: rest))
    (hocc : OccursAt payload base e.render) (htok : e.tokenCount ≤ budget)
    (hnot : ¬ ValueReadsQuietly json m.val)
    (i fuel : Nat) :
    (loopEnd (actionItems json stack payload i (keyValueOf base m) fuel 0)).flow ≠ .finished := by
  cases hval : m.val with
  | arrNil | arr | objNil | obj =>
      rw [hval] at hnot
      exact absurd trivial hnot
  | str s =>
      rw [hval] at hnot
      exact actionItems_text_not_quiet hjson htree hfields stack hm hocc htok hval hnot i fuel 0
        fun k hk => absurd hk (Nat.not_lt_zero k)
  -- A bare primitive is refused by the first read.
  | prim p =>
      obtain ⟨-, -, hvalue, -⟩ := alias_terminated hm hocc
      rw [hval] at hvalue
      have hgroup : (keyValueOf base m).value = ((base + m.valOff : Nat) : Int) ∧
          (keyValueOf base m).valueLen = ((Value.prim p).render.length : Nat) := by
        rw [keyValueOf, hval]
        exact ⟨rfl, rfl⟩
      cases fuel with
      | zero =>
          intro h
          cases h
      | succ fuel =>
          unfold actionItems getKeyAndValueAtIndex
          simp only [hgroup.1, hgroup.2, hvalue.slice?_eq]
          rcases hjson.noContainer p 0 with hr | hr
          · rw [show (Value.prim p).render = p.bytes from rfl, hr]
            intro h
            cases h
          · rw [show (Value.prim p).render = p.bytes from rfl, hr]
            intro h
            cases h

include hjson htree hfields in
/-- An array of actions that cannot be read to its end never is. -/
theorem aliasItems_not_quiet (stack : Stack) {payload : Bytes} {base : Nat} {v : Value}
    (hocc : OccursAt payload base v.render) (htok : v.tokenCount ≤ budget)
    {l : List (Nat × Value)} (hl : v.elements = some l) (innerFuel fuel i : Nat)
    (hnot : ¬ ElementsReadQuietly json (l.drop i)) :
    (loopEnd (aliasItems json stack payload base v.render.length innerFuel fuel i)).flow ≠
      .finished := by
  induction fuel generalizing i with
  | zero =>
      intro h
      cases h
  | succ fuel ih =>
      by_cases hlt : i < l.length
      · have hk : l[i]? = some (l[i].1, l[i].2) := List.getElem?_eq_getElem hlt
        have hmem := List.mem_of_getElem? hk
        have hin := hocc.trans (Value.elements_occur hl hmem)
        have htok' := Value.tokenCount_elements hl hmem
        rw [List.drop_eq_getElem_cons hlt, ElementsReadQuietly] at hnot
        simp only [aliasItems]
        cases hmembers : l[i].2.members with
        | none =>
            rw [hmembers] at hnot
            exact absurd trivial hnot
        | some ms =>
            have hkind : l[i].2.kind = .object := Value.kind_of_members hmembers
            rw [hmembers] at hnot
            cases ms with
            | nil =>
                -- whatever an empty object is split into, the rest does not read
                rw [getKeyAndValueAtIndex_object hjson hocc htok hl hk hkind]
                cases prvKiiThingIfGetKeyAndValueFromJson json l[i].2.render
                    ((base + l[i].1 : Nat) : Int) (stack.tokens i none) with
                | none =>
                    intro h
                    cases h
                | some kv =>
                    simp only
                    cases peek? payload (kv.key + kv.keyLen) with
                    | none =>
                        intro h
                        cases h
                    | some b =>
                        simp only [loopEnd_append]
                        split
                        · exact ih (i + 1) hnot
                        · assumption
            | cons m rest =>
                obtain ⟨hpeek, -⟩ := alias_terminated hmembers hin
                simp only [getKeyAndValueAtIndex_member hjson hocc htok hl hk hmembers, hpeek,
                  loopEnd_append]
                by_cases hquiet : ValueReadsQuietly json m.val
                · split
                  · exact ih (i + 1) fun hrest => hnot ⟨hquiet, hrest⟩
                  · assumption
                · have hinner := actionItems_not_quiet hjson htree hfields stack hmembers hin
                    (by omega) hquiet i innerFuel
                  rw [if_neg hinner]
                  exact hinner
      · rw [List.drop_eq_nil_of_le (Nat.le_of_not_lt hlt)] at hnot
        exact absurd trivial hnot

/-- An inner loop that finds actions up to an index and the end of the array there. -/
theorem actionItems_finished {stack : Stack} {payload : Bytes} {i : Nat} {group : KeyValue}
    {n : Nat} (hstep : ∀ j < n, ∃ kv texts,
      getKeyAndValueAtIndex json (poke payload (group.key + group.keyLen) 0) group.value
        group.valueLen j (stack.tokens i (some j)) = some (.success kv) ∧
      actionTexts (poke payload (group.key + group.keyLen) 0) group.key kv = some texts)
    (hend : getKeyAndValueAtIndex json (poke payload (group.key + group.keyLen) 0) group.value
      group.valueLen n (stack.tokens i (some n)) = some .finish) {fuel : Nat} (hfuel : n < fuel) :
    (loopEnd (actionItems json stack payload i group fuel 0)).flow = .finished := by
  have key : ∀ fuel j, j ≤ n → n < j + fuel →
      (loopEnd (actionItems json stack payload i group fuel j)).flow = .finished := by
    intro fuel
    induction fuel with
    | zero =>
        intro j hj hlt
        omega
    | succ fuel ih =>
        intro j hj hlt
        rcases Nat.lt_or_eq_of_le hj with hj | rfl
        · obtain ⟨kv, texts, hkv, htexts⟩ := hstep j hj
          simp only [actionItems, hkv, htexts]
          exact ih (j + 1) hj (by omega)
        · simp only [actionItems, hend]
          rfl
  exact key fuel 0 (Nat.zero_le n) (by omega)

end

/-! ## Messages that read to their end -/

/-- What an earlier parse may have left in a token array: the key and the value of
an empty object are then the end and the whole of a text of `n` bytes. -/
def staleTokens (n : Nat) : Nat → Token :=
  fun i => if i = 1 then ⟨.string, n, n⟩ else ⟨.object, 0, n⟩

/-- Automatic arrays with which the elements of an array are read to its end. -/
def quietStack (l : List (Nat × Value)) : Stack where
  tokens i j :=
    match j with
    | none => staleTokens ((l[i]?.map fun x => x.2.render.length).getD 0)
    | some _ => staleTokens 0
  error _ _ := ⟨List.replicate (emessageSize + 1) 0, length_zeros⟩
  behindError _ _ := [0]

/-- The split of an empty object that lies at `base`, by such tokens. -/
def staleSplit (base : Int) (n : Nat) : KeyValue :=
  { key := base + n, keyLen := 0, value := base, valueLen := n }

/-- The handler can be called for an empty object. -/
theorem actionTexts_empty {buffer : Bytes} {aliasName off : Int}
    (hpeek : (peek? buffer off).isSome) (h0 : 0 ≤ aliasName) (hle : aliasName ≤ off) :
    ∃ texts, actionTexts buffer aliasName (staleSplit off 0) = some texts := by
  obtain ⟨b, hb⟩ := Option.isSome_iff_exists.mp hpeek
  have hagain := peek?_poke_isSome hpeek off 0
  obtain ⟨t, ht⟩ := Option.isSome_iff_exists.mp (cstrAt?_poke_isSome hagain h0 hle)
  obtain ⟨u, hu⟩ := Option.isSome_iff_exists.mp
    (cstrAt?_poke_isSome hagain (Int.le_trans h0 hle) (Int.le_refl off))
  unfold actionTexts staleSplit
  simp only [Int.natCast_zero, Int.add_zero, hb, ht, hu]
  exact ⟨_, rfl⟩

section

variable {json : JsonApi} {budget : Nat} (hjson : JsonSpec json budget)
  (htree : TokenTree json budget) (hfields : FieldsByTokens json)

section

include hjson

theorem keyAndValueFromJson_stale (pad : Ws) (hbudget : 1 ≤ budget) (base : Int) (n : Nat) :
    prvKiiThingIfGetKeyAndValueFromJson json (Value.objNil pad).render base (staleTokens n) =
      some (staleSplit base n) := by
  rw [keyAndValueFromJson_objNil hjson pad hbudget]
  simp [staleTokens, staleSplit]

/-- The actions of an alias up to the first element that is not an object can all
be handed out, empty objects included. -/
theorem actionItems_array_quiet (l : List (Nat × Value)) {payload : Bytes} {base : Nat}
    {e : Value} {m : Member} {rest : List Member} (hm : e.members = some (m :: rest))
    (hocc : OccursAt payload base e.render) (htok : m.val.tokenCount ≤ budget)
    {acts : List (Nat × Value)} (hacts : m.val.elements = some acts) (i : Nat) :
    ∃ n, ∀ fuel, n < fuel →
      (loopEnd (actionItems json (quietStack l) payload i (keyValueOf base m) fuel 0)).flow =
        .finished := by
  obtain ⟨-, hname, hvalue, horder⟩ := alias_terminated hm hocc
  have hkind := Value.kind_of_elements hacts
  obtain ⟨hval, hvalLen⟩ := keyValueOf_array hkind base
  -- The loop stops at the first element that is no object, or behind the last one.
  refine ⟨acts.findIdx fun x => decide (x.2.kind ≠ .object), fun fuel hfuel => ?_⟩
  refine actionItems_finished ?_ ?_ hfuel
  · intro j hj
    have hlt : j < acts.length := lt_of_lt_of_le hj List.findIdx_le_length
    have hk : acts[j]? = some (acts[j].1, acts[j].2) := List.getElem?_eq_getElem hlt
    have hobject : acts[j].2.kind = .object := by
      simpa using List.not_of_lt_findIdx hj
    have hmem := List.mem_of_getElem? hk
    have hin := hvalue.trans (Value.elements_occur hacts hmem)
    rw [hval, hvalLen]
    obtain ⟨ms, hms⟩ := Value.members_of_kind hobject
    cases ms with
    | cons x xs =>
        have htexts : actionTexts (poke payload ((keyValueOf base m).key +
            (keyValueOf base m).keyLen) 0) (keyValueOf base m).key
            (keyValueOf (base + m.valOff + acts[j].1) x) =
              some (m.key.raw, x.key.raw, x.val.tokenText) :=
          actionTexts_member hms hname m.key.nul_not_mem_raw hin (by omega)
        exact ⟨_, _, getKeyAndValueAtIndex_member hjson hvalue htok hacts hk hms _, htexts⟩
    -- An empty object is split from whatever the token array held before.
    | nil =>
        obtain ⟨pad, hpad⟩ := Value.eq_objNil_of_members hms
        have hpos := m.val.tokenCount_pos
        have hsplit := keyAndValueFromJson_stale hjson pad (by omega)
          ((base + m.valOff + acts[j].1 : Nat) : Int) 0
        rw [← hpad] at hsplit
        have hget := getKeyAndValueAtIndex_object hjson hvalue htok hacts hk hobject
          (staleTokens 0)
        simp only [hsplit] at hget
        have hpeek : (peek? (poke payload ((keyValueOf base m).key + (keyValueOf base m).keyLen) 0)
            ((base + m.valOff + acts[j].1 : Nat) : Int)).isSome := by
          have hbound := hin.bound
          have hlen : 0 < acts[j].2.render.length := by
            rw [hpad]
            simp [Value.render]
          rw [peek?_natCast, isSome_getElem?]
          omega
        have halias : (keyValueOf base m).key = ((base + m.keyOff : Nat) : Int) := rfl
        obtain ⟨texts, htexts⟩ := actionTexts_empty hpeek
          (show 0 ≤ (keyValueOf base m).key by omega) (by omega)
        exact ⟨_, texts, hget, htexts⟩
  · rw [hval, hvalLen]
    apply getKeyAndValueAtIndex_finish hjson hvalue htok (.inl hkind)
    intro acts' o e' hacts' hk
    rw [hacts] at hacts'
    cases hacts'
    obtain ⟨hlt, hget⟩ := List.getElem?_eq_some_iff.mp hk
    have := List.findIdx_getElem (w := hlt)
    rw [hget] at this
    simpa using this

end

include htree in
theorem split_lone_stale {item : Bytes} (h : BracketTokens json .object item []) (base : Int)
    (n : Nat) : prvKiiThingIfGetKeyAndValueFromJson json item base (staleTokens n) =
      some (staleSplit base n) := by
  rw [h.split_eq htree.toTokensWritten]
  simp [staleTokens, staleSplit, KeyValue.ofTokens]

include htree hfields in
/-- The text of a string that reads quietly is read to an end. -/
theorem actionItems_text_quiet (l : List (Nat × Value)) {payload : Bytes} {base : Nat}
    {e : Value} {m : Member} {rest : List Member} (hm : e.members = some (m :: rest))
    (hocc : OccursAt payload base e.render) {s : Str} (hval : m.val = .str s)
    (hquiet : TextReadsQuietly json s.raw) (i : Nat) :
    ∃ n, ∀ fuel, n < fuel →
      (loopEnd (actionItems json (quietStack l) payload i (keyValueOf base m) fuel 0)).flow =
        .finished := by
  obtain ⟨-, -, hvalue, horder⟩ := alias_terminated hm hocc
  obtain ⟨n, hlone, hpartial⟩ := hquiet
  have hraw := hvalue.trans m.val.tokenText_occurs
  have hgroup : (keyValueOf base m).value = ((base + m.valOff + m.val.tokenPad : Nat) : Int) ∧
      (keyValueOf base m).valueLen = (s.raw.length : Nat) := by
    rw [keyValueOf, hval]
    exact ⟨by rw [Nat.add_assoc], rfl⟩
  rw [show m.val.tokenText = s.raw by rw [hval]; rfl] at hraw
  refine ⟨n, fun fuel hfuel => actionItems_finished ?_ ?_ hfuel⟩
  · intro j hj
    obtain ⟨hsuccess, item, hspan, hlen⟩ := hlone j hj
    obtain ⟨item', inner, hobject⟩ := object_of_success htree hfields hsuccess
    obtain rfl : item = item' := Option.some.inj (hspan.symm.trans hobject.span)
    -- one token is that of the object itself
    obtain rfl : inner = [] := by
      rw [hobject.tokens.tokens_eq, List.length_cons] at hlen
      exact List.length_eq_zero_iff.mp (by omega)
    have hitem := hraw.slice?_inside hspan
    have hlong := hobject.long
    have hpeek := peek?_isSome_of_slice? hitem (List.ne_nil_of_length_pos (by omega))
    have hstart : (objectToken json s.raw j).start =
        ((json.kiiJsonReadObject s.raw [indexField j]).2 0).start := rfl
    have halias : (keyValueOf base m).key = ((base + m.keyOff : Nat) : Int) := rfl
    obtain ⟨texts, htexts⟩ := actionTexts_empty hpeek
      (show 0 ≤ (keyValueOf base m).key by omega) (by omega)
    refine ⟨_, texts, ?_, htexts⟩
    have hslice : slice? (poke payload ((keyValueOf base m).key + (keyValueOf base m).keyLen) 0)
        (((base + m.valOff + m.val.tokenPad : Nat) : Int) +
          ((json.kiiJsonReadObject s.raw [indexField j]).2 0).start)
        ((((json.kiiJsonReadObject s.raw [indexField j]).2 0).stop : Int) -
          ((json.kiiJsonReadObject s.raw [indexField j]).2 0).start) = some item := hitem
    unfold getKeyAndValueAtIndex
    simp only [hgroup.1, hgroup.2, hraw.slice?_eq, hsuccess, hslice]
    rw [show (quietStack l).tokens i (some j) = staleTokens 0 from rfl,
      split_lone_stale htree hobject.tokens]
  · unfold getKeyAndValueAtIndex
    simp only [hgroup.1, hgroup.2, hraw.slice?_eq, hpartial]

include hjson htree hfields in
/-- The value of an alias that can be read to an end is, given the rounds. -/
theorem actionItems_quiet (l : List (Nat × Value)) {payload : Bytes} {base : Nat} {e : Value}
    {m : Member} {rest : List Member} (hm : e.members = some (m :: rest))
    (hocc : OccursAt payload base e.render) (htok : m.val.tokenCount ≤ budget)
    (hquiet : ValueReadsQuietly json m.val) (i : Nat) :
    ∃ n, ∀ fuel, n < fuel →
      (loopEnd (actionItems json (quietStack l) payload i (keyValueOf base m) fuel 0)).flow =
        .finished := by
  cases hval : m.val with
  | prim p =>
      rw [hval] at hquiet
      cases hquiet
  | str s =>
      rw [hval] at hquiet
      exact actionItems_text_quiet htree hfields l hm hocc hval hquiet i
  | arrNil pad =>
      exact actionItems_array_quiet hjson l hm hocc htok (by rw [hval]; rfl) i
  | arr es =>
      exact actionItems_array_quiet hjson l hm hocc htok (by rw [hval]; rfl) i
  | objNil | obj =>
      -- no index leads into an object
      obtain ⟨-, -, hvalue, -⟩ := alias_terminated hm hocc
      have hgroup : (keyValueOf base m).value = ((base + m.valOff : Nat) : Int) ∧
          (keyValueOf base m).valueLen = (m.val.render.length : Nat) := by
        rw [keyValueOf, hval]
        exact ⟨rfl, rfl⟩
      refine ⟨0, fun fuel hfuel => actionItems_finished
        (fun j hj => absurd hj (Nat.not_lt_zero j)) ?_ hfuel⟩
      rw [hgroup.1, hgroup.2]
      apply getKeyAndValueAtIndex_finish hjson hvalue htok (.inr (by rw [hval]; rfl))
      intro acts o e' hacts
      rw [hval] at hacts
      cases hacts

include hjson in
/-- An alias without a name, split from an empty object, has no actions. -/
theorem actionItems_nameless (l : List (Nat × Value)) {payload : Bytes} {base : Nat} {pad : Ws}
    (hocc : OccursAt payload base (Value.objNil pad).render) (hbudget : 1 ≤ budget) (i : Nat)
    {fuel : Nat} (hfuel : 0 < fuel) :
    let n := (Value.objNil pad).render.length
    (loopEnd (actionItems json (quietStack l) payload i (staleSplit base n) fuel 0)).flow =
      .finished := by
  refine actionItems_finished (fun j hj => absurd hj (Nat.not_lt_zero j)) ?_ hfuel
  have hvalue := hocc.poke_outside (i := base + (Value.objNil pad).render.length)
    (.inr (Nat.le_refl _)) 0
  simp only [staleSplit, Int.add_zero, ← Int.natCast_add]
  apply getKeyAndValueAtIndex_finish hjson hvalue hbudget (.inr rfl)
  intro acts o e hacts
  cases hacts

include hjson in
/-- Where there is no object at an index, the array of actions ends. -/
theorem aliasItems_finish (stack : Stack) {payload : Bytes} {base : Nat} {v : Value}
    (hocc : OccursAt payload base v.render) (htok : v.tokenCount ≤ budget)
    {l : List (Nat × Value)} (hl : v.elements = some l) {i : Nat}
    (hnone : ∀ o e, l[i]? = some (o, e) → e.kind ≠ .object) (innerFuel : Nat) {fuel : Nat}
    (hfuel : 0 < fuel) :
    aliasItems json stack payload base v.render.length innerFuel fuel i = [] := by
  obtain ⟨fuel, rfl⟩ := Nat.exists_eq_succ_of_ne_zero (Nat.ne_of_gt hfuel)
  have hend := getKeyAndValueAtIndex_finish hjson hocc htok (.inl (Value.kind_of_elements hl))
    (k := i) (fun l' o e hl' hk => hnone o e (by rw [hl] at hl'; cases hl'; exact hk))
    (stack.tokens i none)
  simp only [aliasItems, hend]

include hjson htree hfields in
/-- A quiet array of actions is read to its end, given the rounds. -/
theorem aliasItems_quiet {payload : Bytes} {base : Nat} {v : Value}
    (hocc : OccursAt payload base v.render) (htok : v.tokenCount ≤ budget)
    {l : List (Nat × Value)} (hl : v.elements = some l) {rest : List (Nat × Value)} {i : Nat}
    (hrest : l.drop i = rest) (hquiet : ElementsReadQuietly json rest) :
    ∃ n, ∀ innerFuel fuel, n < innerFuel → n < fuel →
      (loopEnd (aliasItems json (quietStack l) payload base v.render.length innerFuel fuel
        i)).flow = .finished := by
  induction rest generalizing i with
  | nil =>
      refine ⟨0, fun innerFuel fuel _ hfuel => ?_⟩
      rw [aliasItems_finish hjson _ hocc htok hl ?_ innerFuel hfuel]
      · rfl
      · intro o e hk
        rw [List.drop_eq_nil_iff] at hrest
        rw [List.getElem?_eq_none hrest] at hk
        cases hk
  | cons x rest ih =>
      obtain ⟨o, e⟩ := x
      have hk : l[i]? = some (o, e) := by
        rw [← List.head?_drop, hrest]
        rfl
      have hnext : l.drop (i + 1) = rest := by
        rw [← List.tail_drop, hrest]
        rfl
      have hmem := List.mem_of_getElem? hk
      have hin := hocc.trans (Value.elements_occur hl hmem)
      have htok' := Value.tokenCount_elements hl hmem
      rw [ElementsReadQuietly] at hquiet
      cases hmembers : e.members with
      | none =>
          refine ⟨0, fun innerFuel fuel _ hfuel => ?_⟩
          rw [aliasItems_finish hjson _ hocc htok hl ?_ innerFuel hfuel]
          · rfl
          · intro o' e' hk' hkind
            rw [hk] at hk'
            cases hk'
            obtain ⟨ms, hms⟩ := Value.members_of_kind hkind
            rw [hmembers] at hms
            cases hms
      | some ms =>
          rw [hmembers] at hquiet
          have hobject := Value.kind_of_members hmembers
          cases ms with
          | nil =>
              obtain ⟨n, hn⟩ := ih hnext hquiet
              obtain ⟨pad, hpad⟩ := Value.eq_objNil_of_members hmembers
              subst hpad
              refine ⟨n + 1, fun innerFuel fuel hinner hfuel => ?_⟩
              obtain ⟨fuel, rfl⟩ := Nat.exists_eq_succ_of_ne_zero (show fuel ≠ 0 by omega)
              have htokens : (quietStack l).tokens i none =
                  staleTokens (Value.objNil pad).render.length := by
                simp only [quietStack, hk, Option.map_some, Option.getD_some]
              have hget := getKeyAndValueAtIndex_object hjson hocc htok hl hk hobject
                ((quietStack l).tokens i none)
              rw [htokens, keyAndValueFromJson_stale hjson pad (by omega)] at hget
              -- the byte behind the element is still in the array
              have hinside := Value.elements_inside hl hmem
              have hbound := hocc.bound
              have hpeek : (peek? payload
                  ((base + o + (Value.objNil pad).render.length : Nat) : Int)).isSome := by
                rw [peek?_natCast, isSome_getElem?]
                omega
              obtain ⟨b, hb⟩ := Option.isSome_iff_exists.mp hpeek
              have hb' : peek? payload ((staleSplit ((base + o : Nat) : Int)
                  (Value.objNil pad).render.length).key + (staleSplit ((base + o : Nat) : Int)
                  (Value.objNil pad).render.length).keyLen) = some b := by
                rw [← hb]
                simp [staleSplit]
              have hnameless := actionItems_nameless hjson l hin (by omega) i
                (show 0 < innerFuel by omega)
              simp only [aliasItems, htokens, hget, hb']
              rw [loopEnd_append, if_pos hnameless]
              exact hn innerFuel fuel (by omega) (by omega)
          | cons m ms =>
              obtain ⟨hm, hquiet⟩ := hquiet
              obtain ⟨n, hn⟩ := ih hnext hquiet
              have htokm := Value.tokenCount_members hmembers List.mem_cons_self
              obtain ⟨n', hn'⟩ := actionItems_quiet hjson htree hfields l hmembers hin (by omega) hm i
              obtain ⟨hpeek, -⟩ := alias_terminated hmembers hin
              refine ⟨max n n' + 1, fun innerFuel fuel hinner hfuel => ?_⟩
              obtain ⟨fuel, rfl⟩ := Nat.exists_eq_succ_of_ne_zero (show fuel ≠ 0 by omega)
              simp only [aliasItems, getKeyAndValueAtIndex_member hjson hocc htok hl hk hmembers,
                hpeek]
              rw [loopEnd_append, if_pos (hn' innerFuel (by omega))]
              exact hn innerFuel fuel (by omega) (by omega)

end

end ThingIfSdk
