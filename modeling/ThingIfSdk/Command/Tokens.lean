import ThingIfSdk.Command.Splitting
import ThingIfSdk.Lib.JsonSpan

/-!
# The tokens of any text

A parser may accept more than JSON: jsmn, unless it is built to be strict, takes `{,}` and
`{"lamp"}` for objects.  What the loops rely on in such texts is how their tokens lie in
one another, `TokenTree`, and that the fields that are found are among them,
`FieldsByTokens`.
-/

namespace ThingIfSdk

open ByteText JsonText

/-! ## Tokens and their texts -/

/-- The tokens that a parse of the text writes. -/
def textTokens (json : JsonApi) (t : Bytes) : List Token :=
  (List.range (json.jsmnParse t fun _ => noToken).1.toNat).map
    (json.jsmnParse t fun _ => noToken).2

/-- The text that a token covers. -/
def spanOf (t : Bytes) (token : Token) : Option Bytes :=
  slice? t token.start (token.stop - token.start)

/-- The token of an object or an array. -/
def Bracketed (token : Token) : Prop :=
  token.kind = .object ∨ token.kind = .array

/-- One token for the whole text, and the others between its brackets. -/
structure BracketTokens (json : JsonApi) (kind : TokenKind) (item : Bytes) (inner : List Token) :
    Prop where
  tokens_eq : textTokens json item = ⟨kind, 0, item.length⟩ :: inner
  between : ∀ token ∈ inner, 0 < token.start ∧ token.stop < item.length

/-- How tokens lie in one another, in every text that `jsmn_parse` accepts. -/
structure TokenTree (json : JsonApi) (budget : Nat) : Prop extends TokensWritten json where
  fits : ∀ t, (textTokens json t).length ≤ budget
  known : ∀ t, ∀ token ∈ textTokens json t, token.kind ≠ .undefined
  /-- Behind the token of a string stands its closing quote. -/
  quoted : ∀ t, (textTokens json t).Pairwise fun a b => a.kind = .string → a.stop < b.start
  brackets : ∀ t, ∀ token ∈ textTokens json t, Bracketed token → token.start + 2 ≤ token.stop
  /-- An object or an array, parsed alone, has the tokens that it has in the text. -/
  part : ∀ t (i : Nat) token item, (textTokens json t)[i]? = some token → Bracketed token →
    spanOf t token = some item →
      (∃ inner, BracketTokens json token.kind item inner) ∧
        (textTokens json item).map (Token.shift token.start) <+: (textTokens json t).drop i
  /-- The quotes in a string are escaped, so that there is no string in it. -/
  escaped : ∀ t token item, token ∈ textTokens json t → token.kind = .string →
    spanOf t token = some item → ∀ a ∈ textTokens json item, a.kind ≠ .string
  /-- A primitive is no object or array, and there is none in it. -/
  bare : ∀ t token item, token ∈ textTokens json t → token.kind = .primitive →
    spanOf t token = some item → ∀ a ∈ textTokens json item, a.kind = .primitive

/-- What `kii_json_read_object` finds is there among the tokens of the text. -/
structure FieldsByTokens (json : JsonApi) : Prop where
  found : ∀ t fs (i : Nat) field, (json.kiiJsonReadObject t fs).1 = .success →
    fs[i]? = some field → field.type ≠ .string →
      ⟨field.type.kind, ((json.kiiJsonReadObject t fs).2 i).start,
        ((json.kiiJsonReadObject t fs).2 i).stop⟩ ∈ textTokens json t
  /-- An index leads to an element of an array. -/
  index : ∀ t k, (json.kiiJsonReadObject t [indexField k]).1 = .success →
    k < countElements (textTokens json t)
  /-- The elements lie one behind the other. -/
  inOrder : ∀ t j k, j < k → (json.kiiJsonReadObject t [indexField j]).1 = .success →
    (json.kiiJsonReadObject t [indexField k]).1 = .success →
      ((json.kiiJsonReadObject t [indexField j]).2 0).stop ≤
        ((json.kiiJsonReadObject t [indexField k]).2 0).start

/-! ## Entries of a token array -/

section

variable {json : JsonApi} (hjson : TokensWritten json) {text : Bytes}

theorem length_textTokens : (textTokens json text).length =
    (json.jsmnParse text fun _ => noToken).1.toNat := by
  rw [textTokens, List.length_map, List.length_range]

theorem textTokens_getElem? {i : Nat} (hi : i < (json.jsmnParse text fun _ => noToken).1.toNat) :
    (textTokens json text)[i]? = some ((json.jsmnParse text fun _ => noToken).2 i) := by
  rw [textTokens, List.getElem?_map, List.getElem?_range hi]
  rfl

include hjson

/-- Behind a parse an entry is a token of the text, or what it was before. -/
theorem entry_eq {stale : Nat → Token} (hpos : 0 ≤ (json.jsmnParse text stale).1) (i : Nat) :
    (json.jsmnParse text stale).2 i = ((textTokens json text)[i]?).getD (stale i) := by
  have hcount := hjson.count text stale fun _ => noToken
  by_cases hi : i < (json.jsmnParse text fun _ => noToken).1.toNat
  · rw [textTokens_getElem? hi, Option.getD_some]
    apply hjson.front
    omega
  · rw [List.getElem?_eq_none (by rw [length_textTokens]; omega), Option.getD_none]
    apply hjson.rest
    · exact hpos
    · omega

/-- A text with tokens was accepted, whatever the token array held. -/
theorem parse_nonneg (h : textTokens json text ≠ []) (stale : Nat → Token) :
    0 ≤ (json.jsmnParse text stale).1 := by
  have hlen := List.length_pos_of_ne_nil h
  rw [length_textTokens] at hlen
  rw [hjson.count text stale fun _ => noToken]
  omega

end

/-! ## Splitting an object by its tokens -/

/-- The tokens of an object between its brackets suffice for a split. -/
def Decisive (inner : List Token) : Prop :=
  (∃ key, inner[0]? = some key ∧ key.kind ≠ .string) ∨ 2 ≤ inner.length

section

variable {json : JsonApi} (hjson : TokensWritten json) {item : Bytes} {inner : List Token}
  (hitem : BracketTokens json .object item inner)
include hjson hitem

theorem BracketTokens.entry (stale : Nat → Token) (i : Nat) :
    (json.jsmnParse item stale).2 (i + 1) = (inner[i]?).getD (stale (i + 1)) := by
  have hne : textTokens json item ≠ [] := by
    rw [hitem.tokens_eq]
    exact List.cons_ne_nil _ _
  rw [entry_eq hjson (parse_nonneg hjson hne stale), hitem.tokens_eq, List.getElem?_cons_succ]

theorem BracketTokens.count (stale : Nat → Token) :
    (json.jsmnParse item stale).1 = (inner.length : Int) + 1 := by
  have hne : textTokens json item ≠ [] := by
    rw [hitem.tokens_eq]
    exact List.cons_ne_nil _ _
  have hpos := parse_nonneg hjson hne stale
  have hlen : (textTokens json item).length = (json.jsmnParse item stale).1.toNat := by
    rw [length_textTokens, hjson.count item stale fun _ => noToken]
  rw [hitem.tokens_eq, List.length_cons] at hlen
  omega

/-- An object is split by its second and third token, or by what stands in their place. -/
theorem BracketTokens.split_eq (base : Int) (stale : Nat → Token) :
    prvKiiThingIfGetKeyAndValueFromJson json item base stale =
      if ((inner[0]?).getD (stale 1)).kind = .string then
        some (.ofTokens base ((inner[0]?).getD (stale 1)) ((inner[1]?).getD (stale 2)))
      else none := by
  have hcount := hitem.count hjson stale
  have hzero : ((json.jsmnParse item stale).2 0).kind = .object := by
    rw [entry_eq hjson (by omega), hitem.tokens_eq]
    rfl
  have hone := hitem.entry hjson stale 0
  have htwo := hitem.entry hjson stale 1
  split
  · rename_i hkind
    rw [split_eq_some_iff]
    refine ⟨by omega, hzero, ?_, ?_⟩
    · rw [hone]
      exact hkind
    · rw [hone, htwo]
  · rename_i hkind
    apply split_eq_none
    intro _ _ hstring
    rw [hone] at hstring
    exact hkind hstring

/-- The tokens of an object suffice unless it has none, or a key alone. -/
theorem BracketTokens.suffice_iff : TokensSuffice json item ↔ Decisive inner := by
  have hcount := hitem.count hjson fun _ => noToken
  have hzero : ((json.jsmnParse item fun _ => noToken).2 0).kind = .object := by
    rw [entry_eq hjson (by omega), hitem.tokens_eq]
    rfl
  have hone := hitem.entry hjson (fun _ => noToken) 0
  have htwo := hitem.entry hjson (fun _ => noToken) 1
  unfold TokensSuffice Decisive
  constructor
  · rintro (hneg | ⟨-, hobject⟩ | ⟨hlen, hstring⟩ | ⟨hlen, -⟩)
    -- an object was parsed, so that its first token is there and says so
    · omega
    · exact absurd hzero hobject
    · left
      have hlt : 0 < inner.length := by omega
      rw [List.getElem?_eq_getElem hlt, Option.getD_some] at hone
      rw [hone] at hstring
      exact ⟨inner[0], List.getElem?_eq_getElem hlt, hstring⟩
    · right
      omega
  · rintro (⟨key, hkey, hkind⟩ | hlen)
    · right; right; left
      obtain ⟨hlt, -⟩ := List.getElem?_eq_some_iff.mp hkey
      rw [hkey, Option.getD_some] at hone
      rw [hone]
      exact ⟨by omega, hkind⟩
    · right; right; right
      have hlt : 1 < inner.length := by omega
      rw [List.getElem?_eq_getElem hlt, Option.getD_some] at htwo
      rw [htwo]
      exact ⟨by omega, (hitem.between inner[1] (List.getElem_mem hlt)).2⟩

end

/-! ## Parts of a text in the message -/

section

variable {json : JsonApi} {budget : Nat} (htree : TokenTree json budget)
include htree

/-- Tokens in the part of a text are tokens of the text, and lie in the part. -/
theorem TokenTree.part_le {t item : Bytes} {i : Nat} {token : Token}
    (htoken : (textTokens json t)[i]? = some token) (hbracketed : Bracketed token)
    (hitem : spanOf t token = some item) :
    (textTokens json item).length ≤ (textTokens json t).countP fun a =>
      decide (token.start ≤ a.start ∧ a.start < token.stop) := by
  obtain ⟨⟨inner, hinner⟩, hblock⟩ := htree.part t i token item htoken hbracketed hitem
  have hlen := (slice?_bounds hitem).2.1
  have hmem := htree.brackets t token (List.mem_of_getElem? htoken) hbracketed
  -- moved to where the part stands, its tokens start between its brackets
  have hall : ∀ a ∈ (textTokens json item).map (Token.shift token.start),
      decide (token.start ≤ a.start ∧ a.start < token.stop) = true := by
    intro a ha
    obtain ⟨b, hb, rfl⟩ := List.mem_map.mp ha
    have hin : 0 ≤ b.start ∧ b.start < item.length := by
      rw [hinner.tokens_eq] at hb
      rcases List.mem_cons.mp hb with rfl | hb
      · exact ⟨Int.le_refl 0, by show (0 : Int) < item.length; omega⟩
      · -- a token starts before it stops
        obtain ⟨j, hj⟩ := List.getElem?_of_mem hb
        have hentry := hinner.tokens_eq
        have hin := hinner.between b hb
        have hinside : b.start ≤ b.stop := by
          have hlt : j + 1 < (textTokens json item).length := by
            rw [hentry, List.length_cons]
            exact Nat.succ_lt_succ (List.getElem?_eq_some_iff.mp hj).1
          have hget : (textTokens json item)[j + 1]? = some b := by
            rw [hentry, List.getElem?_cons_succ]
            exact hj
          rw [length_textTokens] at hlt
          rw [textTokens_getElem? hlt, Option.some.injEq] at hget
          rw [← hget]
          exact (htree.inside item _ (j + 1) (by omega)).2.1
        omega
    rw [decide_eq_true_eq, Token.shift_start]
    omega
  calc (textTokens json item).length
      = ((textTokens json item).map (Token.shift token.start)).countP
          fun a => decide (token.start ≤ a.start ∧ a.start < token.stop) := by
        rw [List.countP_eq_length.mpr hall, List.length_map]
    _ ≤ ((textTokens json t).drop i).countP
          fun a => decide (token.start ≤ a.start ∧ a.start < token.stop) :=
        hblock.sublist.countP_le
    _ ≤ (textTokens json t).countP
          fun a => decide (token.start ≤ a.start ∧ a.start < token.stop) :=
        (List.drop_sublist i _).countP_le

end

/-! ## Values and their texts -/

theorem spanOf_eq {t u : Bytes} {a : Nat} (hocc : OccursAt t a u) (kind : TokenKind) :
    spanOf t ⟨kind, (a : Nat), (a + u.length : Nat)⟩ = some u := by
  have hlen : ((a + u.length : Nat) : Int) - (a : Nat) = (u.length : Nat) := by omega
  unfold spanOf
  rw [hlen]
  exact hocc.slice?_eq

/-- The text of the token of a value. -/
theorem spanOf_token {t : Bytes} {a : Nat} {w : Value} (hocc : OccursAt t a w.render) :
    spanOf t (w.token a) = some w.tokenText :=
  spanOf_eq (hocc.trans w.tokenText_occurs) w.kind

theorem textTokens_object {json : JsonApi} {budget : Nat} (hjson : JsonSpec json budget)
    {v : Value} (hkind : v.kind = .object) (htok : v.tokenCount ≤ budget) :
    textTokens json v.render = v.tokens 0 := by
  have hparse := hjson.tokens v (fun _ => noToken) hkind htok
  have hlen := v.length_tokens 0
  apply List.ext_getElem?
  intro i
  by_cases hi : i < (v.tokens 0).length
  · rw [textTokens_getElem? (by rw [hparse]; omega), hparse, List.getElem?_eq_getElem hi]
    show some (((v.tokens 0)[i]?).getD noToken) = some (v.tokens 0)[i]
    rw [List.getElem?_eq_getElem hi, Option.getD_some]
  · rw [List.getElem?_eq_none (by rw [length_textTokens, hparse]; omega),
      List.getElem?_eq_none (by omega)]

/-! ## The object at an index -/

/-- The token of the object that an index leads to. -/
def objectToken (json : JsonApi) (t : Bytes) (k : Nat) : Token :=
  ⟨.object, ((json.kiiJsonReadObject t [indexField k]).2 0).start,
    ((json.kiiJsonReadObject t [indexField k]).2 0).stop⟩

/-- The text of the object at an index, and what it has between its brackets. -/
structure ObjectAt (json : JsonApi) (t : Bytes) (k : Nat) (item : Bytes) (inner : List Token) :
    Prop where
  span : spanOf t (objectToken json t k) = some item
  tokens : BracketTokens json .object item inner
  long : 2 ≤ item.length
  block : ∃ i : Nat, (textTokens json t)[i]? = some (objectToken json t k) ∧
    (textTokens json item).map (Token.shift (objectToken json t k).start) <+:
      (textTokens json t).drop i

section

variable {json : JsonApi} {budget : Nat} (htree : TokenTree json budget)
  (hfields : FieldsByTokens json) {t : Bytes} {k : Nat}

include htree in
/-- A token that lies in the text has a text. -/
theorem span_isSome {token : Token} (h : token ∈ textTokens json t) :
    ∃ item, spanOf t token = some item ∧ (item.length : Int) = token.stop - token.start := by
  obtain ⟨i, hi⟩ := List.getElem?_of_mem h
  have hlt := (List.getElem?_eq_some_iff.mp hi).1
  rw [length_textTokens] at hlt
  rw [textTokens_getElem? hlt, Option.some.injEq] at hi
  have hin := htree.inside t (fun _ => noToken) i (by omega)
  rw [hi] at hin
  obtain ⟨item, hitem⟩ := slice?_of_bounds (m := t) hin.1
    (show 0 ≤ token.stop - token.start by omega) (by omega)
  exact ⟨item, hitem, (slice?_bounds hitem).2.1⟩

include htree hfields in
/-- An index that leads somewhere leads to an object with tokens of its own. -/
theorem object_of_success (h : (json.kiiJsonReadObject t [indexField k]).1 = .success) :
    ∃ item inner, ObjectAt json t k item inner := by
  have hmem : objectToken json t k ∈ textTokens json t :=
    hfields.found t [indexField k] 0 (indexField k) h rfl nofun
  have hbracketed : Bracketed (objectToken json t k) := .inl rfl
  obtain ⟨item, hitem, hlen⟩ := span_isSome htree hmem
  have hlong := htree.brackets t _ hmem hbracketed
  obtain ⟨i, hi⟩ := List.getElem?_of_mem hmem
  obtain ⟨⟨inner, hinner⟩, hblock⟩ := htree.part t i _ item hi hbracketed hitem
  exact ⟨item, inner, hitem, hinner, by omega, i, hi, hblock⟩

/-- In a text without strings it has no key. -/
theorem ObjectAt.no_string {item : Bytes} {inner : List Token}
    (h : ObjectAt json t k item inner) (hnone : ∀ a ∈ textTokens json t, a.kind ≠ .string) :
    ∀ a ∈ inner, a.kind ≠ .string := by
  intro a ha hkind
  obtain ⟨i, -, hblock⟩ := h.block
  have hmem : a.shift (objectToken json t k).start ∈
      (textTokens json item).map (Token.shift (objectToken json t k).start) := by
    rw [h.tokens.tokens_eq]
    exact List.mem_map_of_mem (List.mem_cons_of_mem _ ha)
  exact hnone _ (List.mem_of_mem_drop (hblock.subset hmem)) hkind

end

/-! ## The reference parsers -/

section

variable {budget : Nat}

theorem textTokens_reference (t : Bytes) : textTokens (referenceJson budget) t =
    match parseDoc t with
    | none => []
    | some d => if budget < d.val.tokenCount then [] else d.val.tokens d.pre.bytes.length := by
  unfold textTokens referenceJson referenceParse
  simp only
  cases parseDoc t with
  | none => rfl
  | some d =>
      simp only
      split
      · rfl
      · apply List.ext_getElem?
        intro i
        by_cases hi : i < d.val.tokenCount
        · have hlt : i < (d.val.tokens d.pre.bytes.length).length := by
            rw [Value.length_tokens]
            exact hi
          simp only [Int.toNat_natCast, List.getElem?_map, List.getElem?_range hi,
            Option.map_some, List.getElem?_eq_getElem hlt, Option.getD_some]
        · rw [List.getElem?_eq_none (by simpa using hi),
            List.getElem?_eq_none (by rw [Value.length_tokens]; omega)]

/-- A text with tokens is a JSON text of no more than the budget. -/
theorem doc_of_tokens {t : Bytes} (h : textTokens (referenceJson budget) t ≠ []) :
    ∃ d : Doc, d.render = t ∧ d.val.tokenCount ≤ budget ∧
      textTokens (referenceJson budget) t = d.val.tokens d.pre.bytes.length := by
  rw [textTokens_reference] at h ⊢
  cases hparse : parseDoc t with
  | none =>
      rw [hparse] at h
      exact absurd rfl h
  | some d =>
      rw [hparse] at h
      simp only at h ⊢
      split
      · rename_i hlt
        rw [if_pos hlt] at h
        exact absurd rfl h
      · exact ⟨d, parseDoc_sound hparse, by omega, rfl⟩

theorem textTokens_value {v : Value} (h : v.tokenCount ≤ budget) :
    textTokens (referenceJson budget) v.render = v.tokens 0 := by
  rw [textTokens_reference, parseDoc_value]
  exact if_neg (Nat.not_lt.mpr h)

/-- The tokens of a text stand for the values and the keys in it. -/
theorem textTokens_standsIn {t : Bytes} {i : Nat} {token : Token}
    (h : (textTokens (referenceJson budget) t)[i]? = some token) :
    (textTokens (referenceJson budget) t).length ≤ budget ∧
      token.StandsIn t 0 ((textTokens (referenceJson budget) t).drop i) := by
  have hne : textTokens (referenceJson budget) t ≠ [] := by
    intro hnil
    rw [hnil] at h
    cases h
  obtain ⟨d, hd, hbudget, htokens⟩ := doc_of_tokens hne
  rw [htokens] at h ⊢
  refine ⟨by rwa [Value.length_tokens], ?_⟩
  have hspans := (d.val.spans d.pre.bytes.length).inside d.pre.bytes d.post.bytes
    (Nat.zero_add _).symm hd.symm
  exact hspans i token h

/-- The value that a token stands for, read alone. -/
theorem textTokens_standing {t item : Bytes} {i a : Nat} {w : Value}
    (hlen : (textTokens (referenceJson budget) t).length ≤ budget)
    (hocc : OccursAt t a w.render)
    (hblock : w.tokens (0 + a) <+: (textTokens (referenceJson budget) t).drop i)
    (hitem : spanOf t (w.token (0 + a)) = some item) :
    item = w.tokenText ∧ w.tokenCount ≤ budget := by
  rw [Nat.zero_add, spanOf_token hocc] at hitem
  have hle := hblock.length_le
  rw [Value.length_tokens, List.length_drop] at hle
  exact ⟨(Option.some.inj hitem).symm, by omega⟩

end

theorem referenceJson_tree (budget : Nat) : TokenTree (referenceJson budget) budget where
  toTokensWritten := referenceJson_tokensWritten budget
  fits := by
    intro t
    rw [textTokens_reference]
    cases parseDoc t with
    | none => exact Nat.zero_le _
    | some d =>
        simp only
        split
        · exact Nat.zero_le _
        · rw [Value.length_tokens]
          omega
  known := by
    intro t token htoken
    obtain ⟨i, hi⟩ := List.getElem?_of_mem htoken
    cases (textTokens_standsIn hi).2 with
    | value w a heq hocc hblock =>
        rw [heq]
        cases w <;> exact nofun
    | key s a heq hocc =>
        rw [heq]
        exact nofun
  quoted := by
    intro t
    rw [textTokens_reference]
    cases parseDoc t with
    | none => exact .nil
    | some d =>
        simp only
        split
        · exact .nil
        · exact (d.val.tokens_laid d.pre.bytes.length).apart
  brackets := by
    intro t token htoken hbracketed
    obtain ⟨i, hi⟩ := List.getElem?_of_mem htoken
    cases (textTokens_standsIn hi).2 with
    | value w a heq hocc hblock =>
        subst heq
        obtain ⟨inner, hinner, -, hlen⟩ := Value.tokens_between (v := w) hbracketed
        have htext := tokenText_of_not_string (v := w) (by
          rcases hbracketed with h | h <;> rw [show w.kind = _ from h] <;> exact nofun)
        show ((0 + a + w.tokenPad : Nat) : Int) + 2 ≤
          ((0 + a + w.tokenPad + w.tokenText.length : Nat) : Int)
        rw [htext]
        omega
    | key s a heq hocc =>
        subst heq
        rcases hbracketed with h | h <;> cases h
  part := by
    intro t i token item hi hbracketed hitem
    obtain ⟨hlen, hstands⟩ := textTokens_standsIn hi
    cases hstands with
    | value w a heq hocc hblock =>
        subst heq
        obtain ⟨hitem, hbudget⟩ := textTokens_standing hlen hocc hblock hitem
        obtain ⟨inner, hinner, hbetween, -⟩ := Value.tokens_between (v := w) hbracketed
        have htext := tokenText_of_not_string (v := w) (by
          rcases hbracketed with h | h <;> rw [show w.kind = _ from h] <;> exact nofun)
        have hpad : w.tokenPad = 0 := by
          cases w with
          | str => rcases hbracketed with h | h <;> cases h
          | prim | arrNil | arr | objNil | obj => rfl
        rw [hitem, htext]
        have htokens := textTokens_value hbudget
        refine ⟨⟨inner, htokens.trans hinner, hbetween⟩, ?_⟩
        rw [htokens, show (w.token (0 + a)).start = ((a : Nat) : Int) by simp [Value.token, hpad],
          ← Value.tokens_shift a w (show 0 + a = a + 0 by omega)]
        exact hblock
    | key s a heq hocc =>
        subst heq
        rcases hbracketed with h | h <;> cases h
  escaped := by
    intro t token item htoken hkind hitem
    obtain ⟨i, hi⟩ := List.getElem?_of_mem htoken
    obtain ⟨hlen, hstands⟩ := textTokens_standsIn hi
    -- the text of a key or of a string value is the inside of a string
    have hraw : ∃ s : Str, item = s.raw := by
      cases hstands with
      | value w a heq hocc hblock =>
          subst heq
          obtain ⟨hitem, -⟩ := textTokens_standing hlen hocc hblock hitem
          cases w with
          | str s => exact ⟨s, hitem⟩
          | prim | arrNil | arr | objNil | obj => cases hkind
      | key s a heq hocc =>
          subst heq
          refine ⟨s, ?_⟩
          rw [Nat.zero_add, keyToken, spanOf_eq hocc.front] at hitem
          exact (Option.some.inj hitem).symm
    obtain ⟨s, rfl⟩ := hraw
    intro b hb
    obtain ⟨d, hd, -, htokens⟩ := doc_of_tokens (List.ne_nil_of_mem hb)
    rw [htokens] at hb
    exact Str.tokens_of_raw hd _ b hb
  bare := by
    intro t token item htoken hkind hitem
    obtain ⟨i, hi⟩ := List.getElem?_of_mem htoken
    obtain ⟨hlen, hstands⟩ := textTokens_standsIn hi
    cases hstands with
    | value w a heq hocc hblock =>
        subst heq
        obtain ⟨rfl, hbudget⟩ := textTokens_standing hlen hocc hblock hitem
        cases w with
        | prim p =>
            show ∀ b ∈ textTokens (referenceJson budget) (Value.prim p).render, _
            rw [textTokens_value hbudget]
            intro b hb
            rw [List.mem_singleton.mp hb]
            rfl
        | str | arrNil | arr | objNil | obj => cases hkind
    | key s a heq hocc =>
        subst heq
        cases hkind

/-- What a path leads to has a token in the text. -/
theorem lookup_token_mem {v w : Value} {key : FieldKey} {o : Nat}
    (h : lookup v key = some (o, w)) (b : Nat) : w.token (b + o) ∈ v.tokens b := by
  have hfield : ∀ name, (v.field name).map (fun m => (m.valOff, m.val)) = some (o, w) →
      w.token (b + o) ∈ v.tokens b := by
    intro name hm
    rw [Option.map_eq_some_iff] at hm
    obtain ⟨m, hm, heq⟩ := hm
    cases heq
    exact Value.token_mem_field hm b
  cases key with
  | name n => exact hfield n h
  | path p =>
      simp only [lookup] at h
      cases hl : v.elements with
      | none =>
          simp only [hl] at h
          split at h
          · cases h
          · exact hfield _ h
      | some l =>
          simp only [hl, Option.bind_eq_some_iff] at h
          obtain ⟨k, -, hk⟩ := h
          exact Value.token_mem_elements hl (List.mem_of_getElem? hk) b

theorem readField_success {d : Doc} {f : JsonField} (h : (readField d f).result = .success) :
    ∃ o v, lookup d.val f.key = some (o, v) ∧ v.kind = f.type.kind ∧
      (readField d f).start = d.pre.bytes.length + o + v.tokenPad ∧
      (readField d f).stop = d.pre.bytes.length + o + v.tokenPad + v.tokenText.length := by
  unfold readField at h ⊢
  cases hl : lookup d.val f.key with
  | none =>
      simp only [hl] at h
      cases h
  | some ov =>
      obtain ⟨o, v⟩ := ov
      simp only [hl] at h ⊢
      split
      · rename_i hkind
        rw [if_pos hkind] at h
        cases h
      · rename_i hkind
        refine ⟨o, v, rfl, not_not.mp hkind, ?_⟩
        split
        · exact ⟨rfl, rfl⟩
        · split <;> exact ⟨rfl, rfl⟩

/-- A text that is read is one with tokens, whose fields were all found. -/
theorem reference_reads {budget : Nat} {t : Bytes} {fs : List JsonField}
    (h : (referenceRead budget t fs).1 = .success) :
    ∃ d : Doc, parseDoc t = some d ∧
      textTokens (referenceJson budget) t = d.val.tokens d.pre.bytes.length ∧
      ∀ (i : Nat) field, fs[i]? = some field →
        (referenceRead budget t fs).2 i = readField d field ∧
        (readField d field).result = .success := by
  obtain ⟨d, rfl, hbudget, hread⟩ := referenceRead_parses (.inl h)
  refine ⟨d, parseDoc_render d, ?_, fun i field hfield => ?_⟩
  · rw [textTokens_reference, parseDoc_render]
    exact if_neg (Nat.not_lt.mpr hbudget)
  · have hreport := (referenceJson_report budget).success d.render fs h i
      (List.getElem?_eq_some_iff.mp hfield).1
    have heq : (referenceRead budget d.render fs).2 i = readField d field := by
      rw [hread]
      show ((fs.map (readField d))[i]?).getD missingField = readField d field
      rw [List.getElem?_map, hfield, Option.map_some, Option.getD_some]
    refine ⟨heq, ?_⟩
    rw [← heq]
    exact hreport

/-- The element that an index leads to. -/
theorem reference_element {budget : Nat} {t : Bytes} {d : Doc}
    (hread : ∀ (i : Nat) field, [indexField k][i]? = some field →
      (referenceRead budget t [indexField k]).2 i = readField d field ∧
        (readField d field).result = .success) :
    ∃ l o e, d.val.elements = some l ∧ l[k]? = some (o, e) ∧
      ((referenceRead budget t [indexField k]).2 0).start = d.pre.bytes.length + o ∧
      ((referenceRead budget t [indexField k]).2 0).stop =
        d.pre.bytes.length + o + e.render.length := by
  obtain ⟨heq, hsuccess⟩ := hread 0 (indexField k) rfl
  obtain ⟨o, e, hlook, hkind, hstart, hstop⟩ := readField_success hsuccess
  have hlook' : lookup d.val (.path (indexStr k)) = some (o, e) := hlook
  cases hl : d.val.elements with
  | none =>
      rw [lookup_index_object hl] at hlook'
      cases hlook'
  | some l =>
      rw [lookup_element hl] at hlook'
      obtain ⟨hpad, htext⟩ := tokenPad_of_object hkind
      rw [hpad] at hstart hstop
      rw [htext] at hstop
      exact ⟨l, o, e, rfl, hlook', by rw [heq, hstart]; rfl, by rw [heq, hstop]; rfl⟩

theorem referenceJson_fields (budget : Nat) : FieldsByTokens (referenceJson budget) where
  found := by
    intro t fs i field hsuccess hfield hkind
    obtain ⟨d, -, htokens, hread⟩ := reference_reads hsuccess
    obtain ⟨heq, hresult⟩ := hread i field hfield
    obtain ⟨o, v, hlook, hvkind, hstart, hstop⟩ := readField_success hresult
    have hmem := lookup_token_mem hlook d.pre.bytes.length
    rw [htokens]
    -- the span that is reported is that of the token
    have htoken : v.token (d.pre.bytes.length + o) = ⟨field.type.kind,
        (((referenceJson budget).kiiJsonReadObject t fs).2 i).start,
        (((referenceJson budget).kiiJsonReadObject t fs).2 i).stop⟩ := by
      show _ = (⟨_, ((((referenceRead budget t fs).2 i).start : Nat) : Int),
        ((((referenceRead budget t fs).2 i).stop : Nat) : Int)⟩ : Token)
      rw [heq, hstart, hstop, ← hvkind]
      rfl
    rwa [htoken] at hmem
  index := by
    intro t k hsuccess
    obtain ⟨d, -, htokens, hread⟩ := reference_reads hsuccess
    obtain ⟨l, o, e, hl, hk, -⟩ := reference_element hread
    rw [htokens, Value.countElements_tokens hl]
    exact (List.getElem?_eq_some_iff.mp hk).1
  inOrder := by
    intro t j k hjk hsuccess hsuccess'
    obtain ⟨d, hd, -, hread⟩ := reference_reads hsuccess
    obtain ⟨d', hd', -, hread'⟩ := reference_reads hsuccess'
    obtain rfl : d = d' := Option.some.inj (hd.symm.trans hd')
    obtain ⟨l, o, e, hl, hj, -, hstop⟩ := reference_element hread
    obtain ⟨l', o', e', hl', hk, hstart, -⟩ := reference_element hread'
    obtain rfl : l = l' := Option.some.inj (hl.symm.trans hl')
    obtain ⟨hlt, hj⟩ := List.getElem?_eq_some_iff.mp hj
    obtain ⟨hlt', hk⟩ := List.getElem?_eq_some_iff.mp hk
    have horder := List.pairwise_iff_getElem.mp (Value.elements_inOrder hl) j k hlt hlt' hjk
    rw [hj, hk] at horder
    change o + e.render.length ≤ o' at horder
    show ((referenceRead budget t [indexField j]).2 0).stop ≤
      ((referenceRead budget t [indexField k]).2 0).start
    rw [hstart, hstop]
    omega

end ThingIfSdk
