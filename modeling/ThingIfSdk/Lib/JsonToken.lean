import ThingIfSdk.Lib.JsonParse

/-!
# Tokens and parts of a JSON text

A tokeniser describes a JSON text by a list of tokens in document order, each
with the offsets between which it lies; the token of a string excludes its
quotes.  This file computes that list from the tree, together with the elements
of an array and the members of an object with their offsets, and proves that
each part occurs in the text at the offset computed for it.
-/

namespace JsonText

open ByteText

inductive TokenKind where
  | undefined
  | object
  | array
  | string
  | primitive
deriving DecidableEq, Repr

/-- A token: what it is, and the offsets of its first byte and of the byte behind it. -/
structure Token where
  kind : TokenKind
  start : Int
  stop : Int
deriving DecidableEq, Repr

def Value.kind : Value → TokenKind
  | .prim _ => .primitive
  | .str _ => .string
  | .arrNil _ => .array
  | .arr _ => .array
  | .objNil _ => .object
  | .obj _ => .object

/-- The text that the token of a value covers. -/
def Value.tokenText : Value → Bytes
  | .str s => s.raw
  | v => v.render

theorem tokenText_of_not_string {v : Value} (h : v.kind ≠ .string) : v.tokenText = v.render := by
  cases v with
  | str s => exact absurd rfl h
  | prim | arrNil | arr | objNil | obj => rfl

/-- How far the token of a value starts behind the value. -/
def Value.tokenPad : Value → Nat
  | .str _ => 1
  | _ => 0

/-- The token of a value that starts at offset `o`. -/
def Value.token (o : Nat) (v : Value) : Token :=
  ⟨v.kind, (o + v.tokenPad : Nat), (o + v.tokenPad + v.tokenText.length : Nat)⟩

/-- The token of a key whose opening quote stands right before offset `o`. -/
def keyToken (o : Nat) (key : Str) : Token :=
  ⟨.string, (o : Nat), (o + key.raw.length : Nat)⟩

/-! ## Offsets of the parts -/

/-- A member of an object: its key and its value with their offsets, the one of
the key being that of the first byte behind its opening quote. -/
structure Member where
  keyOff : Nat
  key : Str
  valOff : Nat
  val : Value

/-- The elements of an array body that starts at offset `o`. -/
def Elems.parts (o : Nat) : Elems → List (Nat × Value)
  | .last pre v _ => [(o + pre.bytes.length, v)]
  | .more pre v post rest =>
      (o + pre.bytes.length, v) ::
        rest.parts (o + pre.bytes.length + v.render.length + post.bytes.length + 1)

def Members.keyOff (o : Nat) (pre : Ws) : Nat :=
  o + pre.bytes.length + 1

def Members.valOff (o : Nat) (pre : Ws) (key : Str) (mid pre' : Ws) : Nat :=
  Members.keyOff o pre + key.raw.length + 1 + mid.bytes.length + 1 + pre'.bytes.length

/-- The members of an object body that starts at offset `o`. -/
def Members.parts (o : Nat) : Members → List Member
  | .last pre key mid pre' v _ =>
      [⟨keyOff o pre, key, valOff o pre key mid pre', v⟩]
  | .more pre key mid pre' v post rest =>
      ⟨keyOff o pre, key, valOff o pre key mid pre', v⟩ ::
        rest.parts (valOff o pre key mid pre' + v.render.length + post.bytes.length + 1)

/-- The elements of an array. -/
def Value.elements : Value → Option (List (Nat × Value))
  | .arrNil _ => some []
  | .arr es => some (es.parts 1)
  | _ => none

/-- The members of an object. -/
def Value.members : Value → Option (List Member)
  | .objNil _ => some []
  | .obj ms => some (ms.parts 1)
  | _ => none

/-- The member that a name leads to: the first whose key is spelled so. -/
def Value.field (v : Value) (name : Bytes) : Option Member :=
  (v.members.getD []).find? fun m => m.key.raw == name

/-- The member of an object that has just one. -/
def Value.soleMember (v : Value) : Option Member :=
  match v.members with
  | some [m] => some m
  | _ => none

/-- The elements of an array of one-member objects, by their offsets and members. -/
def Value.singles (v : Value) : Option (List (Nat × Member)) :=
  match v.elements with
  | some l => l.mapM fun e => e.2.soleMember.map fun m => (e.1, m)
  | none => none

/-- Where the token of a member's value starts in a text. -/
def Doc.tokenStart (d : Doc) (m : Member) : Nat :=
  d.pre.bytes.length + m.valOff + m.val.tokenPad

def Doc.tokenStop (d : Doc) (m : Member) : Nat :=
  d.tokenStart m + m.val.tokenText.length

/-! ## Tokens -/

mutual

/-- The tokens of a value that starts at offset `o`, in document order. -/
def Value.tokens (o : Nat) : Value → List Token
  | .prim p => [Value.token o (.prim p)]
  | .str s => [Value.token o (.str s)]
  | .arrNil pad => [Value.token o (.arrNil pad)]
  | .arr es => Value.token o (.arr es) :: es.tokens (o + 1)
  | .objNil pad => [Value.token o (.objNil pad)]
  | .obj ms => Value.token o (.obj ms) :: ms.tokens (o + 1)

def Elems.tokens (o : Nat) : Elems → List Token
  | .last pre v _ => v.tokens (o + pre.bytes.length)
  | .more pre v post rest =>
      v.tokens (o + pre.bytes.length) ++
        rest.tokens (o + pre.bytes.length + v.render.length + post.bytes.length + 1)

def Members.tokens (o : Nat) : Members → List Token
  | .last pre key mid pre' v _ =>
      keyToken (Members.keyOff o pre) key :: v.tokens (Members.valOff o pre key mid pre')
  | .more pre key mid pre' v post rest =>
      keyToken (Members.keyOff o pre) key :: (v.tokens (Members.valOff o pre key mid pre') ++
        rest.tokens
          (Members.valOff o pre key mid pre' + v.render.length + post.bytes.length + 1))

end

mutual

/-- The number of tokens of a value: one for each value and each key in it. -/
def Value.tokenCount : Value → Nat
  | .prim _ => 1
  | .str _ => 1
  | .arrNil _ => 1
  | .arr es => 1 + es.tokenCount
  | .objNil _ => 1
  | .obj ms => 1 + ms.tokenCount

def Elems.tokenCount : Elems → Nat
  | .last _ v _ => v.tokenCount
  | .more _ v _ rest => v.tokenCount + rest.tokenCount

def Members.tokenCount : Members → Nat
  | .last _ _ _ _ v _ => 1 + v.tokenCount
  | .more _ _ _ _ v _ rest => 1 + v.tokenCount + rest.tokenCount

end

mutual

theorem Value.length_tokens : ∀ (v : Value) (o : Nat), (v.tokens o).length = v.tokenCount
  | .prim _, _ => rfl
  | .str _, _ => rfl
  | .arrNil _, _ => rfl
  | .arr es, o => by
      simp only [Value.tokens, Value.tokenCount, List.length_cons, es.length_tokens (o + 1)]
      omega
  | .objNil _, _ => rfl
  | .obj ms, o => by
      simp only [Value.tokens, Value.tokenCount, List.length_cons, ms.length_tokens (o + 1)]
      omega

theorem Elems.length_tokens : ∀ (es : Elems) (o : Nat), (es.tokens o).length = es.tokenCount
  | .last pre v _, o => by
      simp only [Elems.tokens, Elems.tokenCount, v.length_tokens]
  | .more pre v post rest, o => by
      simp only [Elems.tokens, Elems.tokenCount, List.length_append, v.length_tokens,
        rest.length_tokens]

theorem Members.length_tokens : ∀ (ms : Members) (o : Nat),
    (ms.tokens o).length = ms.tokenCount
  | .last pre key mid pre' v _, o => by
      simp only [Members.tokens, Members.tokenCount, List.length_cons, v.length_tokens]
      omega
  | .more pre key mid pre' v post rest, o => by
      simp only [Members.tokens, Members.tokenCount, List.length_cons, List.length_append,
        v.length_tokens, rest.length_tokens]
      omega

end

theorem Value.tokenCount_pos (v : Value) : 0 < v.tokenCount := by
  cases v <;> simp only [Value.tokenCount] <;> omega

/-- The first token of a value is its own. -/
theorem Value.tokens_head (v : Value) (o : Nat) :
    ∃ rest, v.tokens o = v.token o :: rest := by
  cases v <;> exact ⟨_, rfl⟩

/-- The tokens of a nonempty object start with its own, the first key and the
first value. -/
theorem Members.tokens_obj (ms : Members) :
    ∃ m rest toks, ms.parts 1 = m :: rest ∧
      (Value.obj ms).tokens 0 =
        (Value.obj ms).token 0 :: keyToken m.keyOff m.key :: m.val.token m.valOff :: toks := by
  cases ms with
  | last pre key mid pre' v post =>
      obtain ⟨toks, htoks⟩ := v.tokens_head (Members.valOff 1 pre key mid pre')
      refine ⟨_, [], toks, rfl, ?_⟩
      simp only [Value.tokens, Members.tokens, htoks]
  | more pre key mid pre' v post rest =>
      obtain ⟨toks, htoks⟩ := v.tokens_head (Members.valOff 1 pre key mid pre')
      refine ⟨_, _, toks ++ rest.tokens
        (Members.valOff 1 pre key mid pre' + v.render.length + post.bytes.length + 1), rfl, ?_⟩
      simp only [Value.tokens, Members.tokens, htoks, List.cons_append]

/-! ## Where the tokens lie -/

/-- The tokens lie between two offsets, and behind a string, and the quote that ends it,
come only tokens that start behind that. -/
structure Token.Laid (lo hi : Nat) (l : List Token) : Prop where
  inside : ∀ t ∈ l, (lo : Int) ≤ t.start ∧ t.start ≤ t.stop ∧ t.stop ≤ hi
  quoted : ∀ t ∈ l, t.kind = .string → t.stop < hi
  apart : l.Pairwise fun a b => a.kind = .string → a.stop < b.start

namespace Token.Laid

variable {lo mid hi : Nat} {l l' : List Token}

theorem mono {lo' hi' : Nat} (h : Token.Laid lo hi l) (hlo : lo' ≤ lo) (hhi : hi ≤ hi') :
    Token.Laid lo' hi' l := by
  refine ⟨?_, ?_, h.apart⟩
  · intro t ht
    have hin := h.inside t ht
    omega
  · intro t ht hkind
    have hlt := h.quoted t ht hkind
    omega

theorem append (h : Token.Laid lo mid l) (h' : Token.Laid mid hi l') (hlo : lo ≤ mid)
    (hhi : mid ≤ hi) : Token.Laid lo hi (l ++ l') := by
  constructor
  · intro t ht
    rcases List.mem_append.mp ht with ht | ht
    · exact (h.mono (Nat.le_refl lo) hhi).inside t ht
    · exact (h'.mono hlo (Nat.le_refl hi)).inside t ht
  · intro t ht
    rcases List.mem_append.mp ht with ht | ht
    · exact (h.mono (Nat.le_refl lo) hhi).quoted t ht
    · exact (h'.mono hlo (Nat.le_refl hi)).quoted t ht
  · rw [List.pairwise_append]
    refine ⟨h.apart, h'.apart, ?_⟩
    intro a ha b hb hkind
    have hlt := h.quoted a ha hkind
    have hin := h'.inside b hb
    omega

/-- A token that is no string, before the tokens that lie in it. -/
theorem cons {t : Token} (h : Token.Laid lo hi l) (hkind : t.kind ≠ .string)
    (hstart : t.start = lo) (hstop : t.stop = hi) (hle : lo ≤ hi) :
    Token.Laid lo hi (t :: l) := by
  constructor
  · intro t' ht'
    rcases List.mem_cons.mp ht' with rfl | ht'
    · omega
    · exact h.inside t' ht'
  · intro t' ht' hstring
    rcases List.mem_cons.mp ht' with rfl | ht'
    · exact absurd hstring hkind
    · exact h.quoted t' ht' hstring
  · exact List.pairwise_cons.mpr ⟨fun _ _ hs => absurd hs hkind, h.apart⟩

theorem singleton {t : Token} (hlo : (lo : Int) ≤ t.start) (hle : t.start ≤ t.stop)
    (hhi : t.stop ≤ hi) (hquoted : t.kind = .string → t.stop < hi) : Token.Laid lo hi [t] := by
  refine ⟨?_, ?_, List.pairwise_singleton _ _⟩
  · intro t' ht'
    rw [List.mem_singleton] at ht'
    subst ht'
    exact ⟨hlo, hle, hhi⟩
  · intro t' ht'
    rw [List.mem_singleton] at ht'
    subst ht'
    exact hquoted

end Token.Laid

theorem keyToken_laid (o : Nat) (key : Str) :
    Token.Laid o (o + key.raw.length + 1) [keyToken o key] := by
  have hstart : (keyToken o key).start = (o : Nat) := rfl
  have hstop : (keyToken o key).stop = (o + key.raw.length : Nat) := rfl
  apply Token.Laid.singleton <;> omega

theorem Value.token_laid (v : Value) (o : Nat) :
    Token.Laid o (o + v.render.length) [v.token o] := by
  have hstart : (v.token o).start = (o + v.tokenPad : Nat) := rfl
  have hstop : (v.token o).stop = (o + v.tokenPad + v.tokenText.length : Nat) := rfl
  have hlen : v.tokenPad + v.tokenText.length ≤ v.render.length ∧
      ((v.token o).kind = .string → v.tokenPad + v.tokenText.length < v.render.length) := by
    cases v with
    | str s =>
        simp only [tokenPad, tokenText, render, List.length_cons, List.length_append,
          List.length_nil]
        omega
    | prim | arrNil | arr | objNil | obj => exact ⟨Nat.le_of_eq (Nat.zero_add _), nofun⟩
  apply Token.Laid.singleton
  · omega
  · omega
  · omega
  · intro hkind
    have hlt := hlen.2 hkind
    omega

mutual

theorem Value.tokens_laid : ∀ (v : Value) (o : Nat),
    Token.Laid o (o + v.render.length) (v.tokens o)
  | .prim p, o => Value.token_laid (.prim p) o
  | .str s, o => Value.token_laid (.str s) o
  | .arrNil pad, o => Value.token_laid (.arrNil pad) o
  | .objNil pad, o => Value.token_laid (.objNil pad) o
  | .arr es, o => by
      have hin := es.tokens_laid (o + 1)
      have hlen : (Value.arr es).render.length = es.render.length + 2 := by
        simp only [Value.render, List.length_cons, List.length_append, List.length_nil]
      refine Token.Laid.cons (hin.mono (by omega) (by omega)) nofun rfl rfl (by omega)
  | .obj ms, o => by
      have hin := ms.tokens_laid (o + 1)
      have hlen : (Value.obj ms).render.length = ms.render.length + 2 := by
        simp only [Value.render, List.length_cons, List.length_append, List.length_nil]
      refine Token.Laid.cons (hin.mono (by omega) (by omega)) nofun rfl rfl (by omega)

theorem Elems.tokens_laid : ∀ (es : Elems) (o : Nat),
    Token.Laid o (o + es.render.length) (es.tokens o)
  | .last pre v post, o => by
      simp only [Elems.render, Elems.tokens, List.length_append]
      exact (v.tokens_laid _).mono (by omega) (by omega)
  | .more pre v post rest, o => by
      simp only [Elems.render, Elems.tokens, List.length_append, List.length_cons]
      refine Token.Laid.append ((v.tokens_laid _).mono (by omega) (Nat.le_refl _))
        ((rest.tokens_laid _).mono (by omega) (by omega)) (by omega) (by omega)

theorem Members.tokens_laid : ∀ (ms : Members) (o : Nat),
    Token.Laid o (o + ms.render.length) (ms.tokens o)
  | .last pre key mid pre' v post, o => by
      simp only [Members.render, Members.tokens, List.length_append, List.length_cons]
      have hkey := keyToken_laid (Members.keyOff o pre) key
      have hval := v.tokens_laid (Members.valOff o pre key mid pre')
      unfold Members.valOff at hval ⊢
      unfold Members.keyOff at hkey hval ⊢
      exact Token.Laid.append (hkey.mono (by omega) (Nat.le_refl _))
        (hval.mono (by omega) (by omega)) (by omega) (by omega)
  | .more pre key mid pre' v post rest, o => by
      simp only [Members.render, Members.tokens, List.length_append, List.length_cons]
      have hkey := keyToken_laid (Members.keyOff o pre) key
      have hval := v.tokens_laid (Members.valOff o pre key mid pre')
      have hrest := rest.tokens_laid
        (Members.valOff o pre key mid pre' + v.render.length + post.bytes.length + 1)
      unfold Members.valOff at hval hrest ⊢
      unfold Members.keyOff at hkey hval hrest ⊢
      refine Token.Laid.append (hkey.mono (by omega) (Nat.le_refl _))
        (Token.Laid.append (hval.mono (by omega) (Nat.le_refl _))
          (hrest.mono (by omega) (by omega)) (by omega) (by omega)) (by omega) (by omega)

end

/-! ## Parts occur where they are said to -/

theorem Elems.parts_occur : ∀ (es : Elems) (pre tail : Bytes) (o : Nat) (e : Value),
    (o, e) ∈ es.parts pre.length → OccursAt (pre ++ (es.render ++ tail)) o e.render
  | .last ws v post, pre, tail, o, e, h => by
      simp only [Elems.parts, List.mem_singleton, Prod.mk.injEq] at h
      obtain ⟨rfl, rfl⟩ := h
      exact ⟨pre ++ ws.bytes, post.bytes ++ tail, by simp [Elems.render], by simp⟩
  | .more ws v post rest, pre, tail, o, e, h => by
      simp only [Elems.parts, List.mem_cons, Prod.mk.injEq] at h
      rcases h with ⟨rfl, rfl⟩ | h
      · exact ⟨pre ++ ws.bytes, post.bytes ++ comma :: (rest.render ++ tail),
          by simp [Elems.render], by simp⟩
      · have hlen : (pre ++ (ws.bytes ++ (v.render ++ (post.bytes ++ [comma])))).length =
            pre.length + ws.bytes.length + v.render.length + post.bytes.length + 1 := by
          simp only [List.length_append, List.length_singleton]
          omega
        rw [← hlen] at h
        have := Elems.parts_occur rest _ tail o e h
        simpa [Elems.render] using this

/-- Where a member of an object lies: its key with the closing quote, and the
token of its value with one byte behind it. -/
structure Member.OccursIn (m : Member) (t : Bytes) : Prop where
  key : OccursAt t m.keyOff (m.key.raw ++ [quote])
  val : OccursAt t m.valOff m.val.render
  token : ∃ b, OccursAt t (m.valOff + m.val.tokenPad) (m.val.tokenText ++ [b])
  order : m.keyOff + m.key.raw.length < m.valOff

/-- The token of an occurring value, with one byte behind it. -/
theorem Value.token_occurs (v : Value) (pre : Bytes) (c : Byte) (tail : Bytes) :
    ∃ b, OccursAt (pre ++ (v.render ++ c :: tail)) (pre.length + v.tokenPad)
      (v.tokenText ++ [b]) := by
  cases v with
  | str s =>
      exact ⟨quote, pre ++ [quote], c :: tail, by simp [Value.render, Value.tokenText],
        by simp [Value.tokenPad]⟩
  | prim | arrNil | arr | objNil | obj =>
      exact ⟨c, pre, tail, by simp [Value.tokenText], by simp [Value.tokenPad]⟩

/-- One member at a known place. -/
theorem Member.occursIn_intro (pre : Bytes) (ws : Ws) (key : Str) (mid pre' : Ws) (v : Value)
    (c : Byte) (tail : Bytes) :
    Member.OccursIn ⟨Members.keyOff pre.length ws, key, Members.valOff pre.length ws key mid pre',
      v⟩ (pre ++ (ws.bytes ++ quote :: (key.raw ++ quote :: (mid.bytes ++ colon ::
        (pre'.bytes ++ (v.render ++ c :: tail)))))) := by
  have hval := v.token_occurs (pre ++ (ws.bytes ++ quote :: (key.raw ++ quote :: (mid.bytes ++
    colon :: pre'.bytes)))) c tail
  have hoff : (pre ++ (ws.bytes ++ quote :: (key.raw ++ quote :: (mid.bytes ++
      colon :: pre'.bytes)))).length = Members.valOff pre.length ws key mid pre' := by
    simp only [Members.valOff, Members.keyOff, List.length_append, List.length_cons]
    omega
  rw [hoff] at hval
  refine ⟨?_, ?_, ?_, ?_⟩
  · exact ⟨pre ++ (ws.bytes ++ [quote]), mid.bytes ++ colon :: (pre'.bytes ++ (v.render ++
      c :: tail)), by simp, by simp [Members.keyOff]; omega⟩
  · exact ⟨_, c :: tail, by simp, hoff⟩
  · simpa using hval
  · simp only [Members.valOff]
    omega

theorem Members.parts_occur : ∀ (ms : Members) (pre tail : Bytes) (c : Byte) (m : Member),
    m ∈ ms.parts pre.length → m.OccursIn (pre ++ (ms.render ++ c :: tail))
  | .last ws key mid pre' v post, pre, tail, c, m, h => by
      simp only [Members.parts, List.mem_singleton] at h
      subst h
      cases hpost : post.bytes with
      | nil =>
          have := Member.occursIn_intro pre ws key mid pre' v c tail
          simpa [Members.render, hpost] using this
      | cons b post' =>
          have := Member.occursIn_intro pre ws key mid pre' v b (post' ++ c :: tail)
          simpa [Members.render, hpost] using this
  | .more ws key mid pre' v post rest, pre, tail, c, m, h => by
      simp only [Members.parts, List.mem_cons] at h
      rcases h with rfl | h
      · cases hpost : post.bytes with
        | nil =>
            have := Member.occursIn_intro pre ws key mid pre' v comma (rest.render ++ c :: tail)
            simpa [Members.render, hpost] using this
        | cons b post' =>
            have := Member.occursIn_intro pre ws key mid pre' v b
              (post' ++ comma :: (rest.render ++ c :: tail))
            simpa [Members.render, hpost] using this
      · have hlen : (pre ++ (ws.bytes ++ quote :: (key.raw ++ quote :: (mid.bytes ++ colon ::
            (pre'.bytes ++ (v.render ++ (post.bytes ++ [comma]))))))).length =
            Members.valOff pre.length ws key mid pre' + v.render.length + post.bytes.length +
              1 := by
          simp only [Members.valOff, Members.keyOff, List.length_append, List.length_cons,
            List.length_nil]
          omega
        rw [← hlen] at h
        have := Members.parts_occur rest _ tail c m h
        simpa [Members.render] using this

/-- Every element of an array occurs in its text. -/
theorem Value.elements_occur {v : Value} {l : List (Nat × Value)} (h : v.elements = some l)
    {o : Nat} {e : Value} (hm : (o, e) ∈ l) : OccursAt v.render o e.render := by
  cases v with
  | arr es =>
      cases h
      have := es.parts_occur [lbracket] [rbracket] o e hm
      simpa [Value.render] using this
  | arrNil pad =>
      cases h
      cases hm
  | prim | str | objNil | obj => cases h

/-- An element ends before its array does. -/
theorem Value.elements_inside {v : Value} {l : List (Nat × Value)} (h : v.elements = some l)
    {o : Nat} {e : Value} (hm : (o, e) ∈ l) : o + e.render.length < v.render.length := by
  cases v with
  | arr es =>
      cases h
      have hbound := (es.parts_occur [lbracket] [] o e hm).bound
      simp only [Value.render, List.length_append, List.length_cons, List.length_nil] at hbound ⊢
      omega
  | arrNil pad =>
      cases h
      cases hm
  | prim | str | objNil | obj => cases h

/-- Every member of an object occurs in its text. -/
theorem Value.members_occur {v : Value} {l : List Member} (h : v.members = some l)
    {m : Member} (hm : m ∈ l) : m.OccursIn v.render := by
  cases v with
  | obj ms =>
      cases h
      have := ms.parts_occur [lbrace] [] rbrace m hm
      simpa [Value.render] using this
  | objNil pad =>
      cases h
      cases hm
  | prim | str | arrNil | arr => cases h

theorem Value.tokenText_occurs (v : Value) : OccursAt v.render v.tokenPad v.tokenText := by
  cases v with
  | str s => exact ⟨[quote], [quote], rfl, rfl⟩
  | prim | arr | arrNil | obj | objNil => exact ⟨[], [], (List.append_nil _).symm, rfl⟩

/-- The member that a name leads to occurs in the text of the object. -/
theorem Value.field_occurs {v : Value} {name : Bytes} {m : Member} (h : v.field name = some m) :
    m.OccursIn v.render := by
  unfold Value.field at h
  have hmem := List.mem_of_find?_eq_some h
  cases hms : v.members with
  | none => simp [hms] at hmem
  | some ms =>
      rw [hms, Option.getD_some] at hmem
      exact Value.members_occur hms hmem

/-- The token of a member of the top-level object occurs in the text. -/
theorem Doc.tokenText_occurs {d : Doc} {name : Bytes} {m : Member}
    (h : d.val.field name = some m) : OccursAt d.render (d.tokenStart m) m.val.tokenText := by
  obtain ⟨b, htoken⟩ := (Value.field_occurs h).token
  have := (OccursAt.intro d.pre.bytes d.val.render d.post.bytes).trans htoken.front
  rwa [← Nat.add_assoc] at this

/-! ## Parts have no more tokens than the whole -/

theorem Elems.tokenCount_parts : ∀ (es : Elems) (k o : Nat) (e : Value),
    (o, e) ∈ es.parts k → e.tokenCount ≤ es.tokenCount
  | .last ws v post, k, o, e, h => by
      simp only [Elems.parts, List.mem_singleton, Prod.mk.injEq] at h
      rw [h.2, Elems.tokenCount]
  | .more ws v post rest, k, o, e, h => by
      simp only [Elems.parts, List.mem_cons, Prod.mk.injEq] at h
      simp only [Elems.tokenCount]
      rcases h with ⟨-, rfl⟩ | h
      · omega
      · have := Elems.tokenCount_parts rest _ o e h
        omega

theorem Members.tokenCount_parts : ∀ (ms : Members) (k : Nat) (m : Member),
    m ∈ ms.parts k → m.val.tokenCount < ms.tokenCount
  | .last ws key mid pre' v post, k, m, h => by
      simp only [Members.parts, List.mem_singleton] at h
      simp only [h, Members.tokenCount]
      omega
  | .more ws key mid pre' v post rest, k, m, h => by
      simp only [Members.parts, List.mem_cons] at h
      simp only [Members.tokenCount]
      rcases h with rfl | h
      · simp only
        omega
      · have := Members.tokenCount_parts rest _ m h
        omega

theorem Value.tokenCount_elements {v : Value} {l : List (Nat × Value)}
    (h : v.elements = some l) {o : Nat} {e : Value} (hm : (o, e) ∈ l) :
    e.tokenCount < v.tokenCount := by
  cases v with
  | arr es =>
      cases h
      have := es.tokenCount_parts 1 o e hm
      simp only [Value.tokenCount]
      omega
  | arrNil pad =>
      cases h
      cases hm
  | prim | str | objNil | obj => cases h

theorem Value.tokenCount_members {v : Value} {l : List Member} (h : v.members = some l)
    {m : Member} (hm : m ∈ l) : m.val.tokenCount < v.tokenCount := by
  cases v with
  | obj ms =>
      cases h
      have := ms.tokenCount_parts 1 m hm
      simp only [Value.tokenCount]
      omega
  | objNil pad =>
      cases h
      cases hm
  | prim | str | arrNil | arr => cases h

theorem Value.tokenCount_field {v : Value} {name : Bytes} {m : Member}
    (h : v.field name = some m) : m.val.tokenCount < v.tokenCount := by
  unfold Value.field at h
  have hmem := List.mem_of_find?_eq_some h
  cases hms : v.members with
  | none => simp [hms] at hmem
  | some ms =>
      rw [hms, Option.getD_some] at hmem
      exact Value.tokenCount_members hms hmem

/-- An array has fewer elements than tokens. -/
theorem Elems.length_parts_le : ∀ (es : Elems) (k : Nat), (es.parts k).length ≤ es.tokenCount
  | .last _ v _, k => by
      have := v.tokenCount_pos
      simp only [Elems.parts, Elems.tokenCount, List.length_singleton]
      omega
  | .more pre v post rest, k => by
      have := v.tokenCount_pos
      have := Elems.length_parts_le rest (k + pre.bytes.length + v.render.length +
        post.bytes.length + 1)
      simp only [Elems.parts, Elems.tokenCount, List.length_cons]
      omega

theorem Value.length_elements_lt {v : Value} {l : List (Nat × Value)}
    (h : v.elements = some l) : l.length < v.tokenCount := by
  cases v with
  | arr es =>
      cases h
      have := es.length_parts_le 1
      simp only [Value.tokenCount]
      omega
  | arrNil pad =>
      cases h
      simp [Value.tokenCount]
  | prim | str | objNil | obj => cases h

theorem Value.kind_of_elements {v : Value} {l : List (Nat × Value)} (h : v.elements = some l) :
    v.kind = .array := by
  cases v with
  | arr | arrNil => rfl
  | prim | str | objNil | obj => cases h

theorem Value.elements_of_kind {v : Value} (h : v.kind = .array) : ∃ l, v.elements = some l := by
  cases v with
  | arr es => exact ⟨_, rfl⟩
  | arrNil pad => exact ⟨[], rfl⟩
  | prim | str | obj | objNil => cases h

theorem Value.kind_of_members {v : Value} {l : List Member} (h : v.members = some l) :
    v.kind = .object := by
  cases v with
  | obj | objNil => rfl
  | prim | str | arr | arrNil => cases h

theorem Value.members_of_kind {v : Value} (h : v.kind = .object) : ∃ ms, v.members = some ms := by
  cases v with
  | obj ms => exact ⟨_, rfl⟩
  | objNil pad => exact ⟨[], rfl⟩
  | prim | str | arr | arrNil => cases h

/-- An object without members is empty braces. -/
theorem Value.eq_objNil_of_members {v : Value} (h : v.members = some []) :
    ∃ pad, v = .objNil pad := by
  cases v with
  | objNil pad => exact ⟨pad, rfl⟩
  | obj ms =>
      obtain ⟨m, rest, toks, hparts, -⟩ := ms.tokens_obj
      rw [Value.members, hparts] at h
      cases h
  | prim | str | arr | arrNil => cases h

/-- Collecting optional results, entry by entry. -/
theorem forall₂_of_mapM {α β : Type} {f : α → Option β} :
    ∀ {l : List α} {l' : List β}, l.mapM f = some l' → List.Forall₂ (fun a b => f a = some b) l l'
  | [], l', h => by
      simp only [List.mapM_nil, Option.pure_def, Option.some.injEq] at h
      subst h
      exact .nil
  | a :: l, l', h => by
      rw [List.mapM_cons] at h
      cases ha : f a with
      | none => simp [ha] at h
      | some b =>
          cases hl : l.mapM f with
          | none => simp [ha, hl] at h
          | some bs =>
              simp only [ha, hl, Option.pure_def, Option.bind_eq_bind, Option.bind_some,
                Option.some.injEq] at h
              subst h
              exact .cons ha (forall₂_of_mapM hl)

theorem Value.soleMember_eq {v : Value} {m : Member} (h : v.soleMember = some m) :
    v.members = some [m] := by
  unfold Value.soleMember at h
  split at h
  · cases h
    assumption
  · cases h

/-- The elements behind an array of one-member objects. -/
theorem Value.singles_spec {v : Value} {l : List (Nat × Member)} (h : v.singles = some l) :
    ∃ es, v.elements = some es ∧ es.length = l.length ∧
      ∀ (k o : Nat) (m : Member), l[k]? = some (o, m) →
        ∃ e : Value, es[k]? = some (o, e) ∧ e.members = some [m] := by
  unfold Value.singles at h
  cases hes : v.elements with
  | none => simp [hes] at h
  | some es =>
      simp only [hes] at h
      have hall := forall₂_of_mapM h
      refine ⟨es, rfl, hall.length_eq, ?_⟩
      intro k o m hk
      obtain ⟨hlt, hget⟩ := List.getElem?_eq_some_iff.mp hk
      have hlt' : k < es.length := by rw [hall.length_eq]; exact hlt
      have hstep := List.forall₂_iff_get.mp hall |>.2 k hlt' hlt
      rw [List.get_eq_getElem, List.get_eq_getElem, hget, Option.map_eq_some_iff] at hstep
      obtain ⟨m', hm', heq⟩ := hstep
      cases heq
      exact ⟨es[k].2, List.getElem?_eq_getElem hlt', Value.soleMember_eq hm'⟩

theorem Value.nul_not_mem_tokenText (v : Value) : (0 : Byte) ∉ v.tokenText := by
  cases v with
  | str s => exact s.nul_not_mem_raw
  | prim | arrNil | arr | objNil | obj => exact Value.nul_not_mem_render _

/-! ## A string holds no string

The first quote or backslash in the inside of a string is a backslash, and in a
value it is a quote. -/

def isQuoting (b : Byte) : Bool :=
  b == quote || b == backslash

theorem find?_isQuoting_eq_none {t : Bytes} (h : t.all (fun b => !isQuoting b) = true) :
    t.find? isQuoting = none := by
  rw [List.find?_eq_none]
  intro b hb
  have := List.all_eq_true.mp h b hb
  simpa using this

theorem Str.find?_isQuoting (s : Str) : s.raw.find? isQuoting ≠ some quote := by
  induction s with
  | nil => simp [Str.raw]
  | cons u s ih =>
      cases u with
      | plain b ok =>
          have hb : isQuoting b = false := by
            simp only [isPlain, Bool.and_eq_true, bne_iff_ne] at ok
            simp [isQuoting, ok.1.2, ok.2]
          simpa [Str.raw, StrUnit.render, List.find?_cons, hb] using ih
      | short b ok =>
          simp [Str.raw, StrUnit.render, isQuoting, quote, backslash]
      | unicode a b c d ok =>
          simp [Str.raw, StrUnit.render, isQuoting, quote, backslash]

theorem Ws.find?_isQuoting (w : Ws) : w.bytes.find? isQuoting = Option.none := by
  apply find?_isQuoting_eq_none
  rw [List.all_eq_true]
  intro b hb
  have := List.all_eq_true.mp w.ok b hb
  simp only [isWs, Bool.or_eq_true, beq_iff_eq] at this
  rcases this with ((rfl | rfl) | rfl) | rfl <;> rfl

theorem Prim.find?_isQuoting (p : Prim) : p.bytes.find? isQuoting = none := by
  apply find?_isQuoting_eq_none
  rw [List.all_eq_true]
  intro b hb
  have hprim := List.all_eq_true.mp p.all_primByte b hb
  have hquote : b ≠ quote := by
    rintro rfl
    exact absurd hprim (by decide)
  have hbackslash : b ≠ backslash := by
    rintro rfl
    exact absurd hprim (by decide)
  simp [isQuoting, hquote, hbackslash]

/-- A text in front of which no backslash comes first. -/
theorem find?_append_ne {a b : Bytes} (ha : a.find? isQuoting ≠ some backslash)
    (hb : b.find? isQuoting ≠ some backslash) : (a ++ b).find? isQuoting ≠ some backslash := by
  rw [List.find?_append]
  cases h : a.find? isQuoting with
  | none => simpa using hb
  | some c =>
      rw [h] at ha
      simpa using ha

theorem find?_cons_ne {c : Byte} {b : Bytes} (hc : isQuoting c = false)
    (hb : b.find? isQuoting ≠ some backslash) : (c :: b).find? isQuoting ≠ some backslash := by
  rwa [List.find?_cons_of_neg (by simp [hc])]

theorem Ws.find?_ne (w : Ws) : w.bytes.find? isQuoting ≠ some backslash := by
  rw [w.find?_isQuoting]
  exact nofun

mutual

theorem Value.find?_isQuoting : ∀ v : Value, v.render.find? isQuoting ≠ some backslash
  | .prim p => by
      rw [Value.render, p.find?_isQuoting]
      exact nofun
  | .str s => by
      simp [Value.render, isQuoting, quote, backslash]
  | .arrNil pad => find?_cons_ne rfl (find?_append_ne pad.find?_ne (by decide))
  | .arr es => find?_cons_ne rfl (find?_append_ne es.find?_isQuoting (by decide))
  | .objNil pad => find?_cons_ne rfl (find?_append_ne pad.find?_ne (by decide))
  | .obj ms => by
      obtain ⟨hms, -⟩ := ms.find?_isQuoting
      refine find?_cons_ne rfl (find?_append_ne ?_ (by decide))
      rw [hms]
      decide

theorem Elems.find?_isQuoting : ∀ es : Elems, es.render.find? isQuoting ≠ some backslash
  | .last pre v post =>
      find?_append_ne pre.find?_ne (find?_append_ne v.find?_isQuoting post.find?_ne)
  | .more pre v post rest =>
      find?_append_ne pre.find?_ne (find?_append_ne v.find?_isQuoting
        (find?_append_ne post.find?_ne (find?_cons_ne rfl rest.find?_isQuoting)))

/-- A member starts with the quote of its key. -/
theorem Members.find?_isQuoting : ∀ ms : Members,
    ms.render.find? isQuoting = some quote ∧ quote ∈ ms.render
  | .last pre key mid pre' v post => by
      simp [Members.render, List.find?_append, pre.find?_isQuoting, isQuoting, quote]
  | .more pre key mid pre' v post rest => by
      simp [Members.render, List.find?_append, pre.find?_isQuoting, isQuoting, quote]

end

end JsonText
