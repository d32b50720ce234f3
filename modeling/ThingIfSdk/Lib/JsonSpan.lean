import ThingIfSdk.Lib.JsonToken

/-!
# The texts that tokens cover

A token of a text stands for a value or for a key.  The text of a value, read alone, has
the tokens that it has in the whole, `Spans`, and the inside of a string has no string in
it.  The elements of an array are counted by its tokens: a token that starts behind the
last element is the next one, and the tokens that start in an element are skipped.
-/

namespace JsonText

open ByteText

/-! ## Tokens of a text that lies elsewhere -/

def Token.shift (n : Int) (t : Token) : Token :=
  { t with start := t.start + n, stop := t.stop + n }

@[simp] theorem Token.shift_kind (n : Int) (t : Token) : (t.shift n).kind = t.kind := rfl
@[simp] theorem Token.shift_start (n : Int) (t : Token) : (t.shift n).start = t.start + n := rfl
@[simp] theorem Token.shift_stop (n : Int) (t : Token) : (t.shift n).stop = t.stop + n := rfl

theorem Value.token_shift {n o o' : Nat} (h : o' = n + o) (v : Value) :
    v.token o' = (v.token o).shift n := by
  subst h
  simp only [Value.token, Token.shift, Token.mk.injEq, true_and]
  omega

theorem keyToken_shift {n o o' : Nat} (h : o' = n + o) (key : Str) :
    keyToken o' key = (keyToken o key).shift n := by
  subst h
  simp only [keyToken, Token.shift, Token.mk.injEq, true_and]
  omega

mutual

theorem Value.tokens_shift (n : Nat) : ∀ (v : Value) {o o' : Nat}, o' = n + o →
    v.tokens o' = (v.tokens o).map (Token.shift n)
  | .prim p, _, _, h => congrArg (fun t => [t]) (Value.token_shift h (.prim p))
  | .str s, _, _, h => congrArg (fun t => [t]) (Value.token_shift h (.str s))
  | .arrNil pad, _, _, h => congrArg (fun t => [t]) (Value.token_shift h (.arrNil pad))
  | .objNil pad, _, _, h => congrArg (fun t => [t]) (Value.token_shift h (.objNil pad))
  | .arr es, o, o', h => by
      have hin : es.tokens (o' + 1) = (es.tokens (o + 1)).map (Token.shift n) :=
        Elems.tokens_shift n es (by omega)
      simp only [Value.tokens, List.map_cons, hin, Value.token_shift h]
  | .obj ms, o, o', h => by
      have hin : ms.tokens (o' + 1) = (ms.tokens (o + 1)).map (Token.shift n) :=
        Members.tokens_shift n ms (by omega)
      simp only [Value.tokens, List.map_cons, hin, Value.token_shift h]

theorem Elems.tokens_shift (n : Nat) : ∀ (es : Elems) {o o' : Nat}, o' = n + o →
    es.tokens o' = (es.tokens o).map (Token.shift n)
  | .last pre v post, o, o', h => Value.tokens_shift n v (by omega)
  | .more pre v post rest, o, o', h => by
      simp only [Elems.tokens, List.map_append]
      congr 1
      · exact Value.tokens_shift n v (by omega)
      · exact Elems.tokens_shift n rest (by omega)

theorem Members.tokens_shift (n : Nat) : ∀ (ms : Members) {o o' : Nat}, o' = n + o →
    ms.tokens o' = (ms.tokens o).map (Token.shift n)
  | .last pre key mid pre' v post, o, o', h => by
      simp only [Members.tokens, List.map_cons]
      congr 1
      · exact keyToken_shift (by simp only [Members.keyOff]; omega) key
      · exact Value.tokens_shift n v (by simp only [Members.valOff, Members.keyOff]; omega)
  | .more pre key mid pre' v post rest, o, o', h => by
      simp only [Members.tokens, List.map_cons, List.map_append]
      congr 1
      · exact keyToken_shift (by simp only [Members.keyOff]; omega) key
      · congr 1
        · exact Value.tokens_shift n v (by simp only [Members.valOff, Members.keyOff]; omega)
        · exact Members.tokens_shift n rest (by simp only [Members.valOff, Members.keyOff]; omega)

end

/-! ## What a token stands for -/

/-- A token of a text at offset `o` stands for a value in the text, whose tokens are the
first of those from here on, or for a key. -/
inductive Token.StandsIn (text : Bytes) (o : Nat) (l : List Token) (t : Token) : Prop where
  | value (w : Value) (a : Nat) (heq : t = w.token (o + a)) (hocc : OccursAt text a w.render)
      (hblock : w.tokens (o + a) <+: l)
  | key (s : Str) (a : Nat) (heq : t = keyToken (o + a) s)
      (hocc : OccursAt text a (s.raw ++ [quote]))

/-- So does every token of the list. -/
def Spans (text : Bytes) (o : Nat) (l : List Token) : Prop :=
  ∀ (i : Nat) (t : Token), l[i]? = some t → t.StandsIn text o (l.drop i)

theorem Spans.append {text : Bytes} {o : Nat} {l l' : List Token} (h : Spans text o l)
    (h' : Spans text o l') : Spans text o (l ++ l') := by
  intro i t ht
  by_cases hi : i < l.length
  · rw [List.getElem?_append_left hi] at ht
    rw [List.drop_append_of_le_length (Nat.le_of_lt hi)]
    cases h i t ht with
    | value w a heq hocc hblock =>
        exact .value w a heq hocc (hblock.trans (List.prefix_append _ _))
    | key s a heq hocc => exact .key s a heq hocc
  · rw [List.getElem?_append_right (by omega)] at ht
    have hdrop : (l ++ l').drop i = l'.drop (i - l.length) := by
      rw [List.drop_append, List.drop_eq_nil_of_le (by omega), List.nil_append]
    rw [hdrop]
    exact h' _ t ht

/-- Tokens of a text that lies in another. -/
theorem Spans.inside {text inner : Bytes} {o o' : Nat} {l : List Token}
    (h : Spans inner o' l) (front back : Bytes) (ho : o' = o + front.length)
    (htext : text = front ++ (inner ++ back)) : Spans text o l := by
  subst ho htext
  have hinner := OccursAt.intro front inner back
  intro i t ht
  cases h i t ht with
  | value w a heq hocc hblock =>
      rw [Nat.add_assoc] at heq hblock
      exact .value w (front.length + a) heq (hinner.trans hocc) hblock
  | key s a heq hocc =>
      rw [Nat.add_assoc] at heq
      exact .key s (front.length + a) heq (hinner.trans hocc)

theorem Spans.key {text : Bytes} {o a : Nat} {s : Str} (h : OccursAt text a (s.raw ++ [quote])) :
    Spans text o [keyToken (o + a) s] := by
  intro i t ht
  obtain ⟨hi, heq⟩ := List.getElem?_eq_some_iff.mp ht
  rw [List.getElem_singleton] at heq
  exact .key s a heq.symm h

/-- The token of a value, before those of its parts. -/
theorem Spans.cons {v : Value} {o : Nat} {l : List Token} (h : Spans v.render o l)
    (htokens : v.tokens o = v.token o :: l) : Spans v.render o (v.tokens o) := by
  intro i t ht
  cases i with
  | zero =>
      rw [htokens, List.getElem?_cons_zero, Option.some.injEq] at ht
      exact .value v 0 ht.symm ⟨[], [], (List.append_nil _).symm, rfl⟩ List.prefix_rfl
  | succ i =>
      rw [htokens, List.getElem?_cons_succ] at ht
      rw [htokens, List.drop_succ_cons]
      exact h i t ht

theorem Spans.nil (text : Bytes) (o : Nat) : Spans text o [] :=
  fun _ _ ht => nomatch ht

mutual

theorem Value.spans : ∀ (v : Value) (o : Nat), Spans v.render o (v.tokens o)
  | .prim p, o => Spans.cons (v := .prim p) (.nil _ o) rfl
  | .str s, o => Spans.cons (v := .str s) (.nil _ o) rfl
  | .arrNil pad, o => Spans.cons (v := .arrNil pad) (.nil _ o) rfl
  | .objNil pad, o => Spans.cons (v := .objNil pad) (.nil _ o) rfl
  | .arr es, o => Spans.cons (v := .arr es)
      ((Elems.spans es (o + 1)).inside [lbracket] [rbracket] rfl rfl) rfl
  | .obj ms, o => Spans.cons (v := .obj ms)
      ((Members.spans ms (o + 1)).inside [lbrace] [rbrace] rfl rfl) rfl

theorem Elems.spans : ∀ (es : Elems) (o : Nat), Spans es.render o (es.tokens o)
  | .last pre v post, o =>
      (Value.spans v (o + pre.bytes.length)).inside pre.bytes post.bytes rfl rfl
  | .more pre v post rest, o => by
      apply Spans.append
      · exact (Value.spans v (o + pre.bytes.length)).inside pre.bytes
          (post.bytes ++ comma :: rest.render) rfl rfl
      · have hrest := Elems.spans rest
          (o + pre.bytes.length + v.render.length + post.bytes.length + 1)
        refine hrest.inside (pre.bytes ++ (v.render ++ (post.bytes ++ [comma]))) [] ?_ ?_
        · simp only [List.length_append, List.length_singleton]
          omega
        · simp [Elems.render]

theorem Members.spans : ∀ (ms : Members) (o : Nat), Spans ms.render o (ms.tokens o)
  | .last pre key mid pre' v post, o => by
      have hkey : OccursAt (Members.last pre key mid pre' v post).render (pre.bytes.length + 1)
          (key.raw ++ [quote]) :=
        ⟨pre.bytes ++ [quote], mid.bytes ++ colon :: (pre'.bytes ++ (v.render ++ post.bytes)),
          by simp [Members.render], by simp⟩
      refine Spans.append (l := [keyToken (Members.keyOff o pre) key]) (Spans.key hkey) ?_
      refine (Value.spans v (Members.valOff o pre key mid pre')).inside (pre.bytes ++
        quote :: (key.raw ++ quote :: (mid.bytes ++ colon :: pre'.bytes))) post.bytes ?_ ?_
      · simp only [Members.valOff, Members.keyOff, List.length_append, List.length_cons]
        omega
      · simp [Members.render]
  | .more pre key mid pre' v post rest, o => by
      have hkey : OccursAt (Members.more pre key mid pre' v post rest).render
          (pre.bytes.length + 1) (key.raw ++ [quote]) :=
        ⟨pre.bytes ++ [quote], mid.bytes ++ colon :: (pre'.bytes ++ (v.render ++ (post.bytes ++
          comma :: rest.render))), by simp [Members.render], by simp⟩
      refine Spans.append (l := [keyToken (Members.keyOff o pre) key]) (Spans.key hkey)
        (Spans.append ?_ ?_)
      · refine (Value.spans v (Members.valOff o pre key mid pre')).inside (pre.bytes ++
          quote :: (key.raw ++ quote :: (mid.bytes ++ colon :: pre'.bytes)))
          (post.bytes ++ comma :: rest.render) ?_ ?_
        · simp only [Members.valOff, Members.keyOff, List.length_append, List.length_cons]
          omega
        · simp [Members.render]
      · have hrest := Members.spans rest
          (Members.valOff o pre key mid pre' + v.render.length + post.bytes.length + 1)
        refine hrest.inside (pre.bytes ++ quote :: (key.raw ++ quote :: (mid.bytes ++
          colon :: (pre'.bytes ++ (v.render ++ (post.bytes ++ [comma])))))) [] ?_ ?_
        · simp only [Members.valOff, Members.keyOff, List.length_append, List.length_cons,
            List.length_nil]
          omega
        · simp [Members.render]

end

/-! ## Parts have tokens -/

theorem Elems.token_mem_parts : ∀ (es : Elems) (b k : Nat) {o : Nat} {e : Value},
    (o, e) ∈ es.parts k → e.token (b + o) ∈ es.tokens (b + k)
  | .last pre v post, b, k, o, e, h => by
      simp only [Elems.parts, List.mem_singleton, Prod.mk.injEq] at h
      obtain ⟨rfl, rfl⟩ := h
      obtain ⟨ts, hts⟩ := e.tokens_head (b + k + pre.bytes.length)
      rw [Elems.tokens, hts, ← Nat.add_assoc]
      exact List.mem_cons_self
  | .more pre v post rest, b, k, o, e, h => by
      simp only [Elems.parts, List.mem_cons, Prod.mk.injEq] at h
      rw [Elems.tokens, List.mem_append]
      rcases h with ⟨rfl, rfl⟩ | h
      · left
        obtain ⟨ts, hts⟩ := e.tokens_head (b + k + pre.bytes.length)
        rw [hts, ← Nat.add_assoc]
        exact List.mem_cons_self
      · right
        have hrest := Elems.token_mem_parts rest b _ h
        simpa only [Nat.add_assoc] using hrest

theorem Members.token_mem_parts : ∀ (ms : Members) (b k : Nat) {m : Member},
    m ∈ ms.parts k → m.val.token (b + m.valOff) ∈ ms.tokens (b + k)
  | .last pre key mid pre' v post, b, k, m, h => by
      simp only [Members.parts, List.mem_singleton] at h
      subst h
      obtain ⟨ts, hts⟩ := v.tokens_head (b + Members.valOff k pre key mid pre')
      have hoff : Members.valOff (b + k) pre key mid pre' =
          b + Members.valOff k pre key mid pre' := by
        simp only [Members.valOff, Members.keyOff]
        omega
      rw [Members.tokens, hoff, hts]
      exact List.mem_cons_of_mem _ List.mem_cons_self
  | .more pre key mid pre' v post rest, b, k, m, h => by
      have hoff : Members.valOff (b + k) pre key mid pre' =
          b + Members.valOff k pre key mid pre' := by
        simp only [Members.valOff, Members.keyOff]
        omega
      simp only [Members.parts, List.mem_cons] at h
      rw [Members.tokens, hoff]
      apply List.mem_cons_of_mem
      rw [List.mem_append]
      rcases h with rfl | h
      · left
        obtain ⟨ts, hts⟩ := v.tokens_head (b + Members.valOff k pre key mid pre')
        rw [hts]
        exact List.mem_cons_self
      · right
        have hrest := Members.token_mem_parts rest b _ h
        simpa only [Nat.add_assoc] using hrest

/-- The token of an element is one of the array. -/
theorem Value.token_mem_elements {v : Value} {l : List (Nat × Value)} (h : v.elements = some l)
    {o : Nat} {e : Value} (hm : (o, e) ∈ l) (b : Nat) : e.token (b + o) ∈ v.tokens b := by
  cases v with
  | arr es =>
      cases h
      exact List.mem_cons_of_mem _ (es.token_mem_parts b 1 hm)
  | arrNil pad =>
      cases h
      cases hm
  | prim | str | objNil | obj => cases h

/-- The token of the value of a member is one of the object. -/
theorem Value.token_mem_members {v : Value} {l : List Member} (h : v.members = some l)
    {m : Member} (hm : m ∈ l) (b : Nat) : m.val.token (b + m.valOff) ∈ v.tokens b := by
  cases v with
  | obj ms =>
      cases h
      exact List.mem_cons_of_mem _ (ms.token_mem_parts b 1 hm)
  | objNil pad =>
      cases h
      cases hm
  | prim | str | arrNil | arr => cases h

theorem Value.token_mem_field {v : Value} {name : Bytes} {m : Member} (h : v.field name = some m)
    (b : Nat) : m.val.token (b + m.valOff) ∈ v.tokens b := by
  unfold Value.field at h
  have hmem := List.mem_of_find?_eq_some h
  cases hms : v.members with
  | none => simp [hms] at hmem
  | some ms =>
      rw [hms, Option.getD_some] at hmem
      exact Value.token_mem_members hms hmem b

theorem Elems.parts_ge (es : Elems) (k : Nat) : ∀ x ∈ es.parts k, k ≤ x.1 := by
  cases es with
  | last pre v post =>
      intro x hx
      rw [Elems.parts, List.mem_singleton] at hx
      rw [hx]
      exact Nat.le_add_right k _
  | more pre v post rest =>
      intro x hx
      rcases List.mem_cons.mp hx with rfl | hx
      · exact Nat.le_add_right k _
      · have hle := Elems.parts_ge rest _ x hx
        omega

theorem Elems.parts_inOrder (es : Elems) (k : Nat) :
    (es.parts k).Pairwise fun x y => x.1 + x.2.render.length ≤ y.1 := by
  cases es with
  | last pre v post => exact List.pairwise_singleton _ _
  | more pre v post rest =>
      refine List.pairwise_cons.mpr ⟨?_, Elems.parts_inOrder rest _⟩
      intro y hy
      have hle := Elems.parts_ge rest _ y hy
      show k + pre.bytes.length + v.render.length ≤ y.1
      omega

/-- The elements of an array lie one behind the other. -/
theorem Value.elements_inOrder {v : Value} {l : List (Nat × Value)} (h : v.elements = some l) :
    l.Pairwise fun x y => x.1 + x.2.render.length ≤ y.1 := by
  cases v with
  | arr es =>
      cases h
      exact es.parts_inOrder 1
  | arrNil pad =>
      cases h
      exact .nil
  | prim | str | objNil | obj => cases h

/-- What lies between the brackets of an object or an array. -/
theorem Value.tokens_between {v : Value} (h : v.kind = .object ∨ v.kind = .array) :
    ∃ inner, v.tokens 0 = ⟨v.kind, 0, v.render.length⟩ :: inner ∧
      (∀ t ∈ inner, 0 < t.start ∧ t.stop < v.render.length) ∧ 2 ≤ v.render.length := by
  have hlen : ∀ (b b' : Byte) (t : Bytes), (b :: (t ++ [b'])).length = t.length + 2 := by
    intro b b' t
    rw [List.length_cons, List.length_append, List.length_singleton]
  have hown : v.token 0 = ⟨v.kind, 0, v.render.length⟩ := by
    cases v with
    | prim | str => rcases h with h | h <;> cases h
    | arrNil | objNil | arr | obj => simp [Value.token, Value.tokenPad, Value.tokenText]
  cases v with
  | prim | str => rcases h with h | h <;> cases h
  | arrNil pad | objNil pad =>
      refine ⟨[], congrArg (fun t => [t]) hown, fun t ht => absurd ht List.not_mem_nil, ?_⟩
      rw [Value.render, hlen]
      omega
  | arr es =>
      refine ⟨es.tokens 1, congrArg (fun t => t :: es.tokens 1) hown, fun t ht => ?_, ?_⟩
      · have hlaid := (es.tokens_laid 1).inside t ht
        rw [Value.render, hlen]
        omega
      · rw [Value.render, hlen]
        omega
  | obj ms =>
      refine ⟨ms.tokens 1, congrArg (fun t => t :: ms.tokens 1) hown, fun t ht => ?_, ?_⟩
      · have hlaid := (ms.tokens_laid 1).inside t ht
        rw [Value.render, hlen]
        omega
      · rw [Value.render, hlen]
        omega

/-! ## A string holds no string -/

/-- The inside of a string, read as a text, has no quotes around its value. -/
theorem Str.quote_not_mem {s : Str} {d : Doc} (h : d.render = s.raw) : quote ∉ d.val.render := by
  intro hquote
  have hs := s.find?_isQuoting
  have hv := d.val.find?_isQuoting
  rw [← h] at hs
  simp only [Doc.render, List.find?_append, d.pre.find?_isQuoting, Option.none_or,
    d.post.find?_isQuoting, Option.or_none] at hs
  cases hfind : d.val.render.find? isQuoting with
  | none =>
      rw [List.find?_eq_none] at hfind
      exact hfind quote hquote (by decide)
  | some b =>
      have hb := List.find?_some hfind
      simp only [isQuoting, Bool.or_eq_true, beq_iff_eq] at hb
      rcases hb with rfl | rfl
      · exact hs hfind
      · exact hv hfind

theorem OccursAt.mem {m t : Bytes} {off : Nat} (h : OccursAt m off t) {b : Byte} (hb : b ∈ t) :
    b ∈ m := by
  obtain ⟨pre, post, rfl, -⟩ := h
  exact List.mem_append_right _ (List.mem_append_left _ hb)

/-- A value with a string in it has a quote. -/
theorem Value.quote_mem {v : Value} {o : Nat} {t : Token} (h : t ∈ v.tokens o)
    (hkind : t.kind = .string) : quote ∈ v.render := by
  obtain ⟨i, hi⟩ := List.getElem?_of_mem h
  cases v.spans o i t hi with
  | key s a heq hocc => exact OccursAt.mem hocc (by simp)
  | value w a heq hocc hblock =>
      rw [heq] at hkind
      cases w with
      | str s => exact OccursAt.mem hocc List.mem_cons_self
      | prim | arrNil | arr | objNil | obj => cases hkind

theorem Str.tokens_of_raw {s : Str} {d : Doc} (h : d.render = s.raw) (o : Nat) :
    ∀ t ∈ d.val.tokens o, t.kind ≠ .string :=
  fun _ ht hkind => Str.quote_not_mem h (Value.quote_mem ht hkind)

/-! ## Counting elements -/

/-- The tokens that start at or behind an offset, without those that start in one of them. -/
def elementsFrom (stop : Int) : List Token → Nat
  | [] => 0
  | t :: ts => if t.start < stop then elementsFrom stop ts else elementsFrom t.stop ts + 1

/-- The elements of an array, by the tokens of its text. -/
def countElements : List Token → Nat
  | [] => 0
  | root :: ts => if root.kind = .array then elementsFrom root.start ts else 0

theorem elementsFrom_le (stop : Int) (l : List Token) : elementsFrom stop l ≤ l.length := by
  induction l generalizing stop with
  | nil => exact Nat.le_refl 0
  | cons t l ih =>
      rw [elementsFrom, List.length_cons]
      split
      · exact Nat.le_succ_of_le (ih stop)
      · exact Nat.succ_le_succ (ih t.stop)

/-- The array has a token too. -/
theorem countElements_lt {l : List Token} (h : l ≠ []) : countElements l < l.length := by
  cases l with
  | nil => exact absurd rfl h
  | cons root l =>
      rw [countElements, List.length_cons]
      split
      · exact Nat.lt_succ_of_le (elementsFrom_le root.start l)
      · exact Nat.succ_pos _

theorem elementsFrom_skip {stop : Int} {l : List Token} (h : ∀ t ∈ l, t.start < stop)
    (l' : List Token) : elementsFrom stop (l ++ l') = elementsFrom stop l' := by
  induction l with
  | nil => rfl
  | cons t l ih =>
      rw [List.cons_append, elementsFrom, if_pos (h t List.mem_cons_self)]
      exact ih fun t' ht' => h t' (List.mem_cons_of_mem _ ht')

/-- A value is one element, whatever is in it. -/
theorem Value.elementsFrom_tokens (v : Value) (o : Nat) {stop : Int} (hstop : stop ≤ o)
    (l : List Token) :
    elementsFrom stop (v.tokens o ++ l) = elementsFrom (v.token o).stop l + 1 := by
  obtain ⟨ts, hts, hin⟩ : ∃ ts, v.tokens o = v.token o :: ts ∧
      ∀ t ∈ ts, t.start < (v.token o).stop := by
    cases v with
    | prim | str | arrNil | objNil => exact ⟨[], rfl, nofun⟩
    | arr es =>
        refine ⟨es.tokens (o + 1), rfl, fun t ht => ?_⟩
        have hlaid := (es.tokens_laid (o + 1)).inside t ht
        simp only [Value.token, Value.tokenPad, Value.tokenText, Value.render, List.length_cons,
          List.length_append, List.length_nil]
        omega
    | obj ms =>
        refine ⟨ms.tokens (o + 1), rfl, fun t ht => ?_⟩
        have hlaid := (ms.tokens_laid (o + 1)).inside t ht
        simp only [Value.token, Value.tokenPad, Value.tokenText, Value.render, List.length_cons,
          List.length_append, List.length_nil]
        omega
  have hstart : ¬ (v.token o).start < stop := by
    show ¬ (((o + v.tokenPad : Nat) : Int) < stop)
    omega
  rw [hts, List.cons_append, elementsFrom, if_neg hstart, elementsFrom_skip hin]

theorem Elems.elementsFrom_tokens (es : Elems) (o k : Nat) {stop : Int} (hstop : stop ≤ o) :
    elementsFrom stop (es.tokens o) = (es.parts k).length := by
  cases es with
  | last pre v post =>
      have hone : elementsFrom stop (v.tokens (o + pre.bytes.length) ++ []) = 1 :=
        v.elementsFrom_tokens (o + pre.bytes.length) (by omega) []
      rw [List.append_nil] at hone
      exact hone
  | more pre v post rest =>
      have hlaid := (v.token_laid (o + pre.bytes.length)).inside _ (List.mem_singleton.mpr rfl)
      rw [Elems.tokens, v.elementsFrom_tokens (o + pre.bytes.length) (by omega), Elems.parts,
        List.length_cons]
      congr 1
      exact Elems.elementsFrom_tokens rest _ _ (by omega)

/-- The tokens of an array count its elements. -/
theorem Value.countElements_tokens {v : Value} {l : List (Nat × Value)} (h : v.elements = some l)
    (o : Nat) : countElements (v.tokens o) = l.length := by
  cases v with
  | arr es =>
      cases h
      apply es.elementsFrom_tokens (o + 1) 1
      show ((o + 0 : Nat) : Int) ≤ ((o + 1 : Nat) : Int)
      omega
  | arrNil pad =>
      cases h
      rfl
  | prim | str | objNil | obj => cases h

end JsonText
