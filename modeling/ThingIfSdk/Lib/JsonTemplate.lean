import ThingIfSdk.Lib.JsonValue

/-!
# Texts with strings pasted in

A program that writes JSON by pasting strings between quotes writes a template:
the layout is fixed and only the pasted strings vary.  `Template.denotes_iff` says
when the text denotes what the template means: exactly when every pasted string
consists of bytes that stand for themselves.  A string with a quote, a backslash
or a control character never gets through, whatever surrounds it.
-/

namespace JsonText

open ByteText

mutual

/-- A JSON text with pasted strings. -/
inductive Template where
  /-- A string pasted between two quotes. -/
  | str (v : Bytes)
  /-- A text that is JSON on its own. -/
  | doc (d : Doc)
  | arr (es : TemplateElems)
  | obj (ms : TemplateMembers)

inductive TemplateElems where
  | last (p : Template)
  | more (p : Template) (rest : TemplateElems)

inductive TemplateMembers where
  | last (key : Str) (p : Template)
  | more (key : Str) (p : Template) (rest : TemplateMembers)

end

mutual

def Template.text : Template → Bytes
  | .str v => quote :: (v ++ [quote])
  | .doc d => d.render
  | .arr es => lbracket :: (es.text ++ [rbracket])
  | .obj ms => lbrace :: (ms.text ++ [rbrace])

def TemplateElems.text : TemplateElems → Bytes
  | .last p => p.text
  | .more p rest => p.text ++ comma :: rest.text

def TemplateMembers.text : TemplateMembers → Bytes
  | .last key p => quote :: (key.raw ++ quote :: colon :: p.text)
  | .more key p rest => quote :: (key.raw ++ quote :: colon :: (p.text ++ comma :: rest.text))

end

mutual

/-- What the text should denote: every pasted string as it is. -/
def Template.json : Template → Json
  | .str v => .str v
  | .doc d => d.val.toJson
  | .arr es => .arr es.json
  | .obj ms => .obj ms.json

def TemplateElems.json : TemplateElems → List Json
  | .last p => [p.json]
  | .more p rest => p.json :: rest.json

def TemplateMembers.json : TemplateMembers → List (Bytes × Json)
  | .last key p => [(Str.decode key, p.json)]
  | .more key p rest => (Str.decode key, p.json) :: rest.json

end

mutual

/-- Every pasted string consists of plain bytes. -/
def Template.IsPlain : Template → Prop
  | .str v => ∀ b ∈ v, isPlain b = true
  | .doc _ => True
  | .arr es => es.IsPlain
  | .obj ms => ms.IsPlain

def TemplateElems.IsPlain : TemplateElems → Prop
  | .last p => p.IsPlain
  | .more p rest => p.IsPlain ∧ rest.IsPlain

def TemplateMembers.IsPlain : TemplateMembers → Prop
  | .last _ p => p.IsPlain
  | .more _ p rest => p.IsPlain ∧ rest.IsPlain

end

/-! ## Lists of members and elements -/

def templateMember (m : Str × Template) : Bytes :=
  quote :: (m.1.raw ++ quote :: colon :: m.2.text)

def TemplateMembers.compact : Str × Template → List (Str × Template) → TemplateMembers
  | m, [] => .last m.1 m.2
  | m, n :: ms => .more m.1 m.2 (TemplateMembers.compact n ms)

def TemplateElems.compact : Template → List Template → TemplateElems
  | p, [] => .last p
  | p, q :: ps => .more p (TemplateElems.compact q ps)

theorem TemplateMembers.text_compact (m : Str × Template) (ms : List (Str × Template)) :
    (TemplateMembers.compact m ms).text =
      templateMember m ++ ms.flatMap fun n => comma :: templateMember n := by
  induction ms generalizing m with
  | nil => simp [TemplateMembers.compact, TemplateMembers.text, templateMember]
  | cons n ms ih => simp [TemplateMembers.compact, TemplateMembers.text, templateMember, ih]

theorem TemplateMembers.json_compact (m : Str × Template) (ms : List (Str × Template)) :
    (TemplateMembers.compact m ms).json =
      (m :: ms).map fun n => (Str.decode n.1, n.2.json) := by
  induction ms generalizing m with
  | nil => rfl
  | cons n ms ih =>
      rw [TemplateMembers.compact, TemplateMembers.json, ih]
      rfl

theorem TemplateMembers.isPlain_compact (m : Str × Template) (ms : List (Str × Template)) :
    (TemplateMembers.compact m ms).IsPlain ↔ ∀ n ∈ m :: ms, n.2.IsPlain := by
  induction ms generalizing m with
  | nil => simp [TemplateMembers.compact, TemplateMembers.IsPlain]
  | cons n ms ih => simp [TemplateMembers.compact, TemplateMembers.IsPlain, ih]

theorem TemplateElems.text_compact (p : Template) (ps : List Template) :
    (TemplateElems.compact p ps).text = p.text ++ ps.flatMap fun q => comma :: q.text := by
  induction ps generalizing p with
  | nil => simp [TemplateElems.compact, TemplateElems.text]
  | cons q ps ih => simp [TemplateElems.compact, TemplateElems.text, ih]

theorem TemplateElems.json_compact (p : Template) (ps : List Template) :
    (TemplateElems.compact p ps).json = (p :: ps).map Template.json := by
  induction ps generalizing p with
  | nil => rfl
  | cons q ps ih =>
      rw [TemplateElems.compact, TemplateElems.json, ih]
      rfl

theorem TemplateElems.isPlain_compact (p : Template) (ps : List Template) :
    (TemplateElems.compact p ps).IsPlain ↔ ∀ q ∈ p :: ps, q.IsPlain := by
  induction ps generalizing p with
  | nil => simp [TemplateElems.compact, TemplateElems.IsPlain]
  | cons q ps ih => simp [TemplateElems.compact, TemplateElems.IsPlain, ih]

/-! ## Plain strings get through -/

mutual

/-- With plain strings the text is that of a tree. -/
theorem Template.exists_doc : ∀ p : Template, p.IsPlain →
    ∃ d : Doc, d.render = p.text ∧ d.val.toJson = p.json
  | .str v, h => by
      have hv : ∀ b ∈ v, isPlain b = true := h
      refine ⟨Doc.bare (.str (Str.ofPlain v hv)), ?_, ?_⟩
      · rw [Doc.render_bare, Value.render, Str.raw_ofPlain, Template.text]
      · rw [Template.json, Doc.bare, Value.toJson, Str.decode_ofPlain]
  | .doc d, _ => ⟨d, rfl, rfl⟩
  | .arr es, h => by
      obtain ⟨es', htext, hjson⟩ := es.exists_elems h
      refine ⟨Doc.bare (.arr es'), ?_, ?_⟩
      · rw [Doc.render_bare, Value.render, htext, Template.text]
      · rw [Template.json, Doc.bare, Value.toJson, hjson]
  | .obj ms, h => by
      obtain ⟨ms', htext, hjson⟩ := ms.exists_members h
      refine ⟨Doc.bare (.obj ms'), ?_, ?_⟩
      · rw [Doc.render_bare, Value.render, htext, Template.text]
      · rw [Template.json, Doc.bare, Value.toJson, hjson]

theorem TemplateElems.exists_elems : ∀ es : TemplateElems, es.IsPlain →
    ∃ es' : Elems, es'.render = es.text ∧ es'.toJson = es.json
  | .last p, h => by
      obtain ⟨d, htext, hjson⟩ := p.exists_doc h
      refine ⟨.last d.pre d.val d.post, ?_, ?_⟩
      · rw [Elems.render, TemplateElems.text, ← htext, Doc.render]
      · rw [Elems.toJson, TemplateElems.json, hjson]
  | .more p rest, h => by
      obtain ⟨d, htext, hjson⟩ := p.exists_doc h.1
      obtain ⟨rest', htext', hjson'⟩ := rest.exists_elems h.2
      refine ⟨.more d.pre d.val d.post rest', ?_, ?_⟩
      · rw [Elems.render, TemplateElems.text, ← htext, Doc.render, htext']
        simp only [List.append_assoc]
      · rw [Elems.toJson, TemplateElems.json, hjson, hjson']

theorem TemplateMembers.exists_members : ∀ ms : TemplateMembers, ms.IsPlain →
    ∃ ms' : Members, ms'.render = ms.text ∧ ms'.toJson = ms.json
  | .last key p, h => by
      obtain ⟨d, htext, hjson⟩ := p.exists_doc h
      refine ⟨.last .none key .none d.pre d.val d.post, ?_, ?_⟩
      · rw [Members.render, TemplateMembers.text, ← htext, Doc.render]
        rfl
      · rw [Members.toJson, TemplateMembers.json, hjson]
  | .more key p rest, h => by
      obtain ⟨d, htext, hjson⟩ := p.exists_doc h.1
      obtain ⟨rest', htext', hjson'⟩ := rest.exists_members h.2
      refine ⟨.more .none key .none d.pre d.val d.post rest', ?_, ?_⟩
      · rw [Members.render, TemplateMembers.text, ← htext, Doc.render, htext']
        simp only [List.append_assoc]
        rfl
      · rw [Members.toJson, TemplateMembers.json, hjson, hjson']

end

/-! ## What follows a value -/

/-- A text that a number or a name ends before. -/
def Ends (t : Bytes) : Prop :=
  ∃ b u, t = b :: u ∧ isPrimByte b = false ∧ isWs b = false

theorem ends_cons {b : Byte} (hprim : isPrimByte b = false) (hws : isWs b = false) (u : Bytes) :
    Ends (b :: u) :=
  ⟨b, u, rfl, hprim, hws⟩

/-- A document in front of such a text is read back. -/
theorem parseValue_doc {n : Nat} {d : Doc} {t t' : Bytes} {w : Value} (ht : Ends t)
    (h : parseValue n (takeWs (d.render ++ t)).2 = some (w, t')) :
    w = d.val ∧ (takeWs t').2 = t := by
  obtain ⟨b, u, rfl, hprim, hws⟩ := ht
  have hpre : takeWs (d.render ++ b :: u) = (d.pre, d.val.render ++ (d.post.bytes ++ b :: u)) := by
    unfold Doc.render
    rw [List.append_assoc, List.append_assoc]
    exact takeWs_render d.pre (d.val.stopsAt_isWs _)
  rw [hpre] at h
  have hread := parseValue_render d.val (n + d.val.size) (d.post.bytes ++ b :: u)
    (Nat.le_add_left _ _) (d.post.stopsAt_isPrimByte hprim u)
  rw [parseValue_add h d.val.size] at hread
  obtain ⟨rfl, rfl⟩ := Prod.mk.inj (Option.some.inj hread)
  refine ⟨rfl, ?_⟩
  rw [takeWs_render d.post (stopsAt_cons hws u)]

/-- So is a plain template. -/
theorem parseValue_template {n : Nat} {p : Template} (hp : p.IsPlain) {t t' : Bytes} {w : Value}
    (ht : Ends t) (h : parseValue n (takeWs (p.text ++ t)).2 = some (w, t')) :
    w.toJson = p.json ∧ (takeWs t').2 = t := by
  obtain ⟨d, htext, hjson⟩ := p.exists_doc hp
  rw [← htext] at h
  obtain ⟨rfl, hrest⟩ := parseValue_doc ht h
  exact ⟨hjson, hrest⟩

/-! ## Members one by one -/

/-- Reading members starts with a key and a value, and goes on behind a comma. -/
theorem parseMembers_key {n : Nat} {key : Str} {t rest : Bytes} {ms : Members}
    (h : parseMembers n (quote :: (key.raw ++ quote :: colon :: t)) = some (ms, rest)) :
    ∃ k w t', n = k + 1 ∧ parseValue k (takeWs t).2 = some (w, t') ∧
      (((takeWs t').2 = rbrace :: rest ∧ ms.toJson = [(Str.decode key, w.toJson)]) ∨
        ∃ u ms', (takeWs t').2 = comma :: u ∧ parseMembers k u = some (ms', rest) ∧
          ms.toJson = (Str.decode key, w.toJson) :: ms'.toJson) := by
  cases n with
  | zero => cases h
  | succ k =>
      have hws : takeWs (quote :: (key.raw ++ quote :: colon :: t)) =
          (Ws.none, quote :: (key.raw ++ quote :: colon :: t)) := takeWs_cons (by decide) _
      have hkey := parseStr_render_self key (colon :: t)
      have hcolon : takeWs (colon :: t) = (Ws.none, colon :: t) := takeWs_cons (by decide) t
      simp only [parseMembers, hws, if_true, hkey, hcolon] at h
      cases hv : parseValue k (takeWs t).2 with
      | none =>
          simp only [hv] at h
          cases h
      | some x =>
          obtain ⟨w, t'⟩ := x
          refine ⟨k, w, t', rfl, hv, ?_⟩
          simp only [hv] at h
          cases hnext : (takeWs t').2 with
          | nil =>
              simp only [hnext] at h
              cases h
          | cons c u =>
              simp only [hnext] at h
              split at h
              · rename_i hc
                obtain ⟨rfl, rfl⟩ := Prod.mk.inj (Option.some.inj h)
                exact .inl ⟨by rw [hc], rfl⟩
              · split at h
                · rename_i hc
                  cases hms : parseMembers k u with
                  | none =>
                      simp only [hms] at h
                      cases h
                  | some y =>
                      simp only [hms] at h
                      obtain ⟨rfl, rfl⟩ := Prod.mk.inj (Option.some.inj h)
                      exact .inr ⟨u, y.1, by rw [hc], hms, rfl⟩
                · cases h

/-- Reading elements starts with a value, and goes on behind a comma. -/
theorem parseElems_value {n : Nat} {t rest : Bytes} {es : Elems}
    (h : parseElems n t = some (es, rest)) :
    ∃ k w t', n = k + 1 ∧ parseValue k (takeWs t).2 = some (w, t') ∧
      (((takeWs t').2 = rbracket :: rest ∧ es.toJson = [w.toJson]) ∨
        ∃ u es', (takeWs t').2 = comma :: u ∧ parseElems k u = some (es', rest) ∧
          es.toJson = w.toJson :: es'.toJson) := by
  cases n with
  | zero => cases h
  | succ k =>
      rw [parseElems] at h
      cases hv : parseValue k (takeWs t).2 with
      | none =>
          simp only [hv] at h
          cases h
      | some x =>
          obtain ⟨w, t'⟩ := x
          refine ⟨k, w, t', rfl, hv, ?_⟩
          simp only [hv] at h
          cases hnext : (takeWs t').2 with
          | nil =>
              simp only [hnext] at h
              cases h
          | cons c u =>
              simp only [hnext] at h
              split at h
              · rename_i hc
                obtain ⟨rfl, rfl⟩ := Prod.mk.inj (Option.some.inj h)
                exact .inl ⟨by rw [hc], rfl⟩
              · split at h
                · rename_i hc
                  cases hes : parseElems k u with
                  | none =>
                      simp only [hes] at h
                      cases h
                  | some y =>
                      simp only [hes] at h
                      obtain ⟨rfl, rfl⟩ := Prod.mk.inj (Option.some.inj h)
                      exact .inr ⟨u, y.1, by rw [hc], hes, rfl⟩
                · cases h

/-! ## Only plain strings get through -/

/-- A text between quotes that reads as a string with just these bytes is plain. -/
theorem plain_of_parseValue {n : Nat} {v t t' : Bytes} {w : Value}
    (h : parseValue n (takeWs (quote :: (v ++ [quote]) ++ t)).2 = some (w, t'))
    (hw : w.toJson = .str v) : ∀ b ∈ v, isPlain b = true := by
  have hws : takeWs (quote :: (v ++ [quote]) ++ t) = (Ws.none, quote :: (v ++ quote :: t)) := by
    rw [List.cons_append, List.append_assoc]
    exact takeWs_cons (by decide) _
  rw [hws] at h
  cases n with
  | zero => cases h
  | succ n =>
      rw [parseValue, if_pos rfl] at h
      cases hs : parseStr ((v ++ quote :: t).length + 1) (v ++ quote :: t) with
      | none =>
          simp only [hs] at h
          cases h
      | some x =>
          obtain ⟨s, rest⟩ := x
          simp only [hs] at h
          obtain ⟨rfl, rfl⟩ := Prod.mk.inj (Option.some.inj h)
          have hsound := parseStr_sound hs
          rw [Value.toJson, Json.str.injEq] at hw
          exact plain_of_decode hsound.symm hw

theorem Template.text_obj_append (ms : TemplateMembers) (t : Bytes) :
    (Template.obj ms).text ++ t = lbrace :: (ms.text ++ rbrace :: t) := by
  rw [Template.text, List.cons_append, List.append_assoc, List.singleton_append]

theorem Template.text_arr_append (es : TemplateElems) (t : Bytes) :
    (Template.arr es).text ++ t = lbracket :: (es.text ++ rbracket :: t) := by
  rw [Template.text, List.cons_append, List.append_assoc, List.singleton_append]

/-- The text of members starts with a quote. -/
theorem TemplateMembers.text_head (ms : TemplateMembers) (t : Bytes) :
    ∃ u, ms.text ++ t = quote :: u := by
  cases ms with
  | last key p => exact ⟨_, by rw [TemplateMembers.text, List.cons_append]⟩
  | more key p rest => exact ⟨_, by rw [TemplateMembers.text, List.cons_append]⟩

/-- An object with members is read by its members. -/
theorem parseValue_obj {n : Nat} {ms : TemplateMembers} {t t' : Bytes} {w : Value}
    (h : parseValue n (takeWs ((Template.obj ms).text ++ t)).2 = some (w, t')) :
    ∃ k ms', w = .obj ms' ∧ parseMembers k (ms.text ++ rbrace :: t) = some (ms', t') := by
  have hws : takeWs (lbrace :: (ms.text ++ rbrace :: t)) =
      (Ws.none, lbrace :: (ms.text ++ rbrace :: t)) := takeWs_cons (by decide) _
  rw [Template.text_obj_append, hws] at h
  cases n with
  | zero => cases h
  | succ n =>
      have h1 : lbrace ≠ quote := by decide
      have h2 : lbrace ≠ lbracket := by decide
      have h3 : quote ≠ rbrace := by decide
      obtain ⟨u, hu⟩ := ms.text_head (rbrace :: t)
      have hws' : takeWs (quote :: u) = (Ws.none, quote :: u) := takeWs_cons (by decide) u
      rw [hu] at h ⊢
      simp only [parseValue, if_neg h1, if_neg h2, if_true, hws', if_neg h3] at h
      cases hms : parseMembers n (quote :: u) with
      | none =>
          simp only [hms] at h
          cases h
      | some x =>
          simp only [hms] at h
          obtain ⟨rfl, rfl⟩ := Prod.mk.inj (Option.some.inj h)
          exact ⟨n, x.1, rfl, hms⟩

/-- An array that is not read as an empty one is read by its elements. -/
theorem parseValue_arr {n : Nat} {es : TemplateElems} {t t' : Bytes} {w : Value}
    (h : parseValue n (takeWs ((Template.arr es).text ++ t)).2 = some (w, t'))
    (hne : w.toJson ≠ .arr []) :
    ∃ k es', w = .arr es' ∧ parseElems k (es.text ++ rbracket :: t) = some (es', t') := by
  have hws : takeWs (lbracket :: (es.text ++ rbracket :: t)) =
      (Ws.none, lbracket :: (es.text ++ rbracket :: t)) := takeWs_cons (by decide) _
  rw [Template.text_arr_append, hws] at h
  cases n with
  | zero => cases h
  | succ n =>
      have h1 : lbracket ≠ quote := by decide
      rw [parseValue, if_neg h1, if_pos rfl] at h
      cases hnext : (takeWs (es.text ++ rbracket :: t)).2 with
      | nil =>
          simp only [hnext] at h
          cases h
      | cons c u =>
          simp only [hnext] at h
          split at h
          · obtain ⟨rfl, -⟩ := Prod.mk.inj (Option.some.inj h)
            exact absurd rfl hne
          · cases hes : parseElems n (es.text ++ rbracket :: t) with
            | none =>
                simp only [hes] at h
                cases h
            | some x =>
                simp only [hes] at h
                obtain ⟨rfl, rfl⟩ := Prod.mk.inj (Option.some.inj h)
                exact ⟨n, x.1, rfl, hes⟩

theorem TemplateElems.json_ne_nil (es : TemplateElems) : es.json ≠ [] := by
  cases es with
  | last p => exact nofun
  | more p rest => exact nofun

theorem ends_comma (u : Bytes) : Ends (comma :: u) :=
  ends_cons (by decide) (by decide) u

mutual

/-- What reads as the template means has only plain strings.  The strings are met in
the order of the text: once one is known to be plain, what follows it is known. -/
theorem Template.plain_of_parse : ∀ (p : Template) {n : Nat} {t t' : Bytes} {w : Value},
    parseValue n (takeWs (p.text ++ t)).2 = some (w, t') → w.toJson = p.json → p.IsPlain
  | .str v, _, _, _, _, h, hw => plain_of_parseValue h hw
  | .doc _, _, _, _, _, _, _ => trivial
  | .arr es, _, _, _, _, h, hw => by
      have hne := es.json_ne_nil
      rw [Template.json] at hw
      obtain ⟨k, es', rfl, hes⟩ := parseValue_arr h (by rw [hw]; simpa using hne)
      rw [Value.toJson, Json.arr.injEq] at hw
      exact es.plain_of_parse hes hw
  | .obj ms, _, _, _, _, h, hw => by
      obtain ⟨k, ms', rfl, hms⟩ := parseValue_obj h
      rw [Value.toJson, Template.json, Json.obj.injEq] at hw
      exact ms.plain_of_parse hms hw

theorem TemplateElems.plain_of_parse : ∀ (es : TemplateElems) {n : Nat} {t rest : Bytes}
    {es' : Elems}, parseElems n (es.text ++ rbracket :: t) = some (es', rest) →
    es'.toJson = es.json → es.IsPlain
  | .last p, _, t, _, _, h, hjson => by
      obtain ⟨k, w, t', -, hv, ⟨-, hes⟩ | ⟨u, es'', -, hrest, hes⟩⟩ := parseElems_value h
      · rw [hes, TemplateElems.json, List.cons.injEq] at hjson
        exact p.plain_of_parse hv hjson.1
      · rw [hes, TemplateElems.json, List.cons.injEq] at hjson
        exact p.plain_of_parse hv hjson.1
  | .more p rest, _, t, _, _, h, hjson => by
      rw [TemplateElems.text, List.append_assoc, List.cons_append] at h
      obtain ⟨k, w, t', -, hv, hnext⟩ := parseElems_value h
      have hhead : w.toJson = p.json := by
        rcases hnext with ⟨-, hes⟩ | ⟨u, es'', -, -, hes⟩
        · rw [hes, TemplateElems.json, List.cons.injEq] at hjson
          exact hjson.1
        · rw [hes, TemplateElems.json, List.cons.injEq] at hjson
          exact hjson.1
      have hp := p.plain_of_parse hv hhead
      obtain ⟨-, hstop⟩ := parseValue_template hp (ends_comma _) hv
      rcases hnext with ⟨hend, -⟩ | ⟨u, es'', hcomma, hrest, hes⟩
      · rw [hstop] at hend
        cases hend
      · rw [hstop] at hcomma
        obtain ⟨-, rfl⟩ := List.cons.inj hcomma
        rw [hes, TemplateElems.json, List.cons.injEq] at hjson
        exact ⟨hp, rest.plain_of_parse hrest hjson.2⟩

theorem TemplateMembers.plain_of_parse : ∀ (ms : TemplateMembers) {n : Nat} {t rest : Bytes}
    {ms' : Members}, parseMembers n (ms.text ++ rbrace :: t) = some (ms', rest) →
    ms'.toJson = ms.json → ms.IsPlain
  | .last key p, _, t, _, _, h, hjson => by
      rw [TemplateMembers.text, List.cons_append, List.append_assoc] at h
      obtain ⟨k, w, t', -, hv, ⟨-, hms⟩ | ⟨u, ms'', -, -, hms⟩⟩ := parseMembers_key h
      · rw [hms, TemplateMembers.json, List.cons.injEq] at hjson
        exact p.plain_of_parse hv (Prod.mk.inj hjson.1).2
      · rw [hms, TemplateMembers.json, List.cons.injEq] at hjson
        exact p.plain_of_parse hv (Prod.mk.inj hjson.1).2
  | .more key p rest, _, t, _, _, h, hjson => by
      rw [TemplateMembers.text, List.cons_append, List.append_assoc, List.cons_append,
        List.cons_append, List.append_assoc, List.cons_append] at h
      obtain ⟨k, w, t', -, hv, hnext⟩ := parseMembers_key h
      have hhead : w.toJson = p.json := by
        rcases hnext with ⟨-, hms⟩ | ⟨u, ms'', -, -, hms⟩
        · rw [hms, TemplateMembers.json, List.cons.injEq] at hjson
          exact (Prod.mk.inj hjson.1).2
        · rw [hms, TemplateMembers.json, List.cons.injEq] at hjson
          exact (Prod.mk.inj hjson.1).2
      have hp := p.plain_of_parse hv hhead
      obtain ⟨-, hstop⟩ := parseValue_template hp (ends_comma _) hv
      rcases hnext with ⟨hend, -⟩ | ⟨u, ms'', hcomma, hrest, hms⟩
      · rw [hstop] at hend
        cases hend
      · rw [hstop] at hcomma
        obtain ⟨-, rfl⟩ := List.cons.inj hcomma
        rw [hms, TemplateMembers.json, List.cons.injEq] at hjson
        exact ⟨hp, rest.plain_of_parse hrest hjson.2⟩

end

/-- The text denotes what the template means exactly when all pasted strings are
plain. -/
theorem Template.denotes_iff (p : Template) : Denotes p.text p.json ↔ p.IsPlain := by
  constructor
  · rintro ⟨d, hparse, hjson⟩
    unfold parseDoc at hparse
    cases hv : parseValue (p.text.length + 1) (takeWs p.text).2 with
    | none =>
        simp only [hv] at hparse
        cases hparse
    | some x =>
        simp only [hv] at hparse
        split at hparse
        · obtain rfl := Option.some.inj hparse
          rw [← List.append_nil p.text] at hv
          exact p.plain_of_parse hv hjson
        · cases hparse
  · intro h
    obtain ⟨d, htext, hjson⟩ := p.exists_doc h
    exact ⟨d, by rw [← htext, parseDoc_render], hjson⟩

/-! ## A member without a value -/

/-- Members in front of a given text. -/
def TemplateMembers.before : List (Str × Template) → Bytes → Bytes
  | [], t => t
  | m :: ms, t =>
      quote :: (m.1.raw ++ quote :: colon :: (m.2.text ++ comma :: TemplateMembers.before ms t))

theorem TemplateMembers.before_eq (m : Str × Template) (ms : List (Str × Template)) (t : Bytes) :
    TemplateMembers.before (m :: ms) t =
      templateMember m ++ ((ms.flatMap fun n => comma :: templateMember n) ++ comma :: t) := by
  induction ms generalizing m with
  | nil => simp [TemplateMembers.before, templateMember]
  | cons n ms ih =>
      rw [TemplateMembers.before, ih]
      simp [templateMember]

/-- Plain members are passed over. -/
theorem parseMembers_before {ms : List (Str × Template)} (hplain : ∀ m ∈ ms, m.2.IsPlain) {n : Nat}
    {t rest : Bytes} {r : Members}
    (h : parseMembers n (TemplateMembers.before ms t) = some (r, rest)) :
    ∃ k r', parseMembers k t = some (r', rest) := by
  induction ms generalizing n r with
  | nil => exact ⟨n, r, h⟩
  | cons m ms ih =>
      obtain ⟨k, w, t', -, hv, hnext⟩ := parseMembers_key h
      obtain ⟨-, hstop⟩ := parseValue_template (hplain m List.mem_cons_self) (ends_comma _) hv
      rw [hstop] at hnext
      rcases hnext with ⟨hend, -⟩ | ⟨u, r', hcomma, hrest, -⟩
      · cases hend
      · obtain ⟨-, rfl⟩ := List.cons.inj hcomma
        exact ih (fun m' hm' => hplain m' (List.mem_cons_of_mem m hm')) hrest

/-- No value starts with a comma or a closing brace. -/
theorem parseValue_punctuation {c : Byte} (hc : c = comma ∨ c = rbrace) (n : Nat) (t : Bytes) :
    parseValue n (takeWs (c :: t)).2 = none := by
  have hws : takeWs (c :: t) = (Ws.none, c :: t) := by
    rcases hc with rfl | rfl
    · exact takeWs_cons (by decide) t
    · exact takeWs_cons (by decide) t
  have hprim : parsePrim (c :: t) = none := by
    have htake : (c :: t).takeWhile isPrimByte = [] := by
      rcases hc with rfl | rfl <;> rfl
    unfold parsePrim
    rw [dif_neg]
    rw [htake]
    decide
  rw [hws]
  cases n with
  | zero => rfl
  | succ n =>
      have h1 : c ≠ quote := by rcases hc with rfl | rfl <;> decide
      have h2 : c ≠ lbracket := by rcases hc with rfl | rfl <;> decide
      have h3 : c ≠ lbrace := by rcases hc with rfl | rfl <;> decide
      simp only [parseValue, if_neg h1, if_neg h2, if_neg h3, hprim]

/-- An object in which plain members are followed by a key without a value is not
JSON. -/
theorem missing_value_not_json {ms : List (Str × Template)} (hplain : ∀ m ∈ ms, m.2.IsPlain)
    (key : Str) {c : Byte} (hc : c = comma ∨ c = rbrace) (t : Bytes) :
    parseDoc (lbrace :: TemplateMembers.before ms
      (quote :: (key.raw ++ quote :: colon :: c :: t))) = none := by
  have hmembers : ∀ n, parseMembers n (TemplateMembers.before ms
      (quote :: (key.raw ++ quote :: colon :: c :: t))) = none := by
    intro n
    rw [Option.eq_none_iff_forall_ne_some]
    rintro ⟨r, rest⟩ h
    obtain ⟨k, r', h'⟩ := parseMembers_before hplain h
    obtain ⟨k', w, t', -, hv, -⟩ := parseMembers_key h'
    rw [parseValue_punctuation hc] at hv
    cases hv
  have hhead : ∃ u, TemplateMembers.before ms (quote :: (key.raw ++ quote :: colon :: c :: t)) =
      quote :: u := by
    cases ms with
    | nil => exact ⟨_, rfl⟩
    | cons m ms => exact ⟨_, rfl⟩
  obtain ⟨u, hu⟩ := hhead
  rw [hu] at hmembers ⊢
  have h1 : lbrace ≠ quote := by decide
  have h2 : lbrace ≠ lbracket := by decide
  have h3 : quote ≠ rbrace := by decide
  have hws : takeWs (lbrace :: quote :: u) = (Ws.none, lbrace :: quote :: u) :=
    takeWs_cons (by decide) _
  have hws' : takeWs (quote :: u) = (Ws.none, quote :: u) := takeWs_cons (by decide) u
  simp only [parseDoc, hws, parseValue, if_neg h1, if_neg h2, if_true, hws', if_neg h3, hmembers]

end JsonText
