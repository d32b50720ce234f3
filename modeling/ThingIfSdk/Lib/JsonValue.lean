import ThingIfSdk.Lib.JsonParse

/-!
# What a JSON text denotes

`Value.toJson` forgets layout and decodes strings.  A string decodes to bytes:
an escape to the byte it names, a `\u` escape to the UTF-8 encoding of its code
point (two surrogates in a row form one), every other byte to itself.

Decoding never lengthens a string, and it keeps the length exactly when there is
nothing to decode; so the bytes that survive being pasted between two quotes are
the plain ones, `decode_eq_raw_iff`.
-/

namespace JsonText

open ByteText

/-- A JSON value without layout: object members in document order. -/
inductive Json where
  | prim (text : Bytes)
  | str (s : Bytes)
  | arr (es : List Json)
  | obj (ms : List (Bytes × Json))

/-! ## Strings -/

def hexVal (b : Byte) : Nat :=
  if b ≤ 0x39 then b.toNat - 0x30 else if b ≤ 0x46 then b.toNat - 0x37 else b.toNat - 0x57

def codeUnit (a b c d : Byte) : Nat :=
  4096 * hexVal a + 256 * hexVal b + 16 * hexVal c + hexVal d

/-- The UTF-8 encoding of a code point. -/
def utf8 (n : Nat) : Bytes :=
  if n < 0x80 then
    [n.toUInt8]
  else if n < 0x800 then
    [(0xc0 + n / 64).toUInt8, (0x80 + n % 64).toUInt8]
  else if n < 0x10000 then
    [(0xe0 + n / 4096).toUInt8, (0x80 + n / 64 % 64).toUInt8, (0x80 + n % 64).toUInt8]
  else
    [(0xf0 + n / 262144).toUInt8, (0x80 + n / 4096 % 64).toUInt8,
      (0x80 + n / 64 % 64).toUInt8, (0x80 + n % 64).toUInt8]

/-- The byte that a two-byte escape stands for. -/
def shortByte (b : Byte) : Byte :=
  if b = 0x62 then 0x08
  else if b = 0x66 then 0x0c
  else if b = 0x6e then 0x0a
  else if b = 0x72 then 0x0d
  else if b = 0x74 then 0x09
  else b

/-- The code point of a surrogate pair. -/
def surrogatePair (hi lo : Nat) : Option Nat :=
  if 0xd800 ≤ hi ∧ hi < 0xdc00 ∧ 0xdc00 ≤ lo ∧ lo < 0xe000 then
    some (0x10000 + (hi - 0xd800) * 1024 + (lo - 0xdc00))
  else
    none

def Str.decode : List StrUnit → Bytes
  | [] => []
  | .plain b _ :: s => b :: Str.decode s
  | .short b _ :: s => shortByte b :: Str.decode s
  | [.unicode a b c d _] => utf8 (codeUnit a b c d)
  | .unicode a b c d _ :: .plain b' ok :: s =>
      utf8 (codeUnit a b c d) ++ Str.decode (.plain b' ok :: s)
  | .unicode a b c d _ :: .short b' ok :: s =>
      utf8 (codeUnit a b c d) ++ Str.decode (.short b' ok :: s)
  | .unicode a b c d _ :: .unicode a' b' c' d' ok :: s =>
      match surrogatePair (codeUnit a b c d) (codeUnit a' b' c' d') with
      | some n => utf8 n ++ Str.decode s
      | none => utf8 (codeUnit a b c d) ++ Str.decode (.unicode a' b' c' d' ok :: s)

/-! ## Values -/

mutual

def Value.toJson : Value → Json
  | .prim p => .prim p.bytes
  | .str s => .str (Str.decode s)
  | .arrNil _ => .arr []
  | .arr es => .arr es.toJson
  | .objNil _ => .obj []
  | .obj ms => .obj ms.toJson

def Elems.toJson : Elems → List Json
  | .last _ v _ => [v.toJson]
  | .more _ v _ rest => v.toJson :: rest.toJson

def Members.toJson : Members → List (Bytes × Json)
  | .last _ key _ _ v _ => [(Str.decode key, v.toJson)]
  | .more _ key _ _ v _ rest => (Str.decode key, v.toJson) :: rest.toJson

end

/-- The text `t` is JSON and denotes `j`. -/
def Denotes (t : Bytes) (j : Json) : Prop :=
  ∃ d, parseDoc t = some d ∧ d.val.toJson = j

theorem denotes_render (v : Value) : Denotes v.render v.toJson := by
  refine ⟨Doc.bare v, ?_, rfl⟩
  rw [← Doc.render_bare, parseDoc_render]

/-- A text denotes at most one value. -/
theorem Denotes.unique {t : Bytes} {j j' : Json} (h : Denotes t j) (h' : Denotes t j') :
    j = j' := by
  obtain ⟨d, hd, rfl⟩ := h
  obtain ⟨d', hd', rfl⟩ := h'
  rw [hd] at hd'
  cases hd'
  rfl

/-! ## Plain strings -/

def StrUnit.isPlain : StrUnit → Bool
  | .plain _ _ => true
  | _ => false

theorem length_utf8_le (n : Nat) : (utf8 n).length ≤ 4 := by
  unfold utf8
  split
  · simp
  · split
    · simp
    · split <;> simp

/-- Every unit but a plain one is longer than what it decodes to. -/
theorem length_decode_le (s : List StrUnit) :
    (Str.decode s).length + (s.filter fun u => !u.isPlain).length ≤ (Str.raw s).length := by
  induction s using Str.decode.induct with
  | case1 => simp [Str.decode]
  | case2 b ok s ih =>
      simp only [Str.decode, Str.raw, List.flatMap_cons, StrUnit.render, List.length_append,
        List.length_cons, List.length_nil, List.filter_cons, StrUnit.isPlain, Bool.not_true,
        Bool.false_eq_true, if_false] at ih ⊢
      omega
  | case3 b ok s ih =>
      simp only [Str.decode, Str.raw, List.flatMap_cons, StrUnit.render, List.length_append,
        List.length_cons, List.length_nil, List.filter_cons, StrUnit.isPlain, Bool.not_false,
        if_true] at ih ⊢
      omega
  | case4 a b c d ok =>
      have := length_utf8_le (codeUnit a b c d)
      simp only [Str.decode, Str.raw, List.flatMap_cons, StrUnit.render, List.length_append,
        List.length_cons, List.length_nil, List.filter_cons, StrUnit.isPlain, Bool.not_false,
        if_true, List.flatMap_nil, List.filter_nil]
      omega
  | case5 a b c d ok b' ok' s ih =>
      have := length_utf8_le (codeUnit a b c d)
      simp only [Str.decode, Str.raw, List.flatMap_cons, StrUnit.render, List.length_append,
        List.length_cons, List.length_nil, List.filter_cons, StrUnit.isPlain, Bool.not_false,
        Bool.not_true, Bool.false_eq_true, if_false, if_true] at ih ⊢
      omega
  | case6 a b c d ok b' ok' s ih =>
      have := length_utf8_le (codeUnit a b c d)
      simp only [Str.decode, Str.raw, List.flatMap_cons, StrUnit.render, List.length_append,
        List.length_cons, List.length_nil, List.filter_cons, StrUnit.isPlain, Bool.not_false,
        if_true] at ih ⊢
      omega
  | case7 a b c d ok a' b' c' d' ok' s n hn ih =>
      have := length_utf8_le n
      simp only [Str.decode, hn, Str.raw, List.flatMap_cons, StrUnit.render, List.length_append,
        List.length_cons, List.length_nil, List.filter_cons, StrUnit.isPlain, Bool.not_false,
        if_true] at ih ⊢
      omega
  | case8 a b c d ok a' b' c' d' ok' s hn ih =>
      have := length_utf8_le (codeUnit a b c d)
      simp only [Str.decode, hn, Str.raw, List.flatMap_cons, StrUnit.render, List.length_append,
        List.length_cons, List.length_nil, List.filter_cons, StrUnit.isPlain, Bool.not_false,
        if_true] at ih ⊢
      omega

theorem decode_of_plain {s : List StrUnit} (h : s.all StrUnit.isPlain = true) :
    Str.decode s = Str.raw s := by
  induction s with
  | nil => rfl
  | cons u s ih =>
      rw [List.all_cons, Bool.and_eq_true] at h
      cases u with
      | plain b ok => simp [Str.decode, Str.raw, StrUnit.render, ih h.2]
      | short b ok => exact absurd h.1 (by simp [StrUnit.isPlain])
      | unicode a b c d ok => exact absurd h.1 (by simp [StrUnit.isPlain])

/-- A string decodes to its raw text exactly when it has no escapes. -/
theorem decode_eq_raw_iff (s : List StrUnit) :
    Str.decode s = Str.raw s ↔ s.all StrUnit.isPlain = true := by
  constructor
  · intro h
    have hlen := length_decode_le s
    rw [h] at hlen
    have hnil : (s.filter fun u => !u.isPlain) = [] := List.length_eq_zero_iff.mp (by omega)
    rw [List.filter_eq_nil_iff] at hnil
    rw [List.all_eq_true]
    intro u hu
    simpa using hnil u hu
  · exact decode_of_plain

/-- The raw text of a string without escapes consists of plain bytes. -/
theorem plain_of_all {s : List StrUnit} (h : s.all StrUnit.isPlain = true) :
    ∀ b ∈ Str.raw s, isPlain b = true := by
  intro b hb
  simp only [Str.raw, List.mem_flatMap] at hb
  obtain ⟨u, hu, hbu⟩ := hb
  have hplain := List.all_eq_true.mp h u hu
  cases u with
  | plain c ok =>
      simp only [StrUnit.render, List.mem_singleton] at hbu
      rw [hbu]
      exact ok
  | short | unicode => cases hplain

theorem all_plain {t : Bytes} (h : t.all isPlain = true) : ∀ b ∈ t, isPlain b = true :=
  List.all_eq_true.mp h

/-- The string whose units are the given plain bytes. -/
def Str.ofPlain (t : Bytes) (h : ∀ b ∈ t, isPlain b = true) : Str :=
  t.pmap StrUnit.plain h

theorem Str.raw_ofPlain (t : Bytes) (h : ∀ b ∈ t, isPlain b = true) :
    (Str.ofPlain t h).raw = t := by
  induction t with
  | nil => rfl
  | cons b t ih =>
      have := ih fun b' hb' => h b' (List.mem_cons_of_mem _ hb')
      simpa [Str.ofPlain, Str.raw, StrUnit.render] using this

theorem Str.decode_ofPlain (t : Bytes) (h : ∀ b ∈ t, isPlain b = true) :
    Str.decode (Str.ofPlain t h) = t := by
  rw [decode_of_plain, Str.raw_ofPlain]
  rw [List.all_eq_true]
  intro u hu
  simp only [Str.ofPlain, List.mem_pmap] at hu
  obtain ⟨b, hb, rfl⟩ := hu
  rfl

/-! ## Quotes -/

theorem unicode_no_quote (a b c d : Byte)
    (ok : (isHex a && isHex b && isHex c && isHex d) = true) :
    (StrUnit.unicode a b c d ok).render.count quote = 0 := by
  have hex : ∀ x : Byte, isHex x = true → x ≠ quote := by
    rintro x hx rfl
    exact absurd hx (by decide)
  simp only [Bool.and_eq_true] at ok
  obtain ⟨⟨⟨ha, hb⟩, hc⟩, hd⟩ := ok
  rw [List.count_eq_zero]
  simp only [StrUnit.render, List.mem_cons, List.not_mem_nil, or_false, not_or]
  exact ⟨by decide, by decide, (hex a ha).symm, (hex b hb).symm, (hex c hc).symm,
    (hex d hd).symm⟩

/-- A quote in the inside of a string is escaped, and decodes to a quote. -/
theorem count_quote_le (s : List StrUnit) :
    (Str.raw s).count quote ≤ (Str.decode s).count quote := by
  induction s using Str.decode.induct with
  | case1 => simp [Str.raw]
  | case2 b ok s ih =>
      simp only [Str.decode, Str.raw, List.flatMap_cons, StrUnit.render, List.count_append,
        List.count_cons, List.count_nil] at ih ⊢
      omega
  | case3 b ok s ih =>
      have hb : (if b == quote then 1 else 0) ≤ if shortByte b == quote then 1 else 0 := by
        by_cases hq : b = quote
        · subst hq
          decide
        · simp [hq]
      have hbackslash : (backslash == quote) = false := by decide
      simp only [Str.decode, Str.raw, List.flatMap_cons, StrUnit.render, List.count_append,
        List.count_cons, List.count_nil, hbackslash, Bool.false_eq_true, if_false] at ih ⊢
      omega
  | case4 a b c d ok =>
      have := unicode_no_quote a b c d ok
      simp only [Str.decode, Str.raw, List.flatMap_cons, List.flatMap_nil, List.append_nil, this]
      omega
  | case5 a b c d ok b' ok' s ih =>
      have := unicode_no_quote a b c d ok
      simp only [Str.decode, Str.raw, List.flatMap_cons, List.count_append, this] at ih ⊢
      omega
  | case6 a b c d ok b' ok' s ih =>
      have := unicode_no_quote a b c d ok
      simp only [Str.decode, Str.raw, List.flatMap_cons, List.count_append, this] at ih ⊢
      omega
  | case7 a b c d ok a' b' c' d' ok' s n hn ih =>
      have hfirst := unicode_no_quote a b c d ok
      have hsecond := unicode_no_quote a' b' c' d' ok'
      simp only [Str.decode, hn, Str.raw, List.flatMap_cons, List.count_append, hfirst,
        hsecond] at ih ⊢
      omega
  | case8 a b c d ok a' b' c' d' ok' s hn ih =>
      have := unicode_no_quote a b c d ok
      simp only [Str.decode, hn, Str.raw, List.flatMap_cons, List.count_append, this] at ih ⊢
      omega

/-- A text that is read as a string up to some quote, and whose string decodes to
what stands before another quote, has only plain bytes up to there. -/
theorem plain_of_decode {s : Str} {t v rest : Bytes} (h : s.raw ++ quote :: t = v ++ quote :: rest)
    (hv : Str.decode s = v) : ∀ b ∈ v, isPlain b = true := by
  have hlen := length_decode_le s
  have hcount := count_quote_le s
  rw [hv] at hlen hcount
  rcases List.append_eq_append_iff.mp h with ⟨more, hvmore, -⟩ | ⟨more, hraw, hmore⟩
  · -- the string ends inside `v`, or where `v` does
    have hnil : more = [] := by
      rw [hvmore, List.length_append] at hlen
      exact List.length_eq_zero_iff.mp (by omega)
    have heq : Str.decode s = Str.raw s := by rw [hv, hvmore, hnil, List.append_nil]
    rw [← hv, heq]
    exact plain_of_all ((decode_eq_raw_iff s).mp heq)
  · -- the string goes on behind `v`, so it has one quote more than it decodes to
    cases more with
    | nil =>
        have hraw' : s.raw = v := by rw [hraw, List.append_nil]
        rw [← hraw']
        exact plain_of_all ((decode_eq_raw_iff s).mp (hv.trans hraw'.symm))
    | cons b more =>
        simp only [List.cons_append, List.cons.injEq] at hmore
        rw [hraw, List.count_append, ← hmore.1, List.count_cons_self] at hcount
        omega

/-! ## Compact texts -/

/-- Array elements without white space. -/
def Elems.compact : Value → List Value → Elems
  | v, [] => .last .none v .none
  | v, w :: vs => .more .none v .none (Elems.compact w vs)

/-- Object members without white space. -/
def Members.compact : Str × Value → List (Str × Value) → Members
  | m, [] => .last .none m.1 .none .none m.2 .none
  | m, n :: ms => .more .none m.1 .none .none m.2 .none (Members.compact n ms)

def memberText (m : Str × Value) : Bytes :=
  quote :: (m.1.raw ++ quote :: colon :: m.2.render)

theorem Elems.render_compact (v : Value) (vs : List Value) :
    (Elems.compact v vs).render = v.render ++ vs.flatMap fun w => comma :: w.render := by
  induction vs generalizing v with
  | nil => simp [Elems.compact, Elems.render, Ws.none]
  | cons w vs ih => simp [Elems.compact, Elems.render, Ws.none, ih]

theorem Elems.toJson_compact (v : Value) (vs : List Value) :
    (Elems.compact v vs).toJson = v.toJson :: vs.map Value.toJson := by
  induction vs generalizing v with
  | nil => rfl
  | cons w vs ih => simp [Elems.compact, Elems.toJson, ih]

theorem Members.render_compact (m : Str × Value) (ms : List (Str × Value)) :
    (Members.compact m ms).render = memberText m ++ ms.flatMap fun n => comma :: memberText n := by
  induction ms generalizing m with
  | nil => simp [Members.compact, Members.render, Ws.none, memberText]
  | cons n ms ih => simp [Members.compact, Members.render, Ws.none, memberText, ih]

theorem Members.toJson_compact (m : Str × Value) (ms : List (Str × Value)) :
    (Members.compact m ms).toJson =
      (Str.decode m.1, m.2.toJson) :: ms.map fun n => (Str.decode n.1, n.2.toJson) := by
  induction ms generalizing m with
  | nil => rfl
  | cons n ms ih => simp [Members.compact, Members.toJson, ih]

end JsonText
