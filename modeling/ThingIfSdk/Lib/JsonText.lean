import ThingIfSdk.Lib.Bytes

/-!
# JSON texts

A JSON text is represented by its concrete syntax tree: every tree carries the
white space and the exact spelling of the text it stands for, so `render` is a
plain concatenation and two different trees never render to the same text.  The
leaves carry their own well-formedness, so a tree that is not JSON cannot be
built.

The grammar is the one of RFC 8259 read at the level of bytes: every byte from
0x20 on other than the quote and the backslash may stand in a string.
-/

namespace JsonText

open ByteText

/-! ## Bytes -/

def quote : Byte := 0x22
def backslash : Byte := 0x5c
def comma : Byte := 0x2c
def colon : Byte := 0x3a
def lbracket : Byte := 0x5b
def rbracket : Byte := 0x5d
def lbrace : Byte := 0x7b
def rbrace : Byte := 0x7d

def isWs (b : Byte) : Bool :=
  b == 0x20 || b == 0x09 || b == 0x0a || b == 0x0d

def isDigit (b : Byte) : Bool :=
  0x30 ≤ b && b ≤ 0x39

def isHex (b : Byte) : Bool :=
  isDigit b || (0x41 ≤ b && b ≤ 0x46) || (0x61 ≤ b && b ≤ 0x66)

/-- A byte that stands for itself inside a string. -/
def isPlain (b : Byte) : Bool :=
  0x20 ≤ b && b != quote && b != backslash

/-- The second byte of a two-byte escape. -/
def isShortEscape (b : Byte) : Bool :=
  b == 0x22 || b == 0x5c || b == 0x2f || b == 0x62 || b == 0x66 || b == 0x6e ||
    b == 0x72 || b == 0x74

/-- A byte of a number or of one of the three literal names. -/
def isPrimByte (b : Byte) : Bool :=
  isDigit b || (0x41 ≤ b && b ≤ 0x5a) || (0x61 ≤ b && b ≤ 0x7a) ||
    b == 0x2b || b == 0x2d || b == 0x2e

/-! ## Leaves -/

/-- The exponent of a number, or nothing. -/
def expOk : Bytes → Bool
  | [] => true
  | e :: rest =>
      (e == 0x65 || e == 0x45) &&
        let digits := match rest with
          | s :: rest' => if s == 0x2b || s == 0x2d then rest' else rest
          | [] => []
        !digits.isEmpty && digits.all isDigit

/-- The fraction and the exponent of a number. -/
def fracOk : Bytes → Bool
  | [] => true
  | b :: rest =>
      if b == 0x2e then
        match rest with
        | [] => false
        | d :: rest' => isDigit d && expOk (rest'.dropWhile isDigit)
      else
        expOk (b :: rest)

def unsignedOk : Bytes → Bool
  | [] => false
  | d :: rest =>
      if d == 0x30 then fracOk rest else isDigit d && fracOk (rest.dropWhile isDigit)

def isNumber : Bytes → Bool
  | [] => false
  | b :: rest => if b == 0x2d then unsignedOk rest else unsignedOk (b :: rest)

def isPrimText (t : Bytes) : Bool :=
  !t.isEmpty && t.all isPrimByte &&
    (t == ascii "true" || t == ascii "false" || t == ascii "null" || isNumber t)

/-- White space. -/
structure Ws where
  bytes : Bytes
  ok : bytes.all isWs = true
deriving DecidableEq

/-- A number, `true`, `false` or `null`. -/
structure Prim where
  bytes : Bytes
  ok : isPrimText bytes = true
deriving DecidableEq

/-- One unit of the inside of a string. -/
inductive StrUnit where
  | plain (b : Byte) (ok : isPlain b = true)
  | short (b : Byte) (ok : isShortEscape b = true)
  | unicode (a b c d : Byte) (ok : (isHex a && isHex b && isHex c && isHex d) = true)
deriving DecidableEq

/-- The inside of a string, unit by unit. -/
abbrev Str := List StrUnit

def StrUnit.render : StrUnit → Bytes
  | .plain b _ => [b]
  | .short b _ => [backslash, b]
  | .unicode a b c d _ => [backslash, 0x75, a, b, c, d]

/-- The raw text between the quotes. -/
def Str.raw (s : Str) : Bytes :=
  s.flatMap StrUnit.render

def Ws.none : Ws := ⟨[], rfl⟩

/-! ## Trees -/

mutual

/-- A JSON value with its spelling. -/
inductive Value where
  | prim (p : Prim)
  | str (s : Str)
  | arrNil (pad : Ws)
  | arr (es : Elems)
  | objNil (pad : Ws)
  | obj (ms : Members)

/-- One or more array elements. -/
inductive Elems where
  | last (pre : Ws) (v : Value) (post : Ws)
  | more (pre : Ws) (v : Value) (post : Ws) (rest : Elems)

/-- One or more object members. -/
inductive Members where
  | last (pre : Ws) (key : Str) (mid pre' : Ws) (v : Value) (post : Ws)
  | more (pre : Ws) (key : Str) (mid pre' : Ws) (v : Value) (post : Ws) (rest : Members)

end

mutual

def Value.render : Value → Bytes
  | .prim p => p.bytes
  | .str s => quote :: (s.raw ++ [quote])
  | .arrNil pad => lbracket :: (pad.bytes ++ [rbracket])
  | .arr es => lbracket :: (es.render ++ [rbracket])
  | .objNil pad => lbrace :: (pad.bytes ++ [rbrace])
  | .obj ms => lbrace :: (ms.render ++ [rbrace])

def Elems.render : Elems → Bytes
  | .last pre v post => pre.bytes ++ (v.render ++ post.bytes)
  | .more pre v post rest => pre.bytes ++ (v.render ++ (post.bytes ++ comma :: rest.render))

def Members.render : Members → Bytes
  | .last pre key mid pre' v post =>
      pre.bytes ++ quote :: (key.raw ++ quote :: (mid.bytes ++ colon ::
        (pre'.bytes ++ (v.render ++ post.bytes))))
  | .more pre key mid pre' v post rest =>
      pre.bytes ++ quote :: (key.raw ++ quote :: (mid.bytes ++ colon ::
        (pre'.bytes ++ (v.render ++ (post.bytes ++ comma :: rest.render)))))

end

/-- A whole text: one value with white space around it. -/
structure Doc where
  pre : Ws
  val : Value
  post : Ws

def Doc.render (d : Doc) : Bytes :=
  d.pre.bytes ++ (d.val.render ++ d.post.bytes)

/-! ## Bytes that a text cannot contain -/

theorem isPlain_ne_zero {b : Byte} (h : isPlain b = true) : b ≠ 0 := by
  rintro rfl
  exact absurd h (by decide)

theorem isShortEscape_ne_zero {b : Byte} (h : isShortEscape b = true) : b ≠ 0 := by
  rintro rfl
  exact absurd h (by decide)

theorem isHex_ne_zero {b : Byte} (h : isHex b = true) : b ≠ 0 := by
  rintro rfl
  exact absurd h (by decide)

theorem StrUnit.nul_not_mem_render (u : StrUnit) : (0 : Byte) ∉ u.render := by
  cases u with
  | plain b ok =>
      have := isPlain_ne_zero ok
      simp [render, this.symm]
  | short b ok =>
      have := isShortEscape_ne_zero ok
      simp [render, backslash, this.symm]
  | unicode a b c d ok =>
      simp only [Bool.and_eq_true] at ok
      obtain ⟨⟨⟨ha, hb⟩, hc⟩, hd⟩ := ok
      simp [render, backslash, (isHex_ne_zero ha).symm, (isHex_ne_zero hb).symm,
        (isHex_ne_zero hc).symm, (isHex_ne_zero hd).symm]

theorem Str.nul_not_mem_raw (s : Str) : (0 : Byte) ∉ s.raw := by
  unfold Str.raw
  simp only [List.mem_flatMap, not_exists, not_and]
  intro u _
  exact u.nul_not_mem_render

theorem Ws.nul_not_mem (w : Ws) : (0 : Byte) ∉ w.bytes := by
  intro h
  have := List.all_eq_true.mp w.ok 0 h
  exact absurd this (by decide)

theorem Prim.nul_not_mem (p : Prim) : (0 : Byte) ∉ p.bytes := by
  intro h
  have hok := p.ok
  simp only [isPrimText, Bool.and_eq_true] at hok
  have := List.all_eq_true.mp hok.1.2 0 h
  exact absurd this (by decide)

mutual

/-- A JSON text contains no NUL. -/
theorem Value.nul_not_mem_render : ∀ v : Value, (0 : Byte) ∉ v.render
  | .prim p => by
      rw [Value.render]
      exact p.nul_not_mem
  | .str s => by
      have := s.nul_not_mem_raw
      simp [Value.render, quote, this]
  | .arrNil pad => by
      have := pad.nul_not_mem
      simp [Value.render, lbracket, rbracket, this]
  | .arr es => by
      have := es.nul_not_mem_render
      simp [Value.render, lbracket, rbracket, this]
  | .objNil pad => by
      have := pad.nul_not_mem
      simp [Value.render, lbrace, rbrace, this]
  | .obj ms => by
      have := ms.nul_not_mem_render
      simp [Value.render, lbrace, rbrace, this]

theorem Elems.nul_not_mem_render : ∀ es : Elems, (0 : Byte) ∉ es.render
  | .last pre v post => by
      have hv := v.nul_not_mem_render
      simp [Elems.render, pre.nul_not_mem, post.nul_not_mem, hv]
  | .more pre v post rest => by
      have hv := v.nul_not_mem_render
      have hr := rest.nul_not_mem_render
      simp [Elems.render, comma, pre.nul_not_mem, post.nul_not_mem, hv, hr]

theorem Members.nul_not_mem_render : ∀ ms : Members, (0 : Byte) ∉ ms.render
  | .last pre key mid pre' v post => by
      have hv := v.nul_not_mem_render
      simp [Members.render, quote, colon, pre.nul_not_mem, mid.nul_not_mem,
        pre'.nul_not_mem, post.nul_not_mem, key.nul_not_mem_raw, hv]
  | .more pre key mid pre' v post rest => by
      have hv := v.nul_not_mem_render
      have hr := rest.nul_not_mem_render
      simp [Members.render, quote, colon, comma, pre.nul_not_mem, mid.nul_not_mem,
        pre'.nul_not_mem, post.nul_not_mem, key.nul_not_mem_raw, hv, hr]

end

end JsonText
