import ThingIfSdk.Lib.JsonText

/-!
# Parsing JSON texts

A recursive-descent parser for the trees of `JsonText`.  It is exact in both
directions: what it returns renders to what it consumed (`parseDoc_sound`), and
it returns every tree from its own rendering (`parseDoc_render`).  Together they
say that a text has at most one tree, `parseDoc_eq_some_iff`.
-/

namespace JsonText

open ByteText

/-! ## The parser -/

/-- Split off the leading white space. -/
def takeWs (t : Bytes) : Ws × Bytes :=
  (⟨t.takeWhile isWs, by
    rw [List.all_eq_true]
    exact fun b hb => List.mem_takeWhile_imp hb⟩, t.dropWhile isWs)

/-- Read one unit of a string. -/
def parseUnit : Bytes → Option (StrUnit × Bytes)
  | [] => none
  | b :: rest =>
      if b = backslash then
        match rest with
        | [] => none
        | e :: rest' =>
            if he : isShortEscape e = true then
              some (.short e he, rest')
            else if e = 0x75 then
              match rest' with
              | h1 :: h2 :: h3 :: h4 :: rest'' =>
                  if hh : (isHex h1 && isHex h2 && isHex h3 && isHex h4) = true then
                    some (.unicode h1 h2 h3 h4 hh, rest'')
                  else
                    none
              | _ => none
            else
              none
      else if hp : isPlain b = true then
        some (.plain b hp, rest)
      else
        none

/-- Read the inside of a string up to its closing quote. -/
def parseStr : Nat → Bytes → Option (Str × Bytes)
  | 0, _ => none
  | _ + 1, [] => none
  | n + 1, b :: rest =>
      if b = quote then
        some ([], rest)
      else
        match parseUnit (b :: rest) with
        | none => none
        | some (u, rest') =>
            match parseStr n rest' with
            | none => none
            | some (s, rest'') => some (u :: s, rest'')

/-- Read a number or a literal name: the longest run of bytes they are made of. -/
def parsePrim (t : Bytes) : Option (Prim × Bytes) :=
  if h : isPrimText (t.takeWhile isPrimByte) = true then
    some (⟨t.takeWhile isPrimByte, h⟩, t.dropWhile isPrimByte)
  else
    none

mutual

def parseValue : Nat → Bytes → Option (Value × Bytes)
  | 0, _ => none
  | _ + 1, [] => none
  | n + 1, b :: rest =>
      if b = quote then
        match parseStr (rest.length + 1) rest with
        | none => none
        | some (s, rest') => some (.str s, rest')
      else if b = lbracket then
        match (takeWs rest).2 with
        | [] => none
        | c :: rest' =>
            if c = rbracket then
              some (.arrNil (takeWs rest).1, rest')
            else
              match parseElems n rest with
              | none => none
              | some (es, rest'') => some (.arr es, rest'')
      else if b = lbrace then
        match (takeWs rest).2 with
        | [] => none
        | c :: rest' =>
            if c = rbrace then
              some (.objNil (takeWs rest).1, rest')
            else
              match parseMembers n rest with
              | none => none
              | some (ms, rest'') => some (.obj ms, rest'')
      else
        match parsePrim (b :: rest) with
        | none => none
        | some (p, rest') => some (.prim p, rest')

/-- Read array elements up to and including the closing bracket. -/
def parseElems : Nat → Bytes → Option (Elems × Bytes)
  | 0, _ => none
  | n + 1, t =>
      match parseValue n (takeWs t).2 with
      | none => none
      | some (v, t') =>
          match (takeWs t').2 with
          | [] => none
          | c :: rest =>
              if c = rbracket then
                some (.last (takeWs t).1 v (takeWs t').1, rest)
              else if c = comma then
                match parseElems n rest with
                | none => none
                | some (es, rest') => some (.more (takeWs t).1 v (takeWs t').1 es, rest')
              else
                none

/-- Read object members up to and including the closing brace. -/
def parseMembers : Nat → Bytes → Option (Members × Bytes)
  | 0, _ => none
  | n + 1, t =>
      match (takeWs t).2 with
      | [] => none
      | q :: t1 =>
          if q = quote then
            match parseStr (t1.length + 1) t1 with
            | none => none
            | some (key, t2) =>
                match (takeWs t2).2 with
                | [] => none
                | c :: t3 =>
                    if c = colon then
                      match parseValue n (takeWs t3).2 with
                      | none => none
                      | some (v, t4) =>
                          match (takeWs t4).2 with
                          | [] => none
                          | d :: rest =>
                              if d = rbrace then
                                some (.last (takeWs t).1 key (takeWs t2).1 (takeWs t3).1 v
                                  (takeWs t4).1, rest)
                              else if d = comma then
                                match parseMembers n rest with
                                | none => none
                                | some (ms, rest') =>
                                    some (.more (takeWs t).1 key (takeWs t2).1 (takeWs t3).1 v
                                      (takeWs t4).1 ms, rest')
                              else
                                none
                    else
                      none
          else
            none

end

/-- Read a whole text. -/
def parseDoc (t : Bytes) : Option Doc :=
  match parseValue (t.length + 1) (takeWs t).2 with
  | none => none
  | some (v, t') =>
      if (takeWs t').2 = [] then some ⟨(takeWs t).1, v, (takeWs t').1⟩ else none

/-! ## Fuel -/

section

variable {n : Nat} (ihValue : ∀ t r, parseValue n t = some r → parseValue (n + 1) t = some r)
  (ihElems : ∀ t r, parseElems n t = some r → parseElems (n + 1) t = some r)
  (ihMembers : ∀ t r, parseMembers n t = some r → parseMembers (n + 1) t = some r)

include ihElems ihMembers in
theorem parseValue_succ {t : Bytes} {r : Value × Bytes} (h : parseValue (n + 1) t = some r) :
    parseValue (n + 1 + 1) t = some r := by
  cases t with
  | nil => cases h
  | cons b rest =>
      rw [parseValue] at h ⊢
      split at h
      · rename_i hb
        rw [if_pos hb]
        exact h
      · rename_i hb
        rw [if_neg hb]
        split at h
        · rename_i hb
          rw [if_pos hb]
          cases hws : (takeWs rest).2 with
          | nil => simp only [hws] at h; cases h
          | cons c rest' =>
              simp only [hws] at h ⊢
              split at h
              · rename_i hc
                rw [if_pos hc]
                exact h
              · rename_i hc
                rw [if_neg hc]
                cases hes : parseElems n rest with
                | none => simp only [hes] at h; cases h
                | some x =>
                    rw [ihElems rest x hes]
                    rw [hes] at h
                    exact h
        · rename_i hb
          rw [if_neg hb]
          split at h
          · rename_i hb
            rw [if_pos hb]
            cases hws : (takeWs rest).2 with
            | nil => simp only [hws] at h; cases h
            | cons c rest' =>
                simp only [hws] at h ⊢
                split at h
                · rename_i hc
                  rw [if_pos hc]
                  exact h
                · rename_i hc
                  rw [if_neg hc]
                  cases hms : parseMembers n rest with
                  | none => simp only [hms] at h; cases h
                  | some x =>
                      rw [ihMembers rest x hms]
                      rw [hms] at h
                      exact h
          · rename_i hb
            rw [if_neg hb]
            exact h

include ihValue ihElems in
theorem parseElems_succ {t : Bytes} {r : Elems × Bytes} (h : parseElems (n + 1) t = some r) :
    parseElems (n + 1 + 1) t = some r := by
  rw [parseElems] at h ⊢
  cases hv : parseValue n (takeWs t).2 with
  | none => simp only [hv] at h; cases h
  | some x =>
      rw [ihValue _ x hv]
      simp only [hv] at h ⊢
      cases hws : (takeWs x.2).2 with
      | nil => simp only [hws] at h; cases h
      | cons c rest =>
          simp only [hws] at h ⊢
          split at h
          · rename_i hc
            rw [if_pos hc]
            exact h
          · rename_i hc
            rw [if_neg hc]
            split at h
            · rename_i hc
              rw [if_pos hc]
              cases hes : parseElems n rest with
              | none => simp only [hes] at h; cases h
              | some y =>
                  rw [ihElems rest y hes]
                  rw [hes] at h
                  exact h
            · cases h

include ihValue ihMembers in
theorem parseMembers_succ {t : Bytes} {r : Members × Bytes}
    (h : parseMembers (n + 1) t = some r) : parseMembers (n + 1 + 1) t = some r := by
  rw [parseMembers] at h ⊢
  cases hws : (takeWs t).2 with
  | nil => simp only [hws] at h; cases h
  | cons q t1 =>
      simp only [hws] at h ⊢
      split at h
      · rename_i hq
        rw [if_pos hq]
        cases hkey : parseStr (t1.length + 1) t1 with
        | none => simp only [hkey] at h; cases h
        | some k =>
            simp only [hkey] at h ⊢
            cases hws₂ : (takeWs k.2).2 with
            | nil => simp only [hws₂] at h; cases h
            | cons c t3 =>
                simp only [hws₂] at h ⊢
                split at h
                · rename_i hc
                  rw [if_pos hc]
                  cases hv : parseValue n (takeWs t3).2 with
                  | none => simp only [hv] at h; cases h
                  | some x =>
                      rw [ihValue _ x hv]
                      simp only [hv] at h ⊢
                      cases hws₃ : (takeWs x.2).2 with
                      | nil => simp only [hws₃] at h; cases h
                      | cons d rest =>
                          simp only [hws₃] at h ⊢
                          split at h
                          · rename_i hd
                            rw [if_pos hd]
                            exact h
                          · rename_i hd
                            rw [if_neg hd]
                            split at h
                            · rename_i hd
                              rw [if_pos hd]
                              cases hms : parseMembers n rest with
                              | none => simp only [hms] at h; cases h
                              | some y =>
                                  rw [ihMembers rest y hms]
                                  rw [hms] at h
                                  exact h
                            · cases h
                · cases h
      · cases h

end

/-- More fuel does not change a result. -/
theorem parse_succ (n : Nat) :
    (∀ t r, parseValue n t = some r → parseValue (n + 1) t = some r) ∧
    (∀ t r, parseElems n t = some r → parseElems (n + 1) t = some r) ∧
    (∀ t r, parseMembers n t = some r → parseMembers (n + 1) t = some r) := by
  induction n with
  | zero => exact ⟨nofun, nofun, nofun⟩
  | succ n ih =>
      obtain ⟨ihValue, ihElems, ihMembers⟩ := ih
      exact ⟨fun _ _ => parseValue_succ ihElems ihMembers,
        fun _ _ => parseElems_succ ihValue ihElems,
        fun _ _ => parseMembers_succ ihValue ihMembers⟩

theorem parseValue_add {n : Nat} {t : Bytes} {r : Value × Bytes} (h : parseValue n t = some r)
    (k : Nat) : parseValue (n + k) t = some r := by
  induction k with
  | zero => exact h
  | succ k ih => exact (parse_succ (n + k)).1 t r ih

/-! ## What is returned renders to what was consumed -/

theorem takeWs_append (t : Bytes) : (takeWs t).1.bytes ++ (takeWs t).2 = t :=
  List.takeWhile_append_dropWhile

theorem parseUnit_sound {t : Bytes} {u : StrUnit} {rest : Bytes}
    (h : parseUnit t = some (u, rest)) : t = u.render ++ rest := by
  cases t with
  | nil => cases h
  | cons b t =>
      simp only [parseUnit] at h
      split at h
      · rename_i hb
        subst hb
        cases t with
        | nil => cases h
        | cons e t =>
            simp only at h
            split at h
            · cases h
              rfl
            · split at h
              · rename_i hu
                subst hu
                split at h
                · split at h
                  · cases h
                    rfl
                  · cases h
                · cases h
              · cases h
      · split at h
        · cases h
          rfl
        · cases h

theorem parseStr_sound {n : Nat} {t : Bytes} {s : Str} {rest : Bytes}
    (h : parseStr n t = some (s, rest)) : t = s.raw ++ quote :: rest := by
  induction n generalizing t s with
  | zero => cases h
  | succ n ih =>
      cases t with
      | nil => cases h
      | cons b t =>
          simp only [parseStr] at h
          split at h
          · rename_i hb
            subst hb
            cases h
            rfl
          · cases hu : parseUnit (b :: t) with
            | none => rw [hu] at h; cases h
            | some p =>
                obtain ⟨u, t'⟩ := p
                rw [hu] at h
                simp only at h
                cases hs : parseStr n t' with
                | none => rw [hs] at h; cases h
                | some q =>
                    obtain ⟨s', t''⟩ := q
                    rw [hs] at h
                    cases h
                    rw [parseUnit_sound hu, ih hs]
                    simp [Str.raw]

theorem parsePrim_sound {t : Bytes} {p : Prim} {rest : Bytes}
    (h : parsePrim t = some (p, rest)) : t = p.bytes ++ rest := by
  unfold parsePrim at h
  split at h
  · cases h
    exact List.takeWhile_append_dropWhile.symm
  · cases h

/-- The three soundness statements at one fuel. -/
private structure SoundAt (n : Nat) : Prop where
  value : ∀ t v rest, parseValue n t = some (v, rest) → t = v.render ++ rest
  elems : ∀ t es rest, parseElems n t = some (es, rest) →
    t = es.render ++ rbracket :: rest
  members : ∀ t ms rest, parseMembers n t = some (ms, rest) →
    t = ms.render ++ rbrace :: rest

private theorem parseValue_sound_succ {n : Nat} (ih : SoundAt n) (t : Bytes) (v : Value)
    (rest : Bytes) (h : parseValue (n + 1) t = some (v, rest)) : t = v.render ++ rest := by
  cases t with
  | nil => cases h
  | cons b t =>
      simp only [parseValue] at h
      split at h
      -- The branches of the parser in their order: string, array, object, primitive.
      · rename_i hb
        subst hb
        split at h
        · cases h
        · rename_i s rest' hs
          cases h
          rw [parseStr_sound hs]
          simp [Value.render]
      · split at h
        · rename_i hb
          subst hb
          split at h
          · cases h
          · rename_i c rest' hws
            split at h
            · rename_i hc
              subst hc
              cases h
              conv_lhs => rw [← takeWs_append t, hws]
              simp [Value.render]
            · split at h
              · cases h
              · rename_i es rest'' hes
                cases h
                rw [ih.elems _ _ _ hes]
                simp [Value.render]
        · split at h
          · rename_i hb
            subst hb
            split at h
            · cases h
            · rename_i c rest' hws
              split at h
              · rename_i hc
                subst hc
                cases h
                conv_lhs => rw [← takeWs_append t, hws]
                simp [Value.render]
              · split at h
                · cases h
                · rename_i ms rest'' hms
                  cases h
                  rw [ih.members _ _ _ hms]
                  simp [Value.render]
          · split at h
            · cases h
            · rename_i p rest' hp
              cases h
              rw [parsePrim_sound hp]
              rfl

private theorem parseElems_sound_succ {n : Nat} (ih : SoundAt n) (t : Bytes) (es : Elems)
    (rest : Bytes) (h : parseElems (n + 1) t = some (es, rest)) :
    t = es.render ++ rbracket :: rest := by
  simp only [parseElems] at h
  split at h
  · cases h
  · rename_i v t' hv
    have ht : t = (takeWs t).1.bytes ++ (v.render ++ t') := by
      conv_lhs => rw [← takeWs_append t, ih.value _ _ _ hv]
    split at h
    · cases h
    · rename_i c rest' hws
      have ht' : t' = (takeWs t').1.bytes ++ c :: rest' := by
        conv_lhs => rw [← takeWs_append t', hws]
      split at h
      · rename_i hc
        subst hc
        cases h
        conv_lhs => rw [ht, ht']
        simp [Elems.render]
      · split at h
        · rename_i hc
          subst hc
          split at h
          · cases h
          · rename_i es' rest'' hes
            cases h
            conv_lhs => rw [ht, ht', ih.elems _ _ _ hes]
            simp [Elems.render]
        · cases h

private theorem parseMembers_sound_succ {n : Nat} (ih : SoundAt n) (t : Bytes) (ms : Members)
    (rest : Bytes) (h : parseMembers (n + 1) t = some (ms, rest)) :
    t = ms.render ++ rbrace :: rest := by
  simp only [parseMembers] at h
  split at h
  · cases h
  · rename_i q t1 h0
    split at h
    · rename_i hq
      subst hq
      split at h
      · cases h
      · rename_i key t2 hkey
        split at h
        · cases h
        · rename_i c t3 h2
          split at h
          · rename_i hc
            subst hc
            split at h
            · cases h
            · rename_i v t4 hv
              have ht : t = (takeWs t).1.bytes ++ quote :: (key.raw ++ quote ::
                  ((takeWs t2).1.bytes ++ colon :: ((takeWs t3).1.bytes ++
                    (v.render ++ t4)))) := by
                conv_lhs => rw [← takeWs_append t, h0, parseStr_sound hkey, ← takeWs_append t2,
                  h2, ← takeWs_append t3, ih.value _ _ _ hv]
              split at h
              · cases h
              · rename_i d rest' h4
                have ht4 : t4 = (takeWs t4).1.bytes ++ d :: rest' := by
                  conv_lhs => rw [← takeWs_append t4, h4]
                split at h
                · rename_i hd
                  subst hd
                  cases h
                  conv_lhs => rw [ht, ht4]
                  simp [Members.render]
                · split at h
                  · rename_i hd
                    subst hd
                    split at h
                    · cases h
                    · rename_i ms' rest'' hms
                      cases h
                      conv_lhs => rw [ht, ht4, ih.members _ _ _ hms]
                      simp [Members.render]
                  · cases h
          · cases h
    · cases h

private theorem soundAt (n : Nat) : SoundAt n := by
  induction n with
  | zero =>
      refine ⟨?_, ?_, ?_⟩ <;> intro t x rest h
      · simp [parseValue] at h
      · simp [parseElems] at h
      · simp [parseMembers] at h
  | succ n ih =>
      exact ⟨parseValue_sound_succ ih, parseElems_sound_succ ih, parseMembers_sound_succ ih⟩

theorem parseDoc_sound {t : Bytes} {d : Doc} (h : parseDoc t = some d) : d.render = t := by
  unfold parseDoc at h
  split at h
  · cases h
  · rename_i v t' hv
    split at h
    · rename_i hend
      cases h
      have h2 : t' = (takeWs t').1.bytes := by
        conv_lhs => rw [← takeWs_append t', hend, List.append_nil]
      conv_rhs => rw [← takeWs_append t, (soundAt _).value _ _ _ hv, h2]
      rfl
    · cases h

/-! ## Every tree is read back from its rendering -/

/-- The next byte, if any, does not satisfy `p`. -/
def StopsAt (p : Byte → Bool) (t : Bytes) : Prop :=
  ∀ b rest, t = b :: rest → p b = false

theorem stopsAt_nil (p : Byte → Bool) : StopsAt p [] := by
  intro b rest h
  cases h

theorem stopsAt_cons {p : Byte → Bool} {b : Byte} (h : p b = false) (t : Bytes) :
    StopsAt p (b :: t) := by
  intro b' rest hb
  cases hb
  exact h

/-- A run of `p` bytes up to a byte that is none is split off exactly. -/
theorem span_append {p : Byte → Bool} {w t : Bytes} (hw : w.all p = true) (ht : StopsAt p t) :
    (w ++ t).takeWhile p = w ∧ (w ++ t).dropWhile p = t := by
  have hall : ∀ b ∈ w, p b = true := List.all_eq_true.mp hw
  rw [List.takeWhile_append_of_pos hall, List.dropWhile_append_of_pos hall]
  cases t with
  | nil => simp
  | cons b rest =>
      have hb := ht b rest rfl
      simp [hb]

theorem takeWs_render (w : Ws) {t : Bytes} (ht : StopsAt isWs t) :
    takeWs (w.bytes ++ t) = (w, t) := by
  obtain ⟨h1, h2⟩ := span_append w.ok ht
  unfold takeWs
  cases w with
  | mk bytes ok =>
      simp only [Prod.mk.injEq, Ws.mk.injEq]
      exact ⟨h1, h2⟩

theorem takeWs_cons {b : Byte} (h : isWs b = false) (t : Bytes) :
    takeWs (b :: t) = (Ws.none, b :: t) := by
  simp [takeWs, h, Ws.none]

theorem Prim.ne_nil (p : Prim) : p.bytes ≠ [] := by
  intro h
  have hok := p.ok
  rw [h] at hok
  exact absurd hok (by decide)

theorem Prim.all_primByte (p : Prim) : p.bytes.all isPrimByte = true := by
  have hok := p.ok
  simp only [isPrimText, Bool.and_eq_true] at hok
  exact hok.1.2

theorem parsePrim_render (p : Prim) {t : Bytes} (ht : StopsAt isPrimByte t) :
    parsePrim (p.bytes ++ t) = some (p, t) := by
  obtain ⟨h1, h2⟩ := span_append p.all_primByte ht
  unfold parsePrim
  cases p with
  | mk bytes ok =>
      simp only at h1 h2
      simp only [h1, h2]
      rw [dif_pos ok]

theorem StrUnit.render_head (u : StrUnit) : ∃ b t, u.render = b :: t ∧ b ≠ quote := by
  cases u with
  | plain b ok =>
      refine ⟨b, [], rfl, ?_⟩
      rintro rfl
      exact absurd ok (by decide)
  | short b ok => exact ⟨backslash, [b], rfl, by decide⟩
  | unicode a b c d ok => exact ⟨backslash, [0x75, a, b, c, d], rfl, by decide⟩

theorem parseUnit_render (u : StrUnit) (t : Bytes) :
    parseUnit (u.render ++ t) = some (u, t) := by
  cases u with
  | plain b ok =>
      have hb : b ≠ backslash := by
        rintro rfl
        exact absurd ok (by decide)
      simp [StrUnit.render, parseUnit, hb, ok]
  | short b ok => simp [StrUnit.render, parseUnit, ok]
  | unicode a b c d ok =>
      have hu : isShortEscape 0x75 = false := by decide
      simp only [StrUnit.render, List.cons_append, List.nil_append, parseUnit, if_true, hu,
        Bool.false_eq_true, dite_false]
      rw [dif_pos ok]

theorem StrUnit.length_render_pos (u : StrUnit) : 0 < u.render.length := by
  cases u <;> simp [StrUnit.render]

theorem Str.length_le_length_raw (s : Str) : s.length ≤ s.raw.length := by
  induction s with
  | nil => simp
  | cons u s ih =>
      have := u.length_render_pos
      simp only [Str.raw, List.flatMap_cons, List.length_append, List.length_cons] at ih ⊢
      omega

theorem parseStr_render {n : Nat} (s : Str) (t : Bytes) (hn : s.length < n) :
    parseStr n (s.raw ++ quote :: t) = some (s, t) := by
  induction s generalizing n with
  | nil =>
      cases n with
      | zero => simp at hn
      | succ n => simp [Str.raw, parseStr]
  | cons u s ih =>
      cases n with
      | zero => simp at hn
      | succ n =>
          obtain ⟨b, r, hur, hb⟩ := u.render_head
          have hunit := parseUnit_render u (Str.raw s ++ quote :: t)
          have hrest : parseStr n (Str.raw s ++ quote :: t) = some (s, t) :=
            ih (by simpa using hn)
          have happ : Str.raw (u :: s) ++ quote :: t =
              b :: (r ++ (Str.raw s ++ quote :: t)) := by
            simp [Str.raw, hur]
          have hunit' : parseUnit (b :: (r ++ (Str.raw s ++ quote :: t))) =
              some (u, Str.raw s ++ quote :: t) := by
            rw [← hunit, hur]
            rfl
          rw [happ]
          simp only [parseStr, if_neg hb, hunit', hrest]

/-- Reading the inside of a string with the fuel that the parser gives it. -/
theorem parseStr_render_self (s : Str) (t : Bytes) :
    parseStr ((s.raw ++ quote :: t).length + 1) (s.raw ++ quote :: t) = some (s, t) := by
  refine parseStr_render s t ?_
  have := s.length_le_length_raw
  simp only [List.length_append, List.length_cons]
  omega

/-! ### Fuel -/

mutual

/-- Fuel with which the parser reads a value. -/
def Value.size : Value → Nat
  | .prim _ => 1
  | .str _ => 1
  | .arrNil _ => 1
  | .arr es => 1 + es.size
  | .objNil _ => 1
  | .obj ms => 1 + ms.size

def Elems.size : Elems → Nat
  | .last _ v _ => 1 + v.size
  | .more _ v _ rest => 1 + v.size + rest.size

def Members.size : Members → Nat
  | .last _ _ _ _ v _ => 1 + v.size
  | .more _ _ _ _ v _ rest => 1 + v.size + rest.size

end

mutual

theorem Value.size_le_length : ∀ v : Value, v.size ≤ v.render.length
  | .prim p => by
      have := List.length_pos_iff.mpr p.ne_nil
      simp only [Value.size, Value.render]
      omega
  | .str s => by simp [Value.size, Value.render]
  | .arrNil pad => by simp [Value.size, Value.render]
  | .arr es => by
      have := es.size_le_length
      simp only [Value.size, Value.render, List.length_cons, List.length_append,
        List.length_nil]
      omega
  | .objNil pad => by simp [Value.size, Value.render]
  | .obj ms => by
      have := ms.size_le_length
      simp only [Value.size, Value.render, List.length_cons, List.length_append,
        List.length_nil]
      omega

theorem Elems.size_le_length : ∀ es : Elems, es.size ≤ es.render.length + 1
  | .last pre v post => by
      have := v.size_le_length
      simp only [Elems.size, Elems.render, List.length_append]
      omega
  | .more pre v post rest => by
      have := v.size_le_length
      have := rest.size_le_length
      simp only [Elems.size, Elems.render, List.length_append, List.length_cons]
      omega

theorem Members.size_le_length : ∀ ms : Members, ms.size ≤ ms.render.length + 1
  | .last pre key mid pre' v post => by
      have := v.size_le_length
      simp only [Members.size, Members.render, List.length_append, List.length_cons]
      omega
  | .more pre key mid pre' v post rest => by
      have := v.size_le_length
      have := rest.size_le_length
      simp only [Members.size, Members.render, List.length_append, List.length_cons]
      omega

end

/-- A value starts with a byte that is neither white space nor a closing bracket. -/
theorem Value.render_head (v : Value) :
    ∃ b t, v.render = b :: t ∧ isWs b = false ∧ b ≠ rbracket ∧ b ≠ rbrace := by
  cases v with
  | prim p =>
      have hall := p.all_primByte
      cases hp : p.bytes with
      | nil => exact absurd hp p.ne_nil
      | cons b t =>
          rw [hp, List.all_cons, Bool.and_eq_true] at hall
          refine ⟨b, t, by rw [Value.render, hp], ?_, ?_, ?_⟩
          · by_contra hws
            rw [Bool.not_eq_false] at hws
            simp only [isWs, Bool.or_eq_true, beq_iff_eq] at hws
            rcases hws with ((rfl | rfl) | rfl) | rfl <;> exact absurd hall.1 (by decide)
          · rintro rfl
            exact absurd hall.1 (by decide)
          · rintro rfl
            exact absurd hall.1 (by decide)
  | str s => exact ⟨_, _, rfl, by decide, by decide, by decide⟩
  | arrNil pad => exact ⟨_, _, rfl, by decide, by decide, by decide⟩
  | arr es => exact ⟨_, _, rfl, by decide, by decide, by decide⟩
  | objNil pad => exact ⟨_, _, rfl, by decide, by decide, by decide⟩
  | obj ms => exact ⟨_, _, rfl, by decide, by decide, by decide⟩

theorem Value.stopsAt_isWs (v : Value) (t : Bytes) : StopsAt isWs (v.render ++ t) := by
  obtain ⟨b, r, hr, hb, -, -⟩ := v.render_head
  rw [hr]
  exact stopsAt_cons hb _

/-- White space followed by a byte that ends a number or a literal name. -/
theorem Ws.stopsAt_isPrimByte (w : Ws) {b : Byte} (hb : isPrimByte b = false) (t : Bytes) :
    StopsAt isPrimByte (w.bytes ++ b :: t) := by
  cases hw : w.bytes with
  | nil => exact stopsAt_cons hb t
  | cons c r =>
      have hc := List.all_eq_true.mp w.ok c (by simp [hw])
      simp only [isWs, Bool.or_eq_true, beq_iff_eq] at hc
      refine stopsAt_cons ?_ _
      rcases hc with ((rfl | rfl) | rfl) | rfl <;> decide

theorem Ws.stopsAt_isPrimByte_end (w : Ws) : StopsAt isPrimByte w.bytes := by
  cases hw : w.bytes with
  | nil => exact stopsAt_nil _
  | cons c r =>
      have hc := List.all_eq_true.mp w.ok c (by simp [hw])
      simp only [isWs, Bool.or_eq_true, beq_iff_eq] at hc
      refine stopsAt_cons ?_ _
      rcases hc with ((rfl | rfl) | rfl) | rfl <;> decide

/-! ### The round trip -/

/-- Array elements do not start with the closing bracket of an empty array. -/
private theorem elems_head (es : Elems) (t : Bytes) :
    ∃ b r, (takeWs (es.render ++ rbracket :: t)).2 = b :: r ∧ b ≠ rbracket := by
  cases es with
  | last pre v post =>
      obtain ⟨b, r, hv, hb, hne, -⟩ := v.render_head
      rw [Elems.render, List.append_assoc, List.append_assoc,
        takeWs_render pre (v.stopsAt_isWs _), hv]
      exact ⟨b, _, rfl, hne⟩
  | more pre v post rest =>
      obtain ⟨b, r, hv, hb, hne, -⟩ := v.render_head
      rw [Elems.render, List.append_assoc, List.append_assoc,
        takeWs_render pre (v.stopsAt_isWs _), hv]
      exact ⟨b, _, rfl, hne⟩

private theorem members_head (ms : Members) (t : Bytes) :
    ∃ b r, (takeWs (ms.render ++ rbrace :: t)).2 = b :: r ∧ b ≠ rbrace := by
  cases ms with
  | last pre key mid pre' v post =>
      rw [Members.render, List.append_assoc, List.cons_append,
        takeWs_render pre (stopsAt_cons (by decide) _)]
      exact ⟨quote, _, rfl, by decide⟩
  | more pre key mid pre' v post rest =>
      rw [Members.render, List.append_assoc, List.cons_append,
        takeWs_render pre (stopsAt_cons (by decide) _)]
      exact ⟨quote, _, rfl, by decide⟩

mutual

theorem parseValue_render : ∀ (v : Value) (n : Nat) (t : Bytes), v.size ≤ n →
    StopsAt isPrimByte t → parseValue n (v.render ++ t) = some (v, t)
  | v, 0, t, hn, _ => by
      cases v <;> simp [Value.size] at hn
  | .prim p, n + 1, t, _, ht => by
      have hp := parsePrim_render p ht
      obtain ⟨b, r, hr, -, -, -⟩ := (Value.prim p).render_head
      have hb : isPrimByte b = true := by
        have hall := p.all_primByte
        rw [Value.render] at hr
        rw [hr, List.all_cons, Bool.and_eq_true] at hall
        exact hall.1
      rw [Value.render] at hr
      rw [Value.render, hr, List.cons_append]
      rw [hr, List.cons_append] at hp
      have hq : b ≠ quote := by rintro rfl; exact absurd hb (by decide)
      have hl : b ≠ lbracket := by rintro rfl; exact absurd hb (by decide)
      have ho : b ≠ lbrace := by rintro rfl; exact absurd hb (by decide)
      simp only [parseValue, if_neg hq, if_neg hl, if_neg ho, hp]
  | .str s, n + 1, t, _, _ => by
      have hs := parseStr_render_self s t
      simp only [Value.render, List.cons_append, List.append_assoc, List.nil_append, parseValue,
        if_true, hs]
  | .arrNil pad, n + 1, t, _, _ => by
      have hw := takeWs_render pad (stopsAt_cons (p := isWs) (b := rbracket) (by decide) t)
      have h1 : lbracket ≠ quote := by decide
      simp only [Value.render, List.cons_append, List.append_assoc, List.nil_append, parseValue,
        if_neg h1, if_true, hw]
  | .arr es, n + 1, t, hn, _ => by
      have h1 : lbracket ≠ quote := by decide
      have hes := parseElems_render es n t (by simp only [Value.size] at hn; omega)
      obtain ⟨b, r, hb, hne⟩ := elems_head es t
      simp only [Value.render, List.cons_append, List.append_assoc, List.nil_append, parseValue,
        if_neg h1, if_true, hb, if_neg hne, hes]
  | .objNil pad, n + 1, t, _, _ => by
      have hw := takeWs_render pad (stopsAt_cons (p := isWs) (b := rbrace) (by decide) t)
      have h1 : lbrace ≠ quote := by decide
      have h2 : lbrace ≠ lbracket := by decide
      simp only [Value.render, List.cons_append, List.append_assoc, List.nil_append, parseValue,
        if_neg h1, if_neg h2, if_true, hw]
  | .obj ms, n + 1, t, hn, _ => by
      have h1 : lbrace ≠ quote := by decide
      have h2 : lbrace ≠ lbracket := by decide
      have hms := parseMembers_render ms n t (by simp only [Value.size] at hn; omega)
      obtain ⟨b, r, hb, hne⟩ := members_head ms t
      simp only [Value.render, List.cons_append, List.append_assoc, List.nil_append, parseValue,
        if_neg h1, if_neg h2, if_true, hb, if_neg hne, hms]

theorem parseElems_render : ∀ (es : Elems) (n : Nat) (t : Bytes), es.size ≤ n →
    parseElems n (es.render ++ rbracket :: t) = some (es, t)
  | es, 0, t, hn => by
      cases es <;> simp [Elems.size] at hn
  | .last pre v post, n + 1, t, hn => by
      have hv := parseValue_render v n (post.bytes ++ rbracket :: t)
        (by simp only [Elems.size] at hn; omega)
        (post.stopsAt_isPrimByte (by decide) t)
      have hw := takeWs_render pre (v.stopsAt_isWs (post.bytes ++ rbracket :: t))
      have hw' := takeWs_render post (stopsAt_cons (p := isWs) (b := rbracket) (by decide) t)
      simp only [Elems.render, List.append_assoc, parseElems, hw, hv, hw', if_true]
  | .more pre v post rest, n + 1, t, hn => by
      have hr := parseElems_render rest n t (by simp only [Elems.size] at hn; omega)
      have hv := parseValue_render v n (post.bytes ++ comma :: (rest.render ++ rbracket :: t))
        (by simp only [Elems.size] at hn; omega)
        (post.stopsAt_isPrimByte (by decide) _)
      have hw := takeWs_render pre
        (v.stopsAt_isWs (post.bytes ++ comma :: (rest.render ++ rbracket :: t)))
      have hw' := takeWs_render post
        (stopsAt_cons (p := isWs) (b := comma) (by decide) (rest.render ++ rbracket :: t))
      have hne : comma ≠ rbracket := by decide
      simp only [Elems.render, List.append_assoc, List.cons_append, parseElems, hw, hv, hw',
        if_neg hne, if_true, hr]

theorem parseMembers_render : ∀ (ms : Members) (n : Nat) (t : Bytes), ms.size ≤ n →
    parseMembers n (ms.render ++ rbrace :: t) = some (ms, t)
  | ms, 0, t, hn => by
      cases ms <;> simp [Members.size] at hn
  | .last pre key mid pre' v post, n + 1, t, hn => by
      have hv := parseValue_render v n (post.bytes ++ rbrace :: t)
        (by simp only [Members.size] at hn; omega)
        (post.stopsAt_isPrimByte (by decide) t)
      have hk := parseStr_render_self key
        (mid.bytes ++ colon :: (pre'.bytes ++ (v.render ++ (post.bytes ++ rbrace :: t))))
      have hw1 := takeWs_render pre (stopsAt_cons (p := isWs) (b := quote) (by decide)
        (key.raw ++ quote :: (mid.bytes ++ colon :: (pre'.bytes ++ (v.render ++
          (post.bytes ++ rbrace :: t))))))
      have hw2 := takeWs_render mid (stopsAt_cons (p := isWs) (b := colon) (by decide)
        (pre'.bytes ++ (v.render ++ (post.bytes ++ rbrace :: t))))
      have hw3 := takeWs_render pre' (v.stopsAt_isWs (post.bytes ++ rbrace :: t))
      have hw4 := takeWs_render post (stopsAt_cons (p := isWs) (b := rbrace) (by decide) t)
      simp only [Members.render, List.append_assoc, List.cons_append, parseMembers, hw1, hk, hw2,
        hw3, hv, hw4, if_true]
  | .more pre key mid pre' v post rest, n + 1, t, hn => by
      have hr := parseMembers_render rest n t (by simp only [Members.size] at hn; omega)
      have hv := parseValue_render v n (post.bytes ++ comma :: (rest.render ++ rbrace :: t))
        (by simp only [Members.size] at hn; omega)
        (post.stopsAt_isPrimByte (by decide) _)
      have hk := parseStr_render_self key
        (mid.bytes ++ colon :: (pre'.bytes ++ (v.render ++
          (post.bytes ++ comma :: (rest.render ++ rbrace :: t)))))
      have hw1 := takeWs_render pre (stopsAt_cons (p := isWs) (b := quote) (by decide)
        (key.raw ++ quote :: (mid.bytes ++ colon :: (pre'.bytes ++ (v.render ++
          (post.bytes ++ comma :: (rest.render ++ rbrace :: t)))))))
      have hw2 := takeWs_render mid (stopsAt_cons (p := isWs) (b := colon) (by decide)
        (pre'.bytes ++ (v.render ++ (post.bytes ++ comma :: (rest.render ++ rbrace :: t)))))
      have hw3 := takeWs_render pre'
        (v.stopsAt_isWs (post.bytes ++ comma :: (rest.render ++ rbrace :: t)))
      have hw4 := takeWs_render post
        (stopsAt_cons (p := isWs) (b := comma) (by decide) (rest.render ++ rbrace :: t))
      have hne : comma ≠ rbrace := by decide
      simp only [Members.render, List.append_assoc, List.cons_append, parseMembers, hw1, hk, hw2,
        hw3, hv, hw4, if_neg hne, if_true, hr]

end

theorem parseDoc_render (d : Doc) : parseDoc d.render = some d := by
  cases d with
  | mk pre v post =>
      have hw := takeWs_render pre (v.stopsAt_isWs post.bytes)
      have hsize := v.size_le_length
      have hv := parseValue_render v ((pre.bytes ++ (v.render ++ post.bytes)).length + 1)
        post.bytes (by simp only [List.length_append]; omega) post.stopsAt_isPrimByte_end
      have hend := takeWs_render post (stopsAt_nil isWs)
      rw [List.append_nil] at hend
      simp only [Doc.render, parseDoc, hw, hv, hend, if_true]

theorem Doc.render_ne_nil (d : Doc) : d.render ≠ [] := by
  intro h
  have hparse := parseDoc_render d
  rw [h] at hparse
  cases hparse

/-- A text is a JSON text with tree `d` exactly when `d` renders to it. -/
theorem parseDoc_eq_some_iff (t : Bytes) (d : Doc) : parseDoc t = some d ↔ d.render = t := by
  constructor
  · exact parseDoc_sound
  · rintro rfl
    exact parseDoc_render d

theorem Doc.render_injective : Function.Injective Doc.render := by
  intro d d' h
  have hd : parseDoc d'.render = some d := (parseDoc_eq_some_iff d'.render d).mpr h
  rw [parseDoc_render] at hd
  exact (Option.some.inj hd).symm

/-- The text of a value without white space around it. -/
def Doc.bare (v : Value) : Doc := ⟨Ws.none, v, Ws.none⟩

@[simp] theorem Doc.render_bare (v : Value) : (Doc.bare v).render = v.render := by
  simp [Doc.bare, Doc.render, Ws.none]

theorem Value.render_injective : Function.Injective Value.render := by
  intro v v' h
  have hd : Doc.bare v = Doc.bare v' := Doc.render_injective (by simpa using h)
  exact congrArg Doc.val hd

end JsonText
