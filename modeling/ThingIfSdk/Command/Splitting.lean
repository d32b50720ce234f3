import ThingIfSdk.Command.Dispatch

/-!
# Splitting an element by its tokens

`prv_kii_thing_if_get_key_and_value_from_json` looks at the first three entries of
its token array, however many of them the parse has written.  `ownTokens_iff` says
for which texts that makes no difference.
-/

namespace ThingIfSdk

open ByteText JsonText

/-- What `jsmn_parse` does with its token array. -/
structure TokensWritten (json : JsonApi) : Prop where
  /-- The number of tokens is a matter of the text. -/
  count : ∀ t stale stale', (json.jsmnParse t stale).1 = (json.jsmnParse t stale').1
  /-- So are the tokens, which fill the front of the array. -/
  front : ∀ t stale stale' (i : Nat), (i : Int) < (json.jsmnParse t stale).1 →
    (json.jsmnParse t stale).2 i = (json.jsmnParse t stale').2 i
  /-- The rest of the array stays as it was. -/
  rest : ∀ t stale (i : Nat), 0 ≤ (json.jsmnParse t stale).1 →
    (json.jsmnParse t stale).1 ≤ i → (json.jsmnParse t stale).2 i = stale i
  /-- The tokens lie in the text. -/
  inside : ∀ t stale (i : Nat), (i : Int) < (json.jsmnParse t stale).1 →
    0 ≤ ((json.jsmnParse t stale).2 i).start ∧
      ((json.jsmnParse t stale).2 i).start ≤ ((json.jsmnParse t stale).2 i).stop ∧
      ((json.jsmnParse t stale).2 i).stop ≤ t.length
  /-- They come in document order, and none lies in a string. -/
  apart : ∀ t stale (i j : Nat), i < j → (j : Int) < (json.jsmnParse t stale).1 →
    ((json.jsmnParse t stale).2 i).kind = .string →
    ((json.jsmnParse t stale).2 i).stop ≤ ((json.jsmnParse t stale).2 j).start

/-- The key and the value of two tokens of a text that starts at `base`. -/
def KeyValue.ofTokens (base : Int) (key value : Token) : KeyValue :=
  { key := base + key.start
    keyLen := key.stop - key.start
    value := base + value.start
    valueLen := value.stop - value.start }

/-- A key and a value in a text, with a byte behind each. -/
structure KeyValue.Within (kv : KeyValue) (base : Int) (len : Nat) : Prop where
  key_start : base ≤ kv.key
  key_len : 0 ≤ kv.keyLen
  ordered : kv.key + kv.keyLen ≤ kv.value
  value_len : 0 ≤ kv.valueLen
  value_end : kv.value + kv.valueLen < base + len

/-- Splitting the text uses the tokens of the text and no others. -/
structure OwnTokens (json : JsonApi) (text : Bytes) : Prop where
  /-- The answer does not depend on what the token array held before. -/
  independent : ∀ base stale stale',
    prvKiiThingIfGetKeyAndValueFromJson json text base stale =
      prvKiiThingIfGetKeyAndValueFromJson json text base stale'
  /-- The two spans are those of tokens that this parse wrote. -/
  own : ∀ base stale kv, prvKiiThingIfGetKeyAndValueFromJson json text base stale = some kv →
    ∃ i j : Nat, (i : Int) < (json.jsmnParse text stale).1 ∧
      (j : Int) < (json.jsmnParse text stale).1 ∧
      kv = .ofTokens base ((json.jsmnParse text stale).2 i) ((json.jsmnParse text stale).2 j)
  within : ∀ base stale kv, prvKiiThingIfGetKeyAndValueFromJson json text base stale = some kv →
    kv.Within base text.length
  /-- The bytes that `handle_command` overwrites with NULs lie in the message. -/
  nuls : ∀ message base stale kv, slice? message base text.length = some text →
    prvKiiThingIfGetKeyAndValueFromJson json text base stale = some kv →
    (peek? message (kv.key + kv.keyLen)).isSome ∧ (peek? message (kv.value + kv.valueLen)).isSome

def noToken : Token := ⟨.undefined, 0, 0⟩

/-- The text does not parse, or one of its first two tokens already rules it out,
or it has a third token, which ends before the text does. -/
def TokensSuffice (json : JsonApi) (text : Bytes) : Prop :=
  let r := json.jsmnParse text fun _ => noToken
  r.1 < 0 ∨ (1 ≤ r.1 ∧ (r.2 0).kind ≠ .object) ∨ (2 ≤ r.1 ∧ (r.2 1).kind ≠ .string) ∨
    (3 ≤ r.1 ∧ (r.2 2).stop < text.length)

/-! ## Splitting -/

section

variable {json : JsonApi} {text : Bytes} {stale : Nat → Token}

/-- A text is split when its first two entries of the token array look right. -/
theorem split_eq_some_iff (base : Int) (kv : KeyValue) :
    prvKiiThingIfGetKeyAndValueFromJson json text base stale = some kv ↔
      0 ≤ (json.jsmnParse text stale).1 ∧
        ((json.jsmnParse text stale).2 0).kind = .object ∧
        ((json.jsmnParse text stale).2 1).kind = .string ∧
        kv = .ofTokens base ((json.jsmnParse text stale).2 1)
          ((json.jsmnParse text stale).2 2) := by
  unfold prvKiiThingIfGetKeyAndValueFromJson
  simp only
  by_cases hcount : 0 ≤ (json.jsmnParse text stale).1
  · rw [if_pos hcount]
    by_cases hobject : ((json.jsmnParse text stale).2 0).kind = .object
    · rw [if_neg (not_not.mpr hobject)]
      by_cases hstring : ((json.jsmnParse text stale).2 1).kind = .string
      · rw [if_neg (not_not.mpr hstring), Option.some.injEq]
        exact ⟨fun h => ⟨hcount, hobject, hstring, h.symm⟩, fun h => h.2.2.2.symm⟩
      · rw [if_pos hstring]
        exact ⟨nofun, fun h => absurd h.2.2.1 hstring⟩
    · rw [if_pos hobject]
      exact ⟨nofun, fun h => absurd h.2.1 hobject⟩
  · rw [if_neg hcount]
    exact ⟨nofun, fun h => absurd h.1 hcount⟩

theorem split_eq_none {base : Int}
    (h : 0 ≤ (json.jsmnParse text stale).1 → ((json.jsmnParse text stale).2 0).kind = .object →
      ((json.jsmnParse text stale).2 1).kind ≠ .string) :
    prvKiiThingIfGetKeyAndValueFromJson json text base stale = none := by
  rw [Option.eq_none_iff_forall_ne_some]
  intro kv hkv
  rw [split_eq_some_iff] at hkv
  exact h hkv.1 hkv.2.1 hkv.2.2.1

/-- A text that is never split is settled. -/
theorem ownTokens_of_none (h : ∀ base stale,
    prvKiiThingIfGetKeyAndValueFromJson json text base stale = none) : OwnTokens json text where
  independent base stale stale' := by rw [h base stale, h base stale']
  own base stale kv hkv := by rw [h base stale] at hkv; cases hkv
  within base stale kv hkv := by rw [h base stale] at hkv; cases hkv
  nuls message base stale kv _ hkv := by rw [h base stale] at hkv; cases hkv

/-- The two bytes behind a key and a value inside a slice lie in the message. -/
theorem KeyValue.Within.nuls {kv : KeyValue} {base : Int} {len : Nat} (h : kv.Within base len)
    {message item : Bytes} (hslice : slice? message base len = some item) :
    (peek? message (kv.key + kv.keyLen)).isSome ∧
      (peek? message (kv.value + kv.valueLen)).isSome := by
  obtain ⟨hstart, hlen, hordered, hvalue, hend⟩ := h
  unfold slice? at hslice
  split at hslice
  · rename_i hin
    constructor
    · unfold peek?
      rw [if_pos (by omega), isSome_getElem?]
      omega
    · unfold peek?
      rw [if_pos (by omega), isSome_getElem?]
      omega
  · cases hslice

/-- One entry of the token array that the parse did not write decides. -/
theorem not_independent {stale' : Nat → Token} {kv : KeyValue}
    (hsome : prvKiiThingIfGetKeyAndValueFromJson json text 0 stale = some kv)
    (hother : prvKiiThingIfGetKeyAndValueFromJson json text 0 stale' ≠ some kv) :
    ¬ OwnTokens json text := by
  intro h
  rw [h.independent 0 stale stale'] at hsome
  exact hother hsome

/-- A third token that reaches to the end of the text leaves no byte for the NUL. -/
theorem not_ownTokens_of_end (hthree : 3 ≤ (json.jsmnParse text fun _ => noToken).1)
    (hstop : (text.length : Int) ≤ ((json.jsmnParse text fun _ => noToken).2 2).stop)
    (hobject : ((json.jsmnParse text fun _ => noToken).2 0).kind = .object)
    (hstring : ((json.jsmnParse text fun _ => noToken).2 1).kind = .string) :
    ¬ OwnTokens json text := by
  intro h
  have hsplit : prvKiiThingIfGetKeyAndValueFromJson json text 0 (fun _ => noToken) =
      some (.ofTokens 0 ((json.jsmnParse text fun _ => noToken).2 1)
        ((json.jsmnParse text fun _ => noToken).2 2)) :=
    (split_eq_some_iff 0 _).mpr ⟨by omega, hobject, hstring, rfl⟩
  have hend := (h.within 0 _ _ hsplit).value_end
  simp only [KeyValue.ofTokens] at hend
  omega

end

/-! ## Texts with enough tokens -/

section

variable {json : JsonApi} (hjson : TokensWritten json) {text : Bytes}
include hjson

/-- With three tokens of its own, a text is split by them. -/
theorem ownTokens_of_three
    (hthree : 3 ≤ (json.jsmnParse text fun _ => noToken).1)
    (hstop : ((json.jsmnParse text fun _ => noToken).2 2).stop < text.length) :
    OwnTokens json text := by
  have hcount : ∀ stale, 3 ≤ (json.jsmnParse text stale).1 := by
    intro stale
    rw [hjson.count text stale fun _ => noToken]
    exact hthree
  have hfront : ∀ stale (i : Nat), i < 3 → (json.jsmnParse text stale).2 i =
      (json.jsmnParse text fun _ => noToken).2 i := by
    intro stale i hi
    have := hcount stale
    exact hjson.front text stale _ i (by omega)
  have hwithin : ∀ base stale kv,
      prvKiiThingIfGetKeyAndValueFromJson json text base stale = some kv →
      kv.Within base text.length := by
    intro base stale kv hkv
    rw [split_eq_some_iff] at hkv
    obtain ⟨-, -, hstring, rfl⟩ := hkv
    have hthree' := hcount stale
    have hkey := hjson.inside text stale 1 (by omega)
    have hvalue := hjson.inside text stale 2 (by omega)
    have hapart := hjson.apart text stale 1 2 (by omega) (by omega) hstring
    have hend : ((json.jsmnParse text stale).2 2).stop < text.length := by
      rw [hfront stale 2 (by omega)]
      exact hstop
    constructor <;> simp only [KeyValue.ofTokens] <;> omega
  constructor
  · intro base stale stale'
    ext kv
    rw [split_eq_some_iff, split_eq_some_iff, hjson.count text stale stale',
      hfront stale 0 (by omega), hfront stale 1 (by omega), hfront stale 2 (by omega),
      hfront stale' 0 (by omega), hfront stale' 1 (by omega), hfront stale' 2 (by omega)]
  · intro base stale kv hkv
    rw [split_eq_some_iff] at hkv
    have hthree' := hcount stale
    exact ⟨1, 2, by omega, by omega, hkv.2.2.2⟩
  · exact hwithin
  · intro message base stale kv hslice hkv
    exact (hwithin base stale kv hkv).nuls hslice

/-- A text of fewer than three tokens that its own tokens do not rule out. -/
theorem not_ownTokens_of_few (hpos : 0 ≤ (json.jsmnParse text fun _ => noToken).1)
    (hfew : (json.jsmnParse text fun _ => noToken).1 < 3)
    (hobject : 1 ≤ (json.jsmnParse text fun _ => noToken).1 →
      ((json.jsmnParse text fun _ => noToken).2 0).kind = .object)
    (hstring : 2 ≤ (json.jsmnParse text fun _ => noToken).1 →
      ((json.jsmnParse text fun _ => noToken).2 1).kind = .string) :
    ¬ OwnTokens json text := by
  -- two leftover arrays that look like an object with a key, with different values
  let left (n : Int) : Nat → Token := fun i =>
    if i = 0 then ⟨.object, 0, 0⟩ else if i = 1 then ⟨.string, 0, 0⟩ else ⟨.primitive, n, n⟩
  have hcount : ∀ n, (json.jsmnParse text (left n)).1 =
      (json.jsmnParse text fun _ => noToken).1 := fun n => hjson.count text _ _
  have hzero : ∀ n, ((json.jsmnParse text (left n)).2 0).kind = .object := by
    intro n
    by_cases h : 1 ≤ (json.jsmnParse text fun _ => noToken).1
    · rw [hjson.front text (left n) (fun _ => noToken) 0 (by rw [hcount]; omega)]
      exact hobject h
    · rw [hjson.rest text (left n) 0 (by rw [hcount]; omega) (by rw [hcount]; omega)]
      rfl
  have hone : ∀ n, ((json.jsmnParse text (left n)).2 1).kind = .string := by
    intro n
    by_cases h : 2 ≤ (json.jsmnParse text fun _ => noToken).1
    · rw [hjson.front text (left n) (fun _ => noToken) 1 (by rw [hcount]; omega)]
      exact hstring h
    · rw [hjson.rest text (left n) 1 (by rw [hcount]; omega) (by rw [hcount]; omega)]
      rfl
  have htwo : ∀ n, (json.jsmnParse text (left n)).2 2 = ⟨.primitive, n, n⟩ := by
    intro n
    exact hjson.rest text (left n) 2 (by rw [hcount]; omega) (by rw [hcount]; omega)
  have hsplit : ∀ n, prvKiiThingIfGetKeyAndValueFromJson json text 0 (left n) =
      some (.ofTokens 0 ((json.jsmnParse text (left n)).2 1) ⟨.primitive, n, n⟩) := by
    intro n
    rw [split_eq_some_iff]
    exact ⟨by rw [hcount]; exact hpos, hzero n, hone n, by rw [htwo]⟩
  have hother : prvKiiThingIfGetKeyAndValueFromJson json text 0 (left 1) ≠
      some (.ofTokens 0 ((json.jsmnParse text (left 0)).2 1) ⟨.primitive, 0, 0⟩) := by
    rw [hsplit 1]
    intro heq
    have hvalue : (0 : Int) + 1 = 0 + 0 := congrArg KeyValue.value (Option.some.inj heq)
    cases hvalue
  exact not_independent (hsplit 0) hother

/-- A text is split by its own tokens exactly when they suffice. -/
theorem ownTokens_iff_suffice : OwnTokens json text ↔ TokensSuffice json text := by
  have hcount : ∀ stale, (json.jsmnParse text stale).1 =
      (json.jsmnParse text fun _ => noToken).1 := fun stale => hjson.count text _ _
  by_cases hneg : (json.jsmnParse text fun _ => noToken).1 < 0
  · refine iff_of_true (ownTokens_of_none fun base stale => split_eq_none fun hpos => ?_)
      (.inl hneg)
    rw [hcount] at hpos
    omega
  by_cases hobject : 1 ≤ (json.jsmnParse text fun _ => noToken).1 ∧
      ((json.jsmnParse text fun _ => noToken).2 0).kind ≠ .object
  · refine iff_of_true (ownTokens_of_none fun base stale => split_eq_none fun _ h => ?_)
      (.inr (.inl hobject))
    rw [hjson.front text stale (fun _ => noToken) 0 (by rw [hcount]; omega)] at h
    exact absurd h hobject.2
  by_cases hstring : 2 ≤ (json.jsmnParse text fun _ => noToken).1 ∧
      ((json.jsmnParse text fun _ => noToken).2 1).kind ≠ .string
  · refine iff_of_true (ownTokens_of_none fun base stale => split_eq_none fun _ _ => ?_)
      (.inr (.inr (.inl hstring)))
    rw [hjson.front text stale (fun _ => noToken) 1 (by rw [hcount]; omega)]
    exact hstring.2
  by_cases hthree : 3 ≤ (json.jsmnParse text fun _ => noToken).1 ∧
      ((json.jsmnParse text fun _ => noToken).2 2).stop < text.length
  · exact iff_of_true (ownTokens_of_three hjson hthree.1 hthree.2) (.inr (.inr (.inr hthree)))
  refine iff_of_false ?_ ?_
  · rw [not_and, not_not] at hobject hstring
    by_cases hfew : (json.jsmnParse text fun _ => noToken).1 < 3
    · exact not_ownTokens_of_few hjson (by omega) hfew hobject hstring
    · rw [not_and] at hthree
      have hend := hthree (by omega)
      exact not_ownTokens_of_end (by omega) (by omega) (hobject (by omega)) (hstring (by omega))
  · rintro (h | h | h | h)
    · exact hneg h
    · exact hobject h
    · exact hstring h
    · exact hthree h

end

/-- For every text: its elements are split by the tokens of its own parse, inside
the text and whatever the token array held, exactly when these suffice. -/
theorem ownTokens_iff {json : JsonApi} (hjson : TokensWritten json) (text : Bytes) :
    OwnTokens json text ↔ TokensSuffice json text :=
  ownTokens_iff_suffice hjson

/-! ## On the reference parser -/

theorem referenceJson_tokensWritten (budget : Nat) : TokensWritten (referenceJson budget) := by
  -- A text is refused, or its tokens stand in front of what the array held.
  have hcases : ∀ t, (∃ r : Int, r < 0 ∧ ∀ stale, referenceParse budget t stale = (r, stale)) ∨
      ∃ l : List Token, (∃ lo, Token.Laid lo t.length l) ∧ ∀ stale, referenceParse budget t stale =
        ((l.length : Int), fun i => (l[i]?).getD (stale i)) := by
    intro t
    unfold referenceParse
    cases hparse : parseDoc t with
    | none => exact .inl ⟨-2, by omega, fun _ => rfl⟩
    | some d =>
        by_cases hbudget : budget < d.val.tokenCount
        · exact .inl ⟨-1, by omega, fun _ => if_pos hbudget⟩
        · refine .inr ⟨d.val.tokens d.pre.bytes.length, ⟨d.pre.bytes.length, ?_⟩, fun stale => ?_⟩
          · have hrender := parseDoc_sound hparse
            refine (d.val.tokens_laid d.pre.bytes.length).mono (Nat.le_refl _) ?_
            rw [← hrender]
            unfold Doc.render
            simp only [List.length_append]
            omega
          · simp only [if_neg hbudget, Value.length_tokens]
  have hget : ∀ (l : List Token) (i : Nat), (i : Int) < l.length → ∃ h : i < l.length,
      ∀ stale, (l[i]?).getD stale = l[i] := by
    intro l i hi
    have h : i < l.length := by omega
    exact ⟨h, fun stale => by rw [List.getElem?_eq_getElem h, Option.getD_some]⟩
  constructor
  · intro t stale stale'
    rcases hcases t with ⟨r, -, hr⟩ | ⟨l, -, hl⟩
    · simp only [referenceJson, hr]
    · simp only [referenceJson, hl]
  · intro t stale stale' i hi
    rcases hcases t with ⟨r, hneg, hr⟩ | ⟨l, -, hl⟩
    · simp only [referenceJson, hr] at hi
      omega
    · simp only [referenceJson, hl] at hi ⊢
      obtain ⟨h, heq⟩ := hget l i hi
      rw [heq, heq]
  · intro t stale i hpos hle
    rcases hcases t with ⟨r, hneg, hr⟩ | ⟨l, -, hl⟩
    · simp only [referenceJson, hr] at hpos
      omega
    · simp only [referenceJson, hl] at hle ⊢
      rw [List.getElem?_eq_none (by omega)]
      rfl
  · intro t stale i hi
    rcases hcases t with ⟨r, hneg, hr⟩ | ⟨l, ⟨lo, hlaid⟩, hl⟩
    · simp only [referenceJson, hr] at hi
      omega
    · simp only [referenceJson, hl] at hi ⊢
      obtain ⟨h, heq⟩ := hget l i hi
      rw [heq]
      have := hlaid.inside l[i] (List.getElem_mem h)
      omega
  · intro t stale i j hij hj
    rcases hcases t with ⟨r, hneg, hr⟩ | ⟨l, ⟨lo, hlaid⟩, hl⟩
    · simp only [referenceJson, hr] at hj
      omega
    · simp only [referenceJson, hl] at hj ⊢
      obtain ⟨h, heq⟩ := hget l j hj
      obtain ⟨h', heq'⟩ := hget l i (by omega)
      rw [heq, heq']
      exact fun hkind => Int.le_of_lt (List.pairwise_iff_getElem.mp hlaid.apart i j h' h hij hkind)

theorem lampAlias_ownTokens_iff :
    TokensWritten (referenceJson 64) ∧
      (OwnTokens (referenceJson 64) lampAlias.render ↔
        TokensSuffice (referenceJson 64) lampAlias.render) :=
  ⟨referenceJson_tokensWritten 64,
    ownTokens_iff (referenceJson_tokensWritten 64) lampAlias.render⟩

/-- The empty object is split by whatever the token array held. -/
theorem emptyObject_not_ownTokens :
    ¬ OwnTokens (referenceJson 64) (Value.objNil .none).render := by
  have hparse : (referenceJson 64).jsmnParse (Value.objNil .none).render (fun _ => noToken) =
      (1, fun i => ([Value.token 0 (.objNil .none)][i]?).getD noToken) := by
    simp only [referenceJson, referenceParse, parseDoc_value]
    rfl
  apply not_ownTokens_of_few (referenceJson_tokensWritten 64)
  · rw [hparse]
    exact Int.one_nonneg
  · rw [hparse]
    show (1 : Int) < 3
    omega
  · intro _
    rw [hparse]
    rfl
  · intro htwo
    rw [hparse] at htwo
    have : (2 : Int) ≤ 1 := htwo
    omega

end ThingIfSdk
