import ThingIfSdk.Command.Rounds
import ThingIfSdk.Command.Tokens

/-!
# The objects that the calls split

A call of `get_key_and_value_at_index` succeeds only at an index that leads to an
object.  Where the tokens of that object suffice, the call finds its key and its value,
all in the text; where they do not, what is found stands in the token array from before.
-/

namespace ThingIfSdk

open ByteText JsonText

variable {σ δ : Type}

/-- The number of elements of the array in a text, by its tokens. -/
def elementCount (json : JsonApi) (t : Bytes) : Nat :=
  countElements (textTokens json t)

/-! ## The call that splits an object -/

/-- The answer of a call, by what its item was split into. -/
def answerOfSplit : Option KeyValue → GetKeyAndValue
  | none => .fail
  | some kv => .success kv

/-- Where the item of a call starts in the message. -/
def itemBase (json : JsonApi) (arrayStr : Int) (array : Bytes) (k : Nat) : Int :=
  arrayStr + (objectToken json array k).start

/-- The item of a call is the object that the index leads to, and the answer is what
it is split into. -/
structure SplitObject (json : JsonApi) (buffer : Bytes) (arrayStr arrayLen : Int) (k : Nat)
    (array item : Bytes) (inner : List Token) : Prop where
  array_eq : slice? buffer arrayStr arrayLen = some array
  found : (json.kiiJsonReadObject array [indexField k]).1 = .success
  object : ObjectAt json array k item inner
  item_eq : slice? buffer (itemBase json arrayStr array k) item.length = some item
  answer : ∀ stale, getKeyAndValueAtIndex json buffer arrayStr arrayLen k stale =
    some (answerOfSplit (prvKiiThingIfGetKeyAndValueFromJson json item
      (itemBase json arrayStr array k) stale))

section

variable {json : JsonApi} {budget : Nat} (htree : TokenTree json budget)
  (hfields : FieldsByTokens json) {buffer : Bytes} {aliasIndex : Option Nat}
  {arrayStr arrayLen : Int} {k : Nat}

/-- The item lies behind the start of its array. -/
theorem SplitObject.behind {array item : Bytes} {inner : List Token}
    (h : SplitObject json buffer arrayStr arrayLen k array item inner) :
    0 ≤ arrayStr ∧ arrayStr ≤ itemBase json arrayStr array k := by
  obtain ⟨h0, -, -⟩ := slice?_bounds h.array_eq
  obtain ⟨hstart, -, -⟩ := slice?_bounds h.object.span
  unfold itemBase
  omega

include htree hfields in
theorem splitObject_of_found (aliasIndex : Option Nat) {array : Bytes}
    (harray : slice? buffer arrayStr arrayLen = some array)
    (hfound : (json.kiiJsonReadObject array [indexField k]).1 = .success) :
    ∃ item inner, SplitObject json buffer arrayStr arrayLen k array item inner ∧
      (readCall json buffer aliasIndex arrayStr arrayLen k).item = some item := by
  obtain ⟨item, inner, hobject⟩ := object_of_success htree hfields hfound
  have hslice := slice?_slice? harray hobject.span
  have hlen := (slice?_bounds hobject.span).2.1
  -- the item as the source computes it
  have hitem : slice? buffer
      (arrayStr + (((json.kiiJsonReadObject array [indexField k]).2 0).start : Int))
      ((((json.kiiJsonReadObject array [indexField k]).2 0).stop : Int) -
        (((json.kiiJsonReadObject array [indexField k]).2 0).start : Int)) = some item := hslice
  refine ⟨item, inner, ⟨harray, hfound, hobject, ?_, fun stale => ?_⟩, ?_⟩
  · rw [hlen]
    exact hslice
  · unfold getKeyAndValueAtIndex
    simp only [harray, hfound, hitem]
    show (match prvKiiThingIfGetKeyAndValueFromJson json item
        (itemBase json arrayStr array k) stale with
      | none => some GetKeyAndValue.fail
      | some kv => some (GetKeyAndValue.success kv)) = _
    cases prvKiiThingIfGetKeyAndValueFromJson json item (itemBase json arrayStr array k) stale with
    | none => rfl
    | some kv => rfl
  · unfold readCall
    simp only [harray, Option.bind_some, hfound, if_true, hitem]

include htree hfields in
theorem splitObject_of_item {item : Bytes}
    (h : (readCall json buffer aliasIndex arrayStr arrayLen k).item = some item) :
    ∃ array inner, SplitObject json buffer arrayStr arrayLen k array item inner := by
  have hread := h
  unfold readCall at hread
  simp only at hread
  cases harray : slice? buffer arrayStr arrayLen with
  | none =>
      rw [harray] at hread
      cases hread
  | some array =>
      rw [harray, Option.bind_some] at hread
      split at hread
      · rename_i hfound
        obtain ⟨item', inner, hsplit, hitem'⟩ :=
          splitObject_of_found htree hfields aliasIndex harray hfound
        rw [h] at hitem'
        cases hitem'
        exact ⟨array, inner, hsplit⟩
      · cases hread

include htree in
/-- What an object is split into, by its second and third token or what stands in their
place. -/
theorem SplitObject.success_iff {array item : Bytes} {inner : List Token}
    (h : SplitObject json buffer arrayStr arrayLen k array item inner) {stale : Nat → Token}
    {kv : KeyValue} :
    getKeyAndValueAtIndex json buffer arrayStr arrayLen k stale = some (.success kv) ↔
      ((inner[0]?).getD (stale 1)).kind = .string ∧
        kv = .ofTokens (itemBase json arrayStr array k) ((inner[0]?).getD (stale 1))
          ((inner[1]?).getD (stale 2)) := by
  rw [h.answer, h.object.tokens.split_eq htree.toTokensWritten]
  split
  · rename_i hkind
    rw [answerOfSplit, Option.some.injEq, GetKeyAndValue.success.injEq]
    exact ⟨fun heq => ⟨hkind, heq.symm⟩, fun hand => hand.2.symm⟩
  · rename_i hkind
    exact ⟨nofun, fun hand => absurd hand.1 hkind⟩

include htree in
/-- With the name of its key terminated, the text of the value is what it was. -/
theorem SplitObject.value_text {array item : Bytes} {key value : Token} {rest : List Token}
    (h : SplitObject json buffer arrayStr arrayLen k array item (key :: value :: rest))
    (hkind : key.kind = .string) :
    let kv := KeyValue.ofTokens (itemBase json arrayStr array k) key value
    ∃ t, spanOf item value = some t ∧
      slice? (poke buffer (kv.key + kv.keyLen) 0) kv.value kv.valueLen = some t := by
  have htokens := h.object.tokens.tokens_eq
  have hmem : value ∈ textTokens json item := by
    rw [htokens]
    exact List.mem_cons_of_mem _ (List.mem_cons_of_mem _ List.mem_cons_self)
  obtain ⟨t, ht, -⟩ := span_isSome htree hmem
  -- the value lies behind the closing quote of the key
  have hquoted := htree.quoted item
  rw [htokens] at hquoted
  have hbehind : key.stop < value.start :=
    (List.pairwise_cons.mp (List.pairwise_cons.mp hquoted).2).1 value List.mem_cons_self hkind
  refine ⟨t, ht, slice?_poke (slice?_slice? h.item_eq ht) (.inl ?_) 0⟩
  simp only [KeyValue.ofTokens]
  omega

/-- A success is the split of an object. -/
theorem found_of_success {stale : Nat → Token} {kv : KeyValue}
    (h : getKeyAndValueAtIndex json buffer arrayStr arrayLen k stale = some (.success kv)) :
    ∃ array, slice? buffer arrayStr arrayLen = some array ∧
      (json.kiiJsonReadObject array [indexField k]).1 = .success := by
  unfold getKeyAndValueAtIndex at h
  cases harray : slice? buffer arrayStr arrayLen with
  | none =>
      simp only [harray] at h
      cases h
  | some array =>
      simp only [harray] at h
      cases hread : (json.kiiJsonReadObject array [indexField k]).1 with
      | success => exact ⟨array, rfl, hread⟩
      | partialSuccess | rootTypeError | invalidInput =>
          simp only [hread] at h
          cases h

/-- Where nothing is found the answer does not depend on what the token array held. -/
theorem answer_of_not_found {array : Bytes} (harray : slice? buffer arrayStr arrayLen = some array)
    (hfound : (json.kiiJsonReadObject array [indexField k]).1 ≠ .success) :
    ∃ answer, answer ≠ none ∧
      ∀ stale, getKeyAndValueAtIndex json buffer arrayStr arrayLen k stale = answer := by
  unfold getKeyAndValueAtIndex
  simp only [harray]
  cases hread : (json.kiiJsonReadObject array [indexField k]).1 with
  | success => exact absurd hread hfound
  | partialSuccess => exact ⟨_, Option.some_ne_none _, fun _ => rfl⟩
  | rootTypeError | invalidInput => exact ⟨_, Option.some_ne_none _, fun _ => rfl⟩

/-! ## Regular calls -/

/-- The call reads a text of the message, and the tokens of what it splits suffice. -/
structure ReadCall.IsRegular (json : JsonApi) (c : ReadCall) : Prop where
  inside : c.array ≠ none
  suffice : ∀ item, c.item = some item → TokensSuffice json item

include htree hfields in
/-- The answer of a regular call: there is one, and it does not depend on what the token
array held. -/
theorem answer_of_regular
    (h : (readCall json buffer aliasIndex arrayStr arrayLen k).IsRegular json) :
    ∃ answer, answer ≠ none ∧
      ∀ stale, getKeyAndValueAtIndex json buffer arrayStr arrayLen k stale = answer := by
  obtain ⟨array, harray⟩ := Option.ne_none_iff_exists'.mp h.inside
  have harray' : slice? buffer arrayStr arrayLen = some array := harray
  by_cases hfound : (json.kiiJsonReadObject array [indexField k]).1 = .success
  · obtain ⟨item, inner, hsplit, hitem⟩ :=
      splitObject_of_found htree hfields aliasIndex harray' hfound
    have hown := (ownTokens_iff_suffice htree.toTokensWritten).mpr (h.suffice item hitem)
    refine ⟨some (answerOfSplit (prvKiiThingIfGetKeyAndValueFromJson json item
      (itemBase json arrayStr array k) fun _ => noToken)), Option.some_ne_none _, fun stale => ?_⟩
    rw [hsplit.answer, hown.independent _ stale fun _ => noToken]
  · exact answer_of_not_found harray' hfound

/-- The tokens of the key and of the value that a regular call finds. -/
structure SplitMember (json : JsonApi) (buffer : Bytes) (arrayStr arrayLen : Int) (k : Nat)
    (kv : KeyValue) (array item : Bytes) (key value : Token) (rest : List Token) : Prop where
  split : SplitObject json buffer arrayStr arrayLen k array item (key :: value :: rest)
  isKey : key.kind = .string
  kv_eq : kv = .ofTokens (itemBase json arrayStr array k) key value
  within : kv.Within (itemBase json arrayStr array k) item.length

include htree hfields in
/-- A regular call that succeeds finds a key and a value among the tokens of the object. -/
theorem splitMember_of_regular
    (hregular : (readCall json buffer aliasIndex arrayStr arrayLen k).IsRegular json)
    {stale : Nat → Token} {kv : KeyValue}
    (h : getKeyAndValueAtIndex json buffer arrayStr arrayLen k stale = some (.success kv)) :
    ∃ array item key value rest,
      SplitMember json buffer arrayStr arrayLen k kv array item key value rest ∧
      (readCall json buffer aliasIndex arrayStr arrayLen k).item = some item := by
  obtain ⟨array, harray, hfound⟩ := found_of_success h
  obtain ⟨item, inner, hsplit, hitem⟩ :=
    splitObject_of_found htree hfields aliasIndex harray hfound
  have hsuffice := hregular.suffice item hitem
  have hdecisive := (hsplit.object.tokens.suffice_iff htree.toTokensWritten).mp hsuffice
  have hsuccess := (hsplit.success_iff htree).mp h
  -- no token, and a key without a value, are not decisive
  match inner, hdecisive, hsplit, hsuccess with
  | [], hdecisive, _, _ =>
      rcases hdecisive with ⟨key, hkey, -⟩ | hlen
      · cases hkey
      · cases hlen
  | [key], hdecisive, _, ⟨hkind, _⟩ =>
      rcases hdecisive with ⟨key', hkey, hnot⟩ | hlen
      · cases hkey
        exact absurd hkind hnot
      · exact absurd hlen (by simp)
  | key :: value :: rest, _, hsplit, ⟨hkind, hkv⟩ =>
      have hown := (ownTokens_iff_suffice htree.toTokensWritten).mpr hsuffice
      have hcode : prvKiiThingIfGetKeyAndValueFromJson json item (itemBase json arrayStr array k)
          stale = some kv := by
        rw [hsplit.object.tokens.split_eq htree.toTokensWritten, if_pos hkind, hkv]
      exact ⟨array, item, key, value, rest,
        ⟨hsplit, hkind, hkv, hown.within _ _ _ hcode⟩, hitem⟩

/-! ## What a member is in the message -/

namespace SplitMember

variable {kv : KeyValue} {array item : Bytes} {key value : Token} {rest : List Token}
  (h : SplitMember json buffer arrayStr arrayLen k kv array item key value rest)
include h

/-- The two bytes that are overwritten with NULs lie in the message. -/
theorem nuls : (peek? buffer (kv.key + kv.keyLen)).isSome ∧
    (peek? buffer (kv.value + kv.valueLen)).isSome :=
  h.within.nuls h.split.item_eq

/-- The strings that the handler is given, behind the name of an alias. -/
theorem actionTexts_ne_none {aliasName : Int} (h0 : 0 ≤ aliasName) (hle : aliasName ≤ arrayStr) :
    actionTexts buffer aliasName kv ≠ none := by
  obtain ⟨hname, hvalue⟩ := h.nuls
  obtain ⟨-, hbase⟩ := h.split.behind
  obtain ⟨hkey, hkeyLen, horder, hvalueLen, -⟩ := h.within
  have hagain := peek?_poke_isSome hvalue (kv.key + kv.keyLen) 0
  -- each of the three strings ends at the last NUL at the latest
  have htext : ∀ off, 0 ≤ off → off ≤ kv.value + kv.valueLen →
      ∃ t, cstrAt? (poke (poke buffer (kv.key + kv.keyLen) 0) (kv.value + kv.valueLen) 0) off =
        some t := fun off hoff hend =>
    Option.isSome_iff_exists.mp (cstrAt?_poke_isSome hagain hoff hend)
  obtain ⟨a, ha⟩ := htext aliasName h0 (by omega)
  obtain ⟨n, hn⟩ := htext kv.key (by omega) (by omega)
  obtain ⟨v, hv⟩ := htext kv.value (by omega) (by omega)
  obtain ⟨b, hb⟩ := Option.isSome_iff_exists.mp hname
  obtain ⟨c, hc⟩ := Option.isSome_iff_exists.mp hvalue
  unfold actionTexts
  simp only [hb, hc, ha, hn, hv]
  exact Option.some_ne_none _

end SplitMember

end

end ThingIfSdk
