import ThingIfSdk.Command.Parsers
import ThingIfSdk.Lib.JsonValue

/-!
# A submodule that meets the specifications

`referenceJson` answers from the tree of the text and `referenceApi` counts the
room in the request buffer.  They show that `JsonSpec` and `FixedBuffer` can be
met, and give the statements about commands something to run on.
-/

namespace ThingIfSdk

open ByteText JsonText

/-! ## Index paths -/

/-- Different indices have different paths. -/
theorem indexStr_injective : Function.Injective indexStr := by
  intro i j h
  have hbytes : (Nat.toDigits 10 i).map (fun c => c.toNat.toUInt8) =
      (Nat.toDigits 10 j).map (fun c => c.toNat.toUInt8) := by
    unfold indexStr at h
    exact List.append_cancel_right (List.append_cancel_left h)
  -- a digit is read back from its byte
  have hback : ∀ n, ((Nat.toDigits 10 n).map (fun c => c.toNat.toUInt8)).map
      (fun b => Char.ofNat b.toNat) = Nat.toDigits 10 n := by
    intro n
    rw [List.map_map]
    conv_rhs => rw [← List.map_id (Nat.toDigits 10 n)]
    apply List.map_congr_left
    intro c hc
    have hdigit := Nat.isDigit_of_mem_toDigits (by omega) (by omega) hc
    have hle : c.toNat ≤ 57 := by
      simp only [Char.isDigit, Bool.and_eq_true, decide_eq_true_eq] at hdigit
      exact hdigit.2
    have hmod : c.toNat.toUInt8.toNat = c.toNat := by
      simp only [Nat.toUInt8, UInt8.toNat_ofNat']
      omega
    simp only [Function.comp_apply, hmod, Char.ofNat_toNat, id]
  have hdigits : Nat.toDigits 10 i = Nat.toDigits 10 j := by
    rw [← hback i, ← hback j, hbytes]
  calc
    i = Nat.ofDigitChars 10 (Nat.toDigits 10 i) 0 := Nat.ofDigitChars_ten_toDigits.symm
    _ = Nat.ofDigitChars 10 (Nat.toDigits 10 j) 0 := by rw [hdigits]
    _ = j := Nat.ofDigitChars_ten_toDigits

/-! ## The parsers -/

/-- What a path of one step or a name leads to: an offset and a value. -/
def lookup (v : Value) : FieldKey → Option (Nat × Value)
  | .path p =>
      match v.elements with
      | some l => ((List.range l.length).find? fun k => indexStr k == p).bind fun k => l[k]?
      | none =>
          -- a bracket in a path stands for an index, not for a name
          if p.take 2 = ascii "/[" then none
          else (v.field (p.drop 1)).map fun m => (m.valOff, m.val)
  | .name n => (v.field n).map fun m => (m.valOff, m.val)

def JsonFieldType.kind : JsonFieldType → TokenKind
  | .string => .string
  | .object => .object
  | .array => .array

/-- The answer for a field that is absent or of another type. -/
def missingField : JsonFieldOut :=
  { result := .other, start := 0, stop := 0, copied := none }

/-- The answer for a value that was found, before it is copied. -/
def foundField (d : Doc) (o : Nat) (v : Value) : JsonFieldOut :=
  { result := .success
    start := d.pre.bytes.length + o + v.tokenPad
    stop := d.pre.bytes.length + o + v.tokenPad + v.tokenText.length
    copied := none }

/-- The answer for one field of a text whose tree is known. -/
def readField (d : Doc) (f : JsonField) : JsonFieldOut :=
  match lookup d.val f.key with
  | none => missingField
  | some (o, v) =>
      if v.kind ≠ f.type.kind then missingField
      else
        match f.fieldCopyBuffSize with
        | none => foundField d o v
        | some size =>
            if v.tokenText.length < size then
              { foundField d o v with copied := some v.tokenText }
            else { foundField d o v with result := .copyFailed }

def referenceRead (budget : Nat) (t : Bytes) (fields : List JsonField) :
    JsonParseResult × (Nat → JsonFieldOut) :=
  match parseDoc t with
  | none => (.invalidInput, fun _ => missingField)
  | some d =>
      if budget < d.val.tokenCount then
        (.invalidInput, fun _ => missingField)
      else if d.val.kind = .array ∨ d.val.kind = .object then
        let outs := fields.map (readField d)
        (if outs.all fun out => out.result = .success then .success else .partialSuccess,
          fun i => (outs[i]?).getD missingField)
      else
        (.rootTypeError, fun _ => missingField)

def referenceParse (budget : Nat) (t : Bytes) (stale : Nat → Token) : Int × (Nat → Token) :=
  match parseDoc t with
  | none => (-2, stale)
  | some d =>
      if budget < d.val.tokenCount then
        (-1, stale)
      else
        (d.val.tokenCount, fun i => ((d.val.tokens d.pre.bytes.length)[i]?).getD (stale i))

def referenceJson (budget : Nat) : JsonApi where
  jsmnParse := referenceParse budget
  kiiJsonReadObject := referenceRead budget

/-! ## They meet the specification -/

theorem parseDoc_value (v : Value) : parseDoc v.render = some (Doc.bare v) := by
  rw [← Doc.render_bare, parseDoc_render]

/-- Reading one element of an array. -/
theorem lookup_element {v : Value} {l : List (Nat × Value)} (hl : v.elements = some l) (k : Nat) :
    lookup v (.path (indexStr k)) = l[k]? := by
  simp only [lookup, hl]
  by_cases hk : k < l.length
  · have hfind : (List.range l.length).find? (fun j => indexStr j == indexStr k) = some k := by
      rw [List.find?_range_eq_some]
      refine ⟨beq_self_eq_true _, List.mem_range.mpr hk, ?_⟩
      intro j hj
      have hne : indexStr j ≠ indexStr k := fun h => by
        have := indexStr_injective h
        omega
      simp [hne]
    rw [hfind, Option.bind_some]
  · have hfind : (List.range l.length).find? (fun j => indexStr j == indexStr k) = none := by
      rw [List.find?_eq_none]
      intro j hj hjk
      rw [beq_iff_eq] at hjk
      have := indexStr_injective hjk
      rw [List.mem_range] at hj
      omega
    rw [hfind, Option.bind_none, List.getElem?_eq_none (Nat.le_of_not_lt hk)]

/-- An index leads nowhere in an object. -/
theorem lookup_index_object {v : Value} (hv : v.elements = none) (k : Nat) :
    lookup v (.path (indexStr k)) = none := by
  have htake : (indexStr k).take 2 = ascii "/[" := rfl
  simp only [lookup, hv, htake, if_true]

/-- What an array or an object answers to an index. -/
theorem referenceRead_index {budget : Nat} {v : Value} (htok : v.tokenCount ≤ budget)
    (hv : v.kind = .array ∨ v.kind = .object) (k : Nat) :
    referenceRead budget v.render [indexField k] =
      (if (readField (Doc.bare v) (indexField k)).result = .success then .success
        else .partialSuccess,
        fun i => ([readField (Doc.bare v) (indexField k)][i]?).getD missingField) := by
  have hv' : (Doc.bare v).val.kind = .array ∨ (Doc.bare v).val.kind = .object := hv
  have htok' : ¬ budget < (Doc.bare v).val.tokenCount := Nat.not_lt.mpr htok
  unfold referenceRead
  rw [parseDoc_value]
  simp only [if_neg htok', if_pos hv', List.map_cons, List.map_nil, List.all_cons, List.all_nil,
    Bool.and_true, decide_eq_true_eq]

theorem readField_found {d : Doc} {f : JsonField} {o : Nat} {v : Value}
    (hf : lookup d.val f.key = some (o, v)) (hkind : v.kind = f.type.kind)
    (hcopy : f.fieldCopyBuffSize = none) :
    readField d f = foundField d o v := by
  simp only [readField, hf, hkind, hcopy, ne_eq, not_true_eq_false, if_false]

theorem readField_missing {d : Doc} {f : JsonField}
    (hf : ∀ o v, lookup d.val f.key = some (o, v) → v.kind ≠ f.type.kind) :
    readField d f = missingField := by
  unfold readField
  cases h : lookup d.val f.key with
  | none => rfl
  | some ov =>
      obtain ⟨o, v⟩ := ov
      simp only [if_pos (hf o v h)]

theorem tokenPad_of_object {v : Value} (h : v.kind = .object) :
    v.tokenPad = 0 ∧ v.tokenText = v.render := by
  cases v with
  | obj | objNil => exact ⟨rfl, rfl⟩
  | prim | str | arr | arrNil => cases h

theorem referenceJson_spec (budget : Nat) : JsonSpec (referenceJson budget) budget where
  tokens := by
    intro v stale _ htok
    have htok' : ¬ budget < (Doc.bare v).val.tokenCount := Nat.not_lt.mpr htok
    simp only [referenceJson, referenceParse, parseDoc_value, if_neg htok']
    rfl
  element := by
    intro v l k o e htok hl hk he
    -- An object token has no quotes to pad, so its text is the one rendered.
    have hread := referenceRead_index htok (.inl (Value.kind_of_elements hl)) k
    have hfound : readField (Doc.bare v) (indexField k) = foundField (Doc.bare v) o e :=
      readField_found ((lookup_element hl k).trans hk) he rfl
    obtain ⟨hpad, htext⟩ := tokenPad_of_object he
    have hpre : (Doc.bare v).pre.bytes.length = 0 := rfl
    rw [hfound] at hread
    simp only [referenceJson]
    rw [hread]
    simp [foundField, hpre, hpad, htext]
  noElement := by
    intro v k htok hv hk
    have hread := referenceRead_index htok hv k
    -- Past the end of an array, or in a container that is none.
    have hmissing : readField (Doc.bare v) (indexField k) = missingField := by
      apply readField_missing
      intro o e he
      cases hl : v.elements with
      | some l => exact hk l o e hl ((lookup_element hl k).symm.trans he)
      | none =>
          have := lookup_index_object hl k
          rw [show (Doc.bare v).val = v from rfl, show (indexField k).key =
            .path (indexStr k) from rfl, this] at he
          cases he
    rw [hmissing] at hread
    simp only [referenceJson, hread]
    rfl
  noContainer := by
    intro p k
    have hparse : parseDoc p.bytes = some (Doc.bare (.prim p)) := parseDoc_value (.prim p)
    simp only [referenceJson, referenceRead, hparse]
    by_cases htok : budget < (Doc.bare (.prim p)).val.tokenCount
    · exact .inr (by rw [if_pos htok])
    · exact .inl (by rw [if_neg htok]; rfl)
  command := by
    intro d commandId actions htok hfields
    have htok' : ¬ budget < d.val.tokenCount := Nat.not_lt.mpr htok
    -- A text with a commandID is an object, so the path is taken as a name.
    have hobject : d.val.elements = none := by
      have h := hfields.commandId_eq
      cases hv : d.val with
      | obj | objNil | prim | str => rfl
      | arr | arrNil => simp [hv, Value.field, Value.members] at h
    have hkind : d.val.kind = .array ∨ d.val.kind = .object := by
      have h := hfields.commandId_eq
      cases hv : d.val with
      | obj | objNil => exact .inr rfl
      | prim | str | arr | arrNil => simp [hv, Value.field, Value.members] at h
    have hid : readField d commandIdField = foundField d commandId.valOff commandId.val := by
      refine readField_found ?_ hfields.commandId_kind rfl
      have hdrop : (ascii "/commandID").drop 1 = ascii "commandID" := rfl
      have htake : (ascii "/commandID").take 2 ≠ ascii "/[" := by decide
      simp [commandIdField, lookup, hobject, htake, hdrop, hfields.commandId_eq]
    have hactions : readField d actionsField = foundField d actions.valOff actions.val := by
      refine readField_found ?_ hfields.actions_kind rfl
      have hdrop : (ascii "/actions").drop 1 = ascii "actions" := rfl
      have htake : (ascii "/actions").take 2 ≠ ascii "/[" := by decide
      simp [actionsField, lookup, hobject, htake, hdrop, hfields.actions_eq]
    simp only [referenceJson, referenceRead, parseDoc_render, if_neg htok', if_pos hkind,
      commandFields, List.map_cons, List.map_nil, hid, hactions]
    simp [foundField, Doc.tokenStart, Doc.tokenStop]

/-! ### Fields of any text -/

theorem lookup_occurs {d : Doc} {key : FieldKey} {o : Nat} {v : Value}
    (h : lookup d.val key = some (o, v)) :
    OccursAt d.render (d.pre.bytes.length + (o + v.tokenPad)) v.tokenText := by
  refine (OccursAt.intro d.pre.bytes d.val.render d.post.bytes).trans ?_
  have hfield : ∀ name, (d.val.field name).map (fun m => (m.valOff, m.val)) = some (o, v) →
      OccursAt d.val.render (o + v.tokenPad) v.tokenText := by
    intro name hm
    rw [Option.map_eq_some_iff] at hm
    obtain ⟨m, hm, heq⟩ := hm
    cases heq
    obtain ⟨b, htoken⟩ := (Value.field_occurs hm).token
    exact htoken.front
  cases key with
  | name n => exact hfield n h
  | path p =>
      simp only [lookup] at h
      cases hl : d.val.elements with
      | none =>
          simp only [hl] at h
          split at h
          · cases h
          · exact hfield _ h
      | some l =>
          simp only [hl, Option.bind_eq_some_iff] at h
          obtain ⟨k, -, hk⟩ := h
          exact (Value.elements_occur hl (List.mem_of_getElem? hk)).trans v.tokenText_occurs

theorem readField_span {d : Doc} {f : JsonField} (h : (readField d f).result = .success) :
    (readField d f).start ≤ (readField d f).stop ∧ (readField d f).stop ≤ d.render.length := by
  unfold readField at h ⊢
  cases hl : lookup d.val f.key with
  | none =>
      simp only [hl] at h
      cases h
  | some ov =>
      obtain ⟨o, v⟩ := ov
      have hbound := (lookup_occurs hl).bound
      simp only [hl] at h ⊢
      split
      · rename_i hkind
        rw [if_pos hkind] at h
        cases h
      · split
        · simp only [foundField]
          omega
        · split <;> simp only [foundField] <;> omega

/-- A text that is read at all is read field by field. -/
theorem referenceRead_parses {budget : Nat} {t : Bytes} {fs : List JsonField}
    (h : (referenceRead budget t fs).1 = .success ∨ (referenceRead budget t fs).1 = .partialSuccess) :
    ∃ d, d.render = t ∧ d.val.tokenCount ≤ budget ∧ referenceRead budget t fs =
      (if (fs.map (readField d)).all fun out => out.result = .success then .success
        else .partialSuccess,
        fun i => ((fs.map (readField d))[i]?).getD missingField) := by
  unfold referenceRead at h ⊢
  cases hparse : parseDoc t with
  | none => simp [hparse] at h
  | some d =>
      simp only [hparse] at h ⊢
      split at h
      · rcases h with h | h <;> cases h
      · rename_i hlt
        refine ⟨d, parseDoc_sound hparse, Nat.le_of_not_lt hlt, ?_⟩
        rw [if_neg hlt]
        split at h
        · rename_i hkind
          rw [if_pos hkind]
        · rcases h with h | h <;> cases h

theorem referenceJson_report (budget : Nat) : FieldReport (referenceJson budget) where
  success := by
    intro t fs h i hi
    obtain ⟨d, -, -, hread⟩ := referenceRead_parses (.inl h)
    simp only [referenceJson] at h ⊢
    rw [hread] at h ⊢
    split at h
    · rename_i hall
      rw [List.all_eq_true] at hall
      have hi' : i < (fs.map (readField d)).length := by rwa [List.length_map]
      have := hall _ (List.getElem_mem hi')
      simpa [List.getElem?_eq_getElem hi'] using this
    · cases h
  partialSuccess := by
    intro t fs h
    obtain ⟨d, -, -, hread⟩ := referenceRead_parses (.inr h)
    simp only [referenceJson] at h ⊢
    rw [hread] at h ⊢
    split at h
    · cases h
    · rename_i hall
      rw [Bool.not_eq_true, List.all_eq_false] at hall
      obtain ⟨out, hout, hne⟩ := hall
      obtain ⟨i, hi, rfl⟩ := List.getElem_of_mem hout
      refine ⟨i, by rwa [List.length_map] at hi, ?_⟩
      simpa [List.getElem?_eq_getElem hi] using hne
  span := by
    intro t fs i hi hparses hres
    obtain ⟨d, hd, -, hread⟩ := referenceRead_parses hparses
    simp only [referenceJson] at hres ⊢
    rw [hread] at hres ⊢
    have hi' : i < (fs.map (readField d)).length := by rwa [List.length_map]
    simp only [List.getElem?_eq_getElem hi', Option.getD_some, List.getElem_map] at hres ⊢
    rw [← hd]
    exact readField_span hres

/-! ## The request functions -/

/-- A submodule whose data is the room left in the request buffer.  Requests are
answered without a body, and everything else succeeds. -/
def referenceApi (capacity : Nat) : RequestApi Nat where
  zeroed := 0
  kiiInitWithInfo core _ appId appKey _ := { ret := 0, appId := appId, appKey := appKey, core := core }
  setBuffer _ size := size
  kiiApiCallStart _ _ := (0, capacity)
  kiiApiCallAppendBody core bytes :=
    if bytes.length ≤ core then (0, core - bytes.length) else (-1, core)
  kiiApiCallRun core :=
    { ret := 0, httpError := .none, responseCode := 204, responseBody := [], core := core }
  kiiPushStartRoutine core := (0, core)
  taskCreateCb core _ := (true, core)

theorem referenceApi_fixedBuffer (capacity : Nat) : FixedBuffer (referenceApi capacity) id where
  fits := by
    intro core bytes hle
    simp only [id] at hle ⊢
    simp [referenceApi, hle]
  refused := by
    intro core bytes hlt
    simp only [id] at hlt ⊢
    simp [referenceApi, Nat.not_le.mpr hlt]

def referencePlatform : Platform where
  sizeBits := 32
  intBits := 32
  authorSizes := { authorId := 128, accessToken := 128 }

def referenceSdk (capacity budget : Nat) : Sdk Nat where
  api := referenceApi capacity
  json := referenceJson budget
  platform := referencePlatform

/-- An onboarded instance's `kii_t` with an empty log. -/
def referenceKii : Kii Nat where
  appId := ascii "app"
  appKey := ascii "key"
  author := { authorId := ascii "th.1", accessToken := ascii "token" }
  httpError := .none
  responseCode := 0
  responseBody := []
  core := 0
  log := []

/-- A device that counts the actions it has performed, and handlers that let every
action succeed. -/
def referenceHandlers : Handlers Nat Nat where
  actionHandler device _ _ _ error :=
    { succeeded := true, error := error, device := device + 1 }
  stateHandlerForCommandReaction _ := .done true
  stateHandlerForPeriod _ := .done true
  customPushHandler := none

def zeroToken : Token := ⟨.undefined, 0, 0⟩

/-- Automatic arrays that happen to hold zeros. -/
def zeroStack : Stack where
  tokens _ _ _ := zeroToken
  error _ _ := ⟨List.replicate (emessageSize + 1) 0, length_zeros⟩
  behindError _ _ := [0]

def referenceMachine : Machine Nat Nat where
  kii := referenceKii
  device := 0

/-! ## Sample messages -/

/-- An object of one member without white space. -/
def objectOf (key : Str) (v : Value) : Value :=
  .obj (.last .none key .none .none v .none)

theorem plain_commandID : ∀ b ∈ ascii "commandID", isPlain b = true := all_plain rfl
theorem plain_c : ∀ b ∈ ascii "c", isPlain b = true := all_plain rfl
theorem plain_lamp : ∀ b ∈ ascii "lamp", isPlain b = true := all_plain rfl
theorem plain_on : ∀ b ∈ ascii "on", isPlain b = true := all_plain rfl

/-- A command with an id of one letter and the given array of actions. -/
def commandOf (actions : Value) : Doc where
  pre := .none
  val := .obj (.more .none (Str.ofPlain (ascii "commandID") plain_commandID) .none .none
    (.str (Str.ofPlain (ascii "c") plain_c)) .none
    (.last .none (Str.ofPlain (ascii "actions") (all_plain rfl)) .none .none actions .none))
  post := .none

def trueValue : Value := .prim ⟨ascii "true", by decide⟩

def oneValue : Value := .prim ⟨ascii "1", by decide⟩

/-- `{"lamp":[{"on":true}]}` -/
def lampAlias : Value :=
  objectOf (Str.ofPlain (ascii "lamp") plain_lamp)
    (.arr (.last .none (objectOf (Str.ofPlain (ascii "on") plain_on) trueValue) .none))

end ThingIfSdk
