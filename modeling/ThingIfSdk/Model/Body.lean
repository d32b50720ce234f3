import ThingIfSdk.Model.Kii

/-!
# Building request bodies

The source appends bodies in chains `a != 0 || b != 0 || ...`, which stop at the
first call that fails.  `anyFails` is that chain.  Every call in it ends in
`kii_api_call_append_body`, so a chain is described by the pieces it appends:
`Appends f pieces` says that `f` appends `pieces` one after the other, and
`anyFails_appends` composes such descriptions.
-/

namespace ThingIfSdk

open ByteText JsonText

variable {σ : Type}

/-- `c₁ != 0 || c₂ != 0 || ...`: make the calls up to the first that fails, and
tell whether one did. -/
def anyFails : List (Kii σ → Int × Kii σ) → Kii σ → Bool × Kii σ
  | [], kii => (false, kii)
  | c :: cs, kii => if (c kii).1 ≠ 0 then (true, (c kii).2) else anyFails cs (c kii).2

/-! ## The append helpers of the source -/

def prvAppendKeyValue (sdk : Sdk σ) (key value : Option Bytes) (isSuccessor isString : Bool)
    (kii : Kii σ) : Int × Kii σ :=
  match key, value with
  | none, _ => (-1, kii)
  | some _, none => (-1, kii)
  | some key, some value =>
      let append := kiiApiCallAppendBody sdk
      let separator := if isSuccessor then [append (ascii ",")] else []
      let writeKey := [append (ascii "\""), append key, append (ascii "\":")]
      let writeValue :=
        if isString then [append (ascii "\""), append value, append (ascii "\"")]
        else [append value]
      let r := anyFails (separator ++ (writeKey ++ writeValue)) kii
      (if r.1 then -1 else 0, r.2)

def prvAppendKeyValueString (sdk : Sdk σ) (key value : Option Bytes) (isSuccessor : Bool)
    (kii : Kii σ) : Int × Kii σ :=
  prvAppendKeyValue sdk key value isSuccessor true kii

def prvAppendKeyValueStringOptional (sdk : Sdk σ) (key value : Option Bytes)
    (isSuccessor : Bool) (kii : Kii σ) : Int × Kii σ :=
  if key = none ∨ value = none then (0, kii)
  else prvAppendKeyValue sdk key value isSuccessor true kii

def prvAppendKeyValueObjectOptional (sdk : Sdk σ) (key value : Option Bytes)
    (isSuccessor : Bool) (kii : Kii σ) : Int × Kii σ :=
  if key = none ∨ value = none then (0, kii)
  else prvAppendKeyValue sdk key value isSuccessor false kii

def prvAppendKeyValueBool (sdk : Sdk σ) (key : Option Bytes) (value isSuccessor : Bool)
    (kii : Kii σ) : Int × Kii σ :=
  prvAppendKeyValue sdk key (some (if value then ascii "true" else ascii "false"))
    isSuccessor false kii

/-! ## Chains as lists of pieces -/

/-- Append pieces up to the first that is refused. -/
def appendPieces (sdk : Sdk σ) (pieces : List Bytes) (kii : Kii σ) : Bool × Kii σ :=
  anyFails (pieces.map (kiiApiCallAppendBody sdk)) kii

/-- The call appends the pieces in turn, and fails exactly when one is refused. -/
structure Appends (sdk : Sdk σ) (f : Kii σ → Int × Kii σ) (pieces : List Bytes) : Prop where
  failed : ∀ kii, (f kii).1 ≠ 0 ↔ (appendPieces sdk pieces kii).1 = true
  state : ∀ kii, (f kii).2 = (appendPieces sdk pieces kii).2

theorem anyFails_append (cs cs' : List (Kii σ → Int × Kii σ)) (kii : Kii σ) :
    anyFails (cs ++ cs') kii =
      if (anyFails cs kii).1 then (true, (anyFails cs kii).2)
      else anyFails cs' (anyFails cs kii).2 := by
  induction cs generalizing kii with
  | nil => simp [anyFails]
  | cons c cs ih =>
      simp only [List.cons_append, anyFails]
      by_cases hc : (c kii).1 ≠ 0
      · simp [hc]
      · simp only [if_neg hc, ih]

theorem appendPieces_append (sdk : Sdk σ) (ps qs : List Bytes) (kii : Kii σ) :
    appendPieces sdk (ps ++ qs) kii =
      if (appendPieces sdk ps kii).1 then (true, (appendPieces sdk ps kii).2)
      else appendPieces sdk qs (appendPieces sdk ps kii).2 := by
  unfold appendPieces
  rw [List.map_append, anyFails_append]

@[simp] theorem appendPieces_nil (sdk : Sdk σ) (kii : Kii σ) :
    appendPieces sdk [] kii = (false, kii) := rfl

theorem appendPieces_cons (sdk : Sdk σ) (p : Bytes) (ps : List Bytes) (kii : Kii σ) :
    appendPieces sdk (p :: ps) kii =
      if (kiiApiCallAppendBody sdk p kii).1 ≠ 0 then (true, (kiiApiCallAppendBody sdk p kii).2)
      else appendPieces sdk ps (kiiApiCallAppendBody sdk p kii).2 := rfl

/-- A chain of calls appends what its calls append. -/
theorem anyFails_appends {sdk : Sdk σ} {cs : List (Kii σ → Int × Kii σ)}
    {pss : List (List Bytes)} (h : List.Forall₂ (Appends sdk) cs pss) (kii : Kii σ) :
    anyFails cs kii = appendPieces sdk pss.flatten kii := by
  induction h generalizing kii with
  | nil => rfl
  | @cons c ps cs pss hc _ ih =>
      rw [anyFails, List.flatten_cons, appendPieces_append, hc.state kii]
      by_cases hf : (appendPieces sdk ps kii).1 = true
      · rw [if_pos ((hc.failed kii).mpr hf), if_pos hf]
      · rw [if_neg (fun hne => hf ((hc.failed kii).mp hne)), if_neg hf, ih]

/-- The converse reading: a function that reports a chain appends its pieces. -/
theorem appends_of_pieces {sdk : Sdk σ} {f : Kii σ → Int × Kii σ} {pieces : List Bytes}
    (h : ∀ kii, f kii =
      (if (appendPieces sdk pieces kii).1 then -1 else 0, (appendPieces sdk pieces kii).2)) :
    Appends sdk f pieces := by
  constructor
  · intro kii
    rw [h kii]
    by_cases hf : (appendPieces sdk pieces kii).1 = true <;> simp [hf]
  · intro kii
    rw [h kii]

theorem appends_body (sdk : Sdk σ) (p : Bytes) :
    Appends sdk (kiiApiCallAppendBody sdk p) [p] := by
  constructor <;> intro kii
  · rw [appendPieces_cons]
    by_cases hf : (kiiApiCallAppendBody sdk p kii).1 ≠ 0 <;> simp [hf]
  · rw [appendPieces_cons]
    by_cases hf : (kiiApiCallAppendBody sdk p kii).1 ≠ 0 <;> simp [hf]

/-- The pieces of one member of an object. -/
def memberPieces (key value : Bytes) (isSuccessor isString : Bool) : List Bytes :=
  (if isSuccessor then [ascii ","] else []) ++
    ([ascii "\"", key, ascii "\":"] ++
      if isString then [ascii "\"", value, ascii "\""] else [value])

theorem appends_keyValue (sdk : Sdk σ) (key value : Bytes) (isSuccessor isString : Bool) :
    Appends sdk (prvAppendKeyValue sdk (some key) (some value) isSuccessor isString)
      (memberPieces key value isSuccessor isString) := by
  apply appends_of_pieces
  intro kii
  cases isSuccessor <;> cases isString <;> rfl

theorem appends_keyValueString (sdk : Sdk σ) (key value : Bytes) (isSuccessor : Bool) :
    Appends sdk (prvAppendKeyValueString sdk (some key) (some value) isSuccessor)
      (memberPieces key value isSuccessor true) :=
  appends_keyValue sdk key value isSuccessor true

/-- The pieces of a member that is left out when its value is NULL. -/
def optionalPieces (key : Bytes) (value : Option Bytes) (isSuccessor isString : Bool) :
    List Bytes :=
  match value with
  | none => []
  | some value => memberPieces key value isSuccessor isString

theorem appends_nothing (sdk : Sdk σ) : Appends sdk (fun kii => (0, kii)) [] := by
  constructor <;> intro kii <;> simp

theorem appends_keyValueStringOptional (sdk : Sdk σ) (key : Bytes) (value : Option Bytes)
    (isSuccessor : Bool) :
    Appends sdk (prvAppendKeyValueStringOptional sdk (some key) value isSuccessor)
      (optionalPieces key value isSuccessor true) := by
  cases value with
  | none => exact appends_nothing sdk
  | some value =>
      have h := appends_keyValue sdk key value isSuccessor true
      constructor <;> intro kii
      · simpa [prvAppendKeyValueStringOptional, optionalPieces] using h.failed kii
      · simpa [prvAppendKeyValueStringOptional, optionalPieces] using h.state kii

theorem appends_keyValueObjectOptional (sdk : Sdk σ) (key : Bytes) (value : Option Bytes)
    (isSuccessor : Bool) :
    Appends sdk (prvAppendKeyValueObjectOptional sdk (some key) value isSuccessor)
      (optionalPieces key value isSuccessor false) := by
  cases value with
  | none => exact appends_nothing sdk
  | some value =>
      have h := appends_keyValue sdk key value isSuccessor false
      constructor <;> intro kii
      · simpa [prvAppendKeyValueObjectOptional, optionalPieces] using h.failed kii
      · simpa [prvAppendKeyValueObjectOptional, optionalPieces] using h.state kii

theorem appends_keyValueBool (sdk : Sdk σ) (key : Bytes) (value isSuccessor : Bool) :
    Appends sdk (prvAppendKeyValueBool sdk (some key) value isSuccessor)
      (memberPieces key (if value then ascii "true" else ascii "false") isSuccessor false) :=
  appends_keyValue sdk key _ isSuccessor false

/-! ## What a chain leaves behind -/

/-- The log of pieces that were all accepted. -/
def accepted (pieces : List Bytes) : List Event :=
  pieces.map fun p => .appendBody p 0

@[simp] theorem accepted_nil : accepted [] = [] := rfl

@[simp] theorem accepted_cons (p : Bytes) (ps : List Bytes) :
    accepted (p :: ps) = .appendBody p 0 :: accepted ps := rfl

@[simp] theorem accepted_append (ps qs : List Bytes) :
    accepted (ps ++ qs) = accepted ps ++ accepted qs :=
  List.map_append

/-- What appending a body does to a `kii_t`: the log grows by append entries, the
last of which is refused exactly when the chain failed. -/
structure AppendEffect (kii : Kii σ) (r : Bool × Kii σ) (pieces : List Bytes) : Prop where
  done : r.1 = false → kii.Adds r.2 (accepted pieces)
  refused : r.1 = true → ∃ front p back ret, pieces = front ++ p :: back ∧ ret ≠ 0 ∧
    kii.Adds r.2 (accepted front ++ [.appendBody p ret])

theorem appendPieces_effect (sdk : Sdk σ) (pieces : List Bytes) (kii : Kii σ) :
    AppendEffect kii (appendPieces sdk pieces kii) pieces := by
  induction pieces generalizing kii with
  | nil => exact ⟨fun _ => .refl kii, by simp⟩
  | cons p ps ih =>
      rw [appendPieces_cons]
      have hadd := adds_append sdk p kii
      by_cases hf : (kiiApiCallAppendBody sdk p kii).1 ≠ 0
      · rw [if_pos hf]
        exact ⟨by simp, fun _ => ⟨[], p, ps, _, rfl, hf, hadd⟩⟩
      · rw [if_neg hf]
        have h := ih (kiiApiCallAppendBody sdk p kii).2
        rw [ne_eq, not_not] at hf
        rw [hf] at hadd
        constructor
        · intro hdone
          exact hadd.trans (h.done hdone)
        · intro hrefused
          obtain ⟨front, q, back, ret, rfl, hret, hl⟩ := h.refused hrefused
          exact ⟨p :: front, q, back, ret, rfl, hret, hadd.trans hl⟩

/-! ## A body buffer of fixed size -/

/-- The request buffer of the submodule: an append takes all of its bytes when
they fit what remains, and none otherwise. -/
structure FixedBuffer (api : RequestApi σ) (remaining : σ → Nat) : Prop where
  fits : ∀ core bytes, bytes.length ≤ remaining core →
    (api.kiiApiCallAppendBody core bytes).1 = 0 ∧
      remaining (api.kiiApiCallAppendBody core bytes).2 = remaining core - bytes.length
  refused : ∀ core bytes, remaining core < bytes.length →
    (api.kiiApiCallAppendBody core bytes).1 ≠ 0 ∧
      remaining (api.kiiApiCallAppendBody core bytes).2 = remaining core

namespace FixedBuffer

variable {sdk : Sdk σ} {remaining : σ → Nat}

/-- An append that fits. -/
theorem append_fits (h : FixedBuffer sdk.api remaining) (kii : Kii σ) (bytes : Bytes)
    (hle : bytes.length ≤ remaining kii.core) :
    (kiiApiCallAppendBody sdk bytes kii).1 = 0 ∧
      remaining (kiiApiCallAppendBody sdk bytes kii).2.core =
        remaining kii.core - bytes.length :=
  h.fits kii.core bytes hle

theorem append_refused (h : FixedBuffer sdk.api remaining) (kii : Kii σ) (bytes : Bytes)
    (hlt : remaining kii.core < bytes.length) :
    (kiiApiCallAppendBody sdk bytes kii).1 ≠ 0 ∧
      remaining (kiiApiCallAppendBody sdk bytes kii).2.core = remaining kii.core :=
  h.refused kii.core bytes hlt

/-- A chain whose pieces fit together is accepted. -/
theorem appendPieces_fits (h : FixedBuffer sdk.api remaining) (pieces : List Bytes) (kii : Kii σ)
    (hle : pieces.flatten.length ≤ remaining kii.core) :
    (appendPieces sdk pieces kii).1 = false ∧
      remaining (appendPieces sdk pieces kii).2.core =
        remaining kii.core - pieces.flatten.length := by
  induction pieces generalizing kii with
  | nil => simp
  | cons p ps ih =>
      rw [List.flatten_cons, List.length_append] at hle ⊢
      obtain ⟨hret, hrem⟩ := h.append_fits kii p (by omega)
      rw [appendPieces_cons, if_neg (not_not.mpr hret)]
      obtain ⟨hdone, hrem'⟩ := ih (kiiApiCallAppendBody sdk p kii).2 (by omega)
      exact ⟨hdone, by omega⟩

/-- A chain whose pieces do not fit together is refused. -/
theorem appendPieces_refused (h : FixedBuffer sdk.api remaining) (pieces : List Bytes)
    (kii : Kii σ) (hlt : remaining kii.core < pieces.flatten.length) :
    (appendPieces sdk pieces kii).1 = true := by
  induction pieces generalizing kii with
  | nil => simp at hlt
  | cons p ps ih =>
      rw [List.flatten_cons, List.length_append] at hlt
      rw [appendPieces_cons]
      by_cases hp : p.length ≤ remaining kii.core
      · obtain ⟨hret, hrem⟩ := h.append_fits kii p hp
        rw [if_neg (not_not.mpr hret)]
        exact ih _ (by omega)
      · rw [if_pos (h.append_refused kii p (by omega)).1]

end FixedBuffer

end ThingIfSdk
