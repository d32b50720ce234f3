import ThingIfSdk.Lib.CString
import ThingIfSdk.Model.Onboarding
import ThingIfSdk.Model.Command

/-!
# Resource paths in their arrays

Every resource path is built in an automatic array.  A guard compares the size of
the array with a sum of lengths, and then the parts are written: by one `sprintf`,
or in `handle_command` by a chain of `strcat`.  `PathCall` collects the builders
with the arrays they are given, and `PathCall.exact_iff` says when the guard is
right: writing exactly the paths that fit with their NUL.
-/

namespace ThingIfSdk

open ByteText JsonText

/-- What a path builder does to its array. -/
inductive PathWrite where
  | refused
  | overrun
  | written (array : Bytes)
deriving DecidableEq

def PathWrite.ofOption : Option Bytes → PathWrite
  | none => .overrun
  | some array => .written array

/-- An array of a given size, whatever it contains. -/
structure PathArray (size : Nat) where
  bytes : Bytes
  length_eq : bytes.length = size

/-- The four `prv_set_..._resource_path` and the token path: a guard, then `sprintf`. -/
def printPath (p : Platform) (parts : List Bytes) (array : Bytes) : PathWrite :=
  if array.length ≤ resourcePathLength p parts then .refused
  else .ofOption (sprintf? array parts)

/-- The `strcat` chain of `handle_command`; the command id lies in the message. -/
def chainPath (array appId authorId message : Bytes) (start stop : Nat) : Option Bytes := do
  let array ← storeAt? array 0 [0]
  let array ← strcatAll? array [thingIfAppPath, appId, targetPart, authorId, commandPart]
  let array ← strncat? array (message.drop start) (stop - start)
  strcat? array resultsPart

/-- The path of `handle_command`: its guard, then the chain. -/
def commandPath (p : Platform) (appId authorId message : Bytes) (start stop : Nat)
    (array : PathArray 256) : PathWrite :=
  if 256 ≤ resultsPathLength p appId authorId start stop then .refused
  else .ofOption (chainPath array.bytes appId authorId message start stop)

/-- A path builder with its arguments and the array it writes to.  For
`handle_command` the message around the command id is an argument too. -/
inductive PathCall where
  | setOnboardResourcePath (appId : CText) (array : Bytes)
  | setStateResourcePath (appId authorId : CText) (array : Bytes)
  | setFirmwareVersionResourcePath (appId authorId : CText) (array : Bytes)
  | setThingTypeResourcePath (appId authorId : CText) (array : Bytes)
  | getAnonymousToken (appId : CText) (array : PathArray 64)
  | handleCommand (appId authorId commandId : CText) (front back : Bytes)
      (array : PathArray 256)

namespace PathCall

/-- The parts of the path. -/
def parts : PathCall → List Bytes
  | .setOnboardResourcePath appId _ => [thingIfAppPath, appId.bytes, onboardingPath]
  | .setStateResourcePath appId authorId _ =>
      [thingIfAppPath, appId.bytes, targetPart, authorId.bytes, statesPart]
  | .setFirmwareVersionResourcePath appId authorId _ =>
      [thingIfAppPath, appId.bytes, thingsPart, authorId.bytes, firmwareVersionPart]
  | .setThingTypeResourcePath appId authorId _ =>
      [thingIfAppPath, appId.bytes, thingsPart, authorId.bytes, thingTypePart]
  | .getAnonymousToken appId _ => [appPath, appId.bytes, oauthPath]
  | .handleCommand appId authorId commandId _ _ _ =>
      [thingIfAppPath, appId.bytes, targetPart, authorId.bytes, commandPart, commandId.bytes,
        resultsPart]

def array : PathCall → Bytes
  | .setOnboardResourcePath _ array => array
  | .setStateResourcePath _ _ array => array
  | .setFirmwareVersionResourcePath _ _ array => array
  | .setThingTypeResourcePath _ _ array => array
  | .getAnonymousToken _ array => array.bytes
  | .handleCommand _ _ _ _ _ array => array.bytes

/-- Make the call. -/
def run (p : Platform) : PathCall → PathWrite
  | .handleCommand appId authorId commandId front back array =>
      commandPath p appId.bytes authorId.bytes (front ++ (commandId.bytes ++ back)) front.length
        (front.length + commandId.bytes.length) array
  | c => printPath p c.parts c.array

/-- The complete path. -/
def path (c : PathCall) : Bytes :=
  c.parts.flatten

/-- `handle_command` subtracts one from its sum. -/
def correction : PathCall → Nat
  | .handleCommand .. => 1
  | _ => 0

/-- The builder writes exactly the paths that fit: such a path ends up in the array
with its NUL, and any other path is refused. -/
def Exact (p : Platform) (c : PathCall) : Prop :=
  if c.path.length + 1 ≤ c.array.length then
    ∃ array, c.run p = .written array ∧ HoldsString array c.path ∧
      array.length = c.array.length
  else
    c.run p = .refused

/-- The path does not fit and the guard lets it through: it is the path of
`handle_command` and has the size of the array, or the sum of lengths wraps around
to less than the size. -/
def Misjudged (p : Platform) (c : PathCall) : Prop :=
  c.array.length ≤ c.path.length ∧
    ((c.correction = 1 ∧ c.path.length = c.array.length) ∨
      (2 ^ p.sizeBits ≤ c.path.length - c.correction ∧
        (c.path.length - c.correction) % 2 ^ p.sizeBits < c.array.length))

end PathCall

/-! ## The guards -/

theorem sizeT_natCast (p : Platform) (n : Nat) : p.sizeT (n : Int) = n % 2 ^ p.sizeBits := by
  unfold Platform.sizeT
  have hcast : ((n : Int) % 2 ^ p.sizeBits) = ((n % 2 ^ p.sizeBits : Nat) : Int) := by
    push_cast
    rfl
  rw [hcast, Int.toNat_natCast]

theorem resourcePathLength_eq (p : Platform) (parts : List Bytes) :
    resourcePathLength p parts = parts.flatten.length % 2 ^ p.sizeBits := by
  unfold resourcePathLength
  rw [sizeT_natCast, List.length_flatten]

/-- The guard of `handle_command` looks at one less than the length of the path,
also for an empty command id. -/
theorem resultsPathLength_eq (p : Platform) (appId authorId commandId : Bytes) (start : Nat) :
    resultsPathLength p appId authorId start (start + commandId.length) =
      ([thingIfAppPath, appId, targetPart, authorId, commandPart, commandId,
        resultsPart].flatten.length - 1) % 2 ^ p.sizeBits := by
  unfold resultsPathLength
  rw [← sizeT_natCast]
  congr 1
  have hconst : thingIfAppPath.length = 14 := rfl
  simp only [List.flatten_cons, List.flatten_nil, List.length_append, List.length_nil]
  omega

/-- A path shorter than the array passes the guard with its NUL inside. -/
theorem resultsPathLength_lt (p : Platform) {appId authorId commandId : Bytes}
    (hnul : (0 : Byte) ∉ commandId) (start : Nat) {bound : Nat}
    (h : (resultsPath appId authorId commandId).length < bound) :
    resultsPathLength p appId authorId start (start + commandId.length) < bound := by
  have hlen : [thingIfAppPath, appId, targetPart, authorId, commandPart, commandId,
      resultsPart].flatten.length = (resultsPath appId authorId commandId).length := by
    simp only [resultsPath, cstr_eq_self hnul, List.flatten_cons, List.flatten_nil,
      List.length_append, List.length_nil, Nat.add_zero]
  rw [resultsPathLength_eq, hlen]
  have hmod := Nat.mod_le ((resultsPath appId authorId commandId).length - 1) (2 ^ p.sizeBits)
  omega

/-! ## The writes -/

theorem holdsString_terminated {array : Bytes} (h : array ≠ []) :
    ∃ array', storeAt? array 0 [0] = some array' ∧ HoldsString array' [] ∧
      array'.length = array.length := by
  have hpos : 0 < array.length := List.length_pos_iff.mpr h
  have hle : 0 + [(0 : Byte)].length ≤ array.length := by
    rw [List.length_singleton]
    omega
  have hstore := storeAt?_inside hle
  exact ⟨_, hstore, ⟨_, rfl⟩, length_storeAt? hstore⟩

/-- The chain is one `strcat` for each part. -/
theorem chainPath_eq (array appId authorId front back : Bytes) (commandId : CText) :
    chainPath array appId authorId (front ++ (commandId.bytes ++ back)) front.length
        (front.length + commandId.bytes.length) =
      (storeAt? array 0 [0]).bind fun array' => strcatAll? array'
        [thingIfAppPath, appId, targetPart, authorId, commandPart, commandId.bytes,
          resultsPart] := by
  have hid : ∀ a : Bytes, strncat? a ((front ++ (commandId.bytes ++ back)).drop front.length)
      (front.length + commandId.bytes.length - front.length) = strcat? a commandId.bytes := by
    intro a
    unfold strncat?
    rw [List.drop_left, Nat.add_sub_cancel_left, List.take_left, cstr_eq_self commandId.nulFree]
  unfold chainPath
  simp only [hid, strcatAll?, Option.bind_eq_bind, Option.bind_assoc]
  congr
  funext a
  simp only [Option.bind_some, Option.bind_fun_some]

theorem nul_not_mem_constants :
    (0 : Byte) ∉ thingIfAppPath ∧ (0 : Byte) ∉ targetPart ∧ (0 : Byte) ∉ commandPart ∧
      (0 : Byte) ∉ resultsPart := by
  refine ⟨?_, ?_, ?_, ?_⟩ <;> decide

/-- The chain of `handle_command` writes the path when it fits, and else overruns. -/
theorem chainPath_cases (array : PathArray 256) (appId authorId commandId : CText)
    (front back : Bytes) :
    let parts := [thingIfAppPath, appId.bytes, targetPart, authorId.bytes, commandPart,
      commandId.bytes, resultsPart]
    let r := chainPath array.bytes appId.bytes authorId.bytes
      (front ++ (commandId.bytes ++ back)) front.length (front.length + commandId.bytes.length)
    (parts.flatten.length < 256 → ∃ array', r = some array' ∧
      HoldsString array' parts.flatten ∧ array'.length = 256) ∧
    (256 ≤ parts.flatten.length → r = none) := by
  simp only
  have hne : array.bytes ≠ [] := by
    intro hnil
    have := array.length_eq
    rw [hnil] at this
    cases this
  obtain ⟨array₀, hstore, hholds, hlen⟩ := holdsString_terminated hne
  rw [array.length_eq] at hlen
  rw [chainPath_eq, hstore, Option.bind_some]
  have hparts : ∀ t ∈ [thingIfAppPath, appId.bytes, targetPart, authorId.bytes, commandPart,
      commandId.bytes, resultsPart], (0 : Byte) ∉ t := by
    obtain ⟨h₁, h₂, h₃, h₄⟩ := nul_not_mem_constants
    intro t ht
    simp only [List.mem_cons, List.not_mem_nil, or_false] at ht
    rcases ht with rfl | rfl | rfl | rfl | rfl | rfl | rfl
    · exact h₁
    · exact appId.nulFree
    · exact h₂
    · exact authorId.nulFree
    · exact h₃
    · exact commandId.nulFree
    · exact h₄
  constructor
  · intro hlt
    obtain ⟨array', hcat, hholds', hlen'⟩ :=
      strcatAll?_fits hholds List.not_mem_nil hparts (by rw [hlen]; exact hlt)
    exact ⟨array', hcat, hholds', hlen'.trans hlen⟩
  · intro hle
    exact strcatAll?_overruns hholds List.not_mem_nil hparts (by rw [hlen]; exact hle)

/-! ## Guards and writes together -/

/-- What a guard on a measured length, followed by a write that is right about the
path, comes to. -/
theorem exact_iff_of_guard {size len measured : Nat} {write : Option Bytes} {path : Bytes}
    {result : PathWrite} (hresult : result = if size ≤ measured then .refused else .ofOption write)
    (hfits : len < size → ∃ array, write = some array ∧ HoldsString array path ∧
      array.length = size)
    (hoverruns : size ≤ len → write = none) (hmeasured : measured ≤ len) :
    (if len + 1 ≤ size then
        ∃ array, result = .written array ∧ HoldsString array path ∧ array.length = size
      else result = .refused) ↔ ¬ (size ≤ len ∧ measured < size) := by
  subst hresult
  by_cases hfit : len < size
  · obtain ⟨array, hwrite, hholds, hlen⟩ := hfits hfit
    rw [if_pos (Nat.succ_le_of_lt hfit), if_neg (by omega)]
    refine iff_of_true ⟨array, ?_, hholds, hlen⟩ (by omega)
    rw [hwrite]
    rfl
  · rw [if_neg (by omega)]
    by_cases hguard : size ≤ measured
    · exact iff_of_true (if_pos hguard) (by omega)
    · rw [if_neg hguard, hoverruns (by omega)]
      exact iff_of_false nofun (by omega)

/-- A measured length below the size, spelled out. -/
theorem misjudged_iff (p : Platform) (c : PathCall) :
    c.Misjudged p ↔ c.array.length ≤ c.path.length ∧
      (c.path.length - c.correction) % 2 ^ p.sizeBits < c.array.length := by
  unfold PathCall.Misjudged
  refine and_congr_right fun hle => ?_
  have hcorrection : c.correction = 0 ∨ c.correction = 1 := by
    cases c with
    | handleCommand => exact .inr rfl
    | _ => exact .inl rfl
  by_cases hwrap : 2 ^ p.sizeBits ≤ c.path.length - c.correction
  · have hmod : (c.path.length - c.correction) % 2 ^ p.sizeBits ≤
        c.path.length - c.correction := Nat.mod_le _ _
    constructor
    · rintro (⟨hone, hlen⟩ | ⟨-, hlt⟩)
      · have : 0 < c.path.length := by
          have hpos : 0 < 2 ^ p.sizeBits := Nat.two_pow_pos _
          omega
        omega
      · exact hlt
    · intro hlt
      exact .inr ⟨hwrap, hlt⟩
  · rw [Nat.mod_eq_of_lt (Nat.lt_of_not_le hwrap)]
    constructor
    · rintro (⟨hone, hlen⟩ | ⟨hwraps, -⟩)
      · have hpath : 0 < c.path.length := by
          cases c with
          | handleCommand appId authorId commandId front back array =>
              show 0 < [thingIfAppPath, _, _, _, _, _, _].flatten.length
              have hconst : thingIfAppPath.length = 14 := rfl
              rw [List.flatten_cons, List.length_append]
              omega
          | _ => cases hone
        omega
      · exact absurd hwraps hwrap
    · intro hlt
      left
      omega

/-- A builder is exact unless the path does not fit and the measured length does. -/
theorem exact_iff_measured (p : Platform) (c : PathCall) :
    c.Exact p ↔ ¬ (c.array.length ≤ c.path.length ∧
      (c.path.length - c.correction) % 2 ^ p.sizeBits < c.array.length) := by
  have hprint : ∀ parts array, printPath p parts array =
      if array.length ≤ (parts.flatten.length - 0) % 2 ^ p.sizeBits then .refused
      else .ofOption (sprintf? array parts) := by
    intro parts array
    rw [printPath, resourcePathLength_eq, Nat.sub_zero]
  cases c with
  | handleCommand appId authorId commandId front back array =>
      obtain ⟨hfits, hoverruns⟩ := chainPath_cases array appId authorId commandId front back
      have hlen : (PathCall.handleCommand appId authorId commandId front back array).array.length =
          256 := array.length_eq
      unfold PathCall.Exact
      rw [hlen]
      refine exact_iff_of_guard ?_ hfits hoverruns
        ((Nat.mod_le _ _).trans (Nat.sub_le _ _))
      rw [PathCall.run, commandPath, resultsPathLength_eq]
      rfl
  | _ =>
      exact exact_iff_of_guard (hprint _ _) sprintf?_fits sprintf?_overruns
        ((Nat.mod_le _ _).trans (Nat.sub_le _ _))

/-- A builder is exact unless its guard misjudges the path. -/
theorem PathCall.exact_iff (p : Platform) (c : PathCall) : c.Exact p ↔ ¬ c.Misjudged p := by
  rw [misjudged_iff]
  exact exact_iff_measured p c

/-- An id of 195 letters. -/
def longCommandId : CText where
  bytes := List.replicate 195 97
  nulFree := by decide

/-- The path of that command has 256 bytes, and its NUL is written behind the array. -/
theorem longCommandId_not_exact :
    ¬ (PathCall.handleCommand ⟨ascii "app", by decide⟩ ⟨ascii "th.1", by decide⟩ longCommandId
      [] [] ⟨List.replicate 256 0, List.length_replicate⟩).Exact
        { sizeBits := 32
          intBits := 32
          authorSizes := { authorId := 128, accessToken := 128 } } := by
  rw [exact_iff_measured, not_not]
  have hlen : (PathCall.handleCommand ⟨ascii "app", by decide⟩ ⟨ascii "th.1", by decide⟩
      longCommandId [] [] ⟨List.replicate 256 0, List.length_replicate⟩).path.length = 256 := by
    have hid : longCommandId.bytes.length = 195 := List.length_replicate
    simp only [PathCall.path, PathCall.parts, List.flatten_cons, List.flatten_nil,
      List.length_append, hid]
    rfl
  have harray : (PathCall.handleCommand ⟨ascii "app", by decide⟩ ⟨ascii "th.1", by decide⟩
      longCommandId [] [] ⟨List.replicate 256 0, List.length_replicate⟩).array.length = 256 :=
    List.length_replicate
  rw [hlen, harray]
  exact ⟨Nat.le_refl 256, by decide⟩

end ThingIfSdk
