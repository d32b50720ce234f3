import ThingIfSdk.Lib.Register
import ThingIfSdk.Requests.Escaping
import ThingIfSdk.System.Server

/-!
# The two properties as registers

The firmware version and the thing type are registers that the application writes and
reads over a line that loses answers.  Whatever it calls and in whatever order, a getter
that succeeds returns the value of the last update that was confirmed, or of one that was
sent later and not confirmed; and what the getters return goes together.
-/

namespace ThingIfSdk

open ByteText JsonText Staging Running Registers

variable {σ : Type}

/-! ## Properties -/

inductive Property where
  | firmwareVersion
  | thingType
deriving DecidableEq

def Property.update : Property → Bytes → Operation
  | .firmwareVersion => .updateFirmwareVersion
  | .thingType => .updateThingType

def Property.get : Property → Nat → Operation
  | .firmwareVersion => .getFirmwareVersion
  | .thingType => .getThingType

def Property.key : Property → Str
  | .firmwareVersion => firmwareVersionKey
  | .thingType => thingTypeKey

/-- The path of the field in a response. -/
def Property.field : Property → Bytes
  | .firmwareVersion => ascii "/firmwareVersion"
  | .thingType => ascii "/thingType"

def Property.resourcePath (appId authorId : Bytes) : Property → Bytes
  | .firmwareVersion => RequestKind.getFirmwareVersion.resourcePath appId authorId
  | .thingType => RequestKind.getThingType.resourcePath appId authorId

/-- The text that an update to a value puts. -/
def Property.text (p : Property) (value : Bytes) : Bytes :=
  updateText p.key.raw value

theorem resourcePath_injective (appId authorId : Bytes) :
    Function.Injective (Property.resourcePath appId authorId) := by
  intro p q h
  cases p with
  | firmwareVersion =>
      cases q with
      | firmwareVersion => rfl
      | thingType => exact absurd h (firmwareVersion_path_ne appId authorId appId)
  | thingType =>
      cases q with
      | firmwareVersion => exact absurd h.symm (firmwareVersion_path_ne appId authorId appId)
      | thingType => rfl

/-- The parser reads a value back from the text of its update, if it fits. -/
def ReadsUpdates (json : JsonApi) : Prop :=
  ∀ (p : Property) (value : Bytes) (size : Nat), (∀ b ∈ value, isPlain b = true) →
    let r := json.kiiJsonReadObject (p.text value) [propertyField p.field size]
    r.1 = .success → value.length < size ∧ (r.2 0).copied = some value

/-! ## What the application learns -/

/-- The value of the last update of a property; none before the first. -/
abbrev Content := Option Bytes

/-- A getter with room for `size` bytes can return this on that content.  What stands
on the server before the first update is not known. -/
def IsReadOf (size : Nat) (out : Option Bytes) (content : Content) : Prop :=
  ∀ value, content = some value → out = some value ∧ value.length < size

abbrev ApiStep (σ : Type) := Step (KiiThingIf σ) Invocation (Outcome σ)

/-- The call has run its request. -/
def IsSent (x : ApiStep σ) : Prop :=
  ∃ e ∈ newEvents x.before.commandHandler x.after.commandHandler, e.isRun = true

instance (x : ApiStep σ) : Decidable (IsSent x) :=
  inferInstanceAs (Decidable (∃ e ∈ _, _))

def writeAccess (x : ApiStep σ) (value : Bytes) : Access Content :=
  if x.output.ret = true then .write (some value)
  else if IsSent x then .attempt (some value)
  else .idle

def readAccess (x : ApiStep σ) (size : Nat) : Access Content :=
  if x.output.ret = true then .observe {content | IsReadOf size x.output.out content} else .idle

/-- The property that a call is about, and what the application knows of the access. -/
def accessOf (x : ApiStep σ) : Property × Access Content :=
  match x.input.operation with
  | .updateFirmwareVersion value => (.firmwareVersion, writeAccess x value)
  | .updateThingType value => (.thingType, writeAccess x value)
  | .getFirmwareVersion size => (.firmwareVersion, readAccess x size)
  | .getThingType size => (.thingType, readAccess x size)
  | _ => (.firmwareVersion, .idle)

def learnStep (possible : Property → Set Content) (x : ApiStep σ) : Property → Set Content :=
  learn possible (accessOf x).1 (accessOf x).2

/-- The contents that are possible behind these calls. -/
def learnt (steps : List (ApiStep σ)) : Property → Set Content :=
  steps.foldl learnStep fun _ => {none}

/-- The call updates the property to a value, and succeeds or at least has run its
request. -/
def Sends (p : Property) (value : Bytes) (x : ApiStep σ) : Prop :=
  x.input.operation = p.update value ∧ (x.output.ret = true ∨ IsSent x)

/-- The call updates the property and succeeds. -/
def Confirms (p : Property) (x : ApiStep σ) : Prop :=
  ∃ value, x.input.operation = p.update value ∧ x.output.ret = true

/-- How calls come to leave a content behind. -/
inductive Leaves (p : Property) (steps : List (ApiStep σ)) : Content → Prop where
  | untouched (h : ∀ x ∈ steps, ¬ Confirms p x) : Leaves p steps none
  | sent {value : Bytes} {front behind : List (ApiStep σ)} {x : ApiStep σ}
      (hsteps : steps = front ++ x :: behind) (hsends : Sends p value x)
      (hbehind : ∀ y ∈ behind, ¬ Confirms p y) : Leaves p steps (some value)

theorem Property.update_inj {p q : Property} {value value' : Bytes}
    (h : p.update value = q.update value') : p = q ∧ value = value' := by
  cases p <;> cases q <;> cases h <;> exact ⟨rfl, rfl⟩

theorem Property.get_ne_update (p q : Property) (size : Nat) (value : Bytes) :
    p.get size ≠ q.update value := by
  cases p <;> cases q <;> exact nofun

/-- A call is an update, a getter, or about none of the properties. -/
theorem access_cases (x : ApiStep σ) :
    (∃ (p : Property) (value : Bytes), x.input.operation = p.update value ∧
        accessOf x = (p, writeAccess x value)) ∨
      (∃ (p : Property) (size : Nat), x.input.operation = p.get size ∧ accessOf x = (p, readAccess x size)) ∨
      (∀ (p : Property) value, x.input.operation ≠ p.update value) ∧
        (∀ (p : Property) size, x.input.operation ≠ p.get size) ∧
        accessOf x = (.firmwareVersion, .idle) := by
  unfold accessOf
  cases x.input.operation with
  | updateFirmwareVersion value => exact .inl ⟨.firmwareVersion, value, rfl, rfl⟩
  | updateThingType value => exact .inl ⟨.thingType, value, rfl, rfl⟩
  | getFirmwareVersion size => exact .inr (.inl ⟨.firmwareVersion, size, rfl, rfl⟩)
  | getThingType size => exact .inr (.inl ⟨.thingType, size, rfl, rfl⟩)
  | _ =>
      refine .inr (.inr ⟨fun p value => ?_, fun p size => ?_, rfl⟩)
      · cases p <;> exact nofun
      · cases p <;> exact nofun

/-- An access that is no confirmed write leaves what was possible, or adds what was sent. -/
theorem mem_after_writeAccess {possible : Set Content} {x : ApiStep σ} {value : Bytes}
    {content : Content} (h : content ∈ (writeAccess x value).after possible) :
    (content ∈ possible ∧ x.output.ret = false) ∨
      content = some value ∧ (x.output.ret = true ∨ IsSent x) := by
  unfold writeAccess at h
  split at h
  · rename_i hret
    exact .inr ⟨h, .inl hret⟩
  · rename_i hret
    split at h
    · rename_i hsent
      rcases h with rfl | h
      · exact .inr ⟨rfl, .inr hsent⟩
      · exact .inl ⟨h, eq_false_of_ne_true hret⟩
    · exact .inl ⟨h, eq_false_of_ne_true hret⟩

theorem mem_after_readAccess {possible : Set Content} {x : ApiStep σ} {size : Nat}
    {content : Content} (h : content ∈ (readAccess x size).after possible) :
    content ∈ possible := by
  unfold readAccess at h
  split at h
  · exact h.1
  · exact h

theorem Leaves.snoc {p : Property} {steps : List (ApiStep σ)} {content : Content}
    (h : Leaves p steps content) {x : ApiStep σ} (hx : ¬ Confirms p x) :
    Leaves p (steps ++ [x]) content := by
  cases h with
  | untouched hsteps =>
      refine .untouched fun y hy => ?_
      rcases List.mem_append.mp hy with hy | hy
      · exact hsteps y hy
      · rw [List.mem_singleton.mp hy]
        exact hx
  | @sent value front behind z hsteps hsends hbehind =>
      refine @Leaves.sent _ p _ value front (behind ++ [x]) z ?_ hsends fun y hy => ?_
      · rw [hsteps, List.append_assoc, List.cons_append]
      · rcases List.mem_append.mp hy with hy | hy
        · exact hbehind y hy
        · rw [List.mem_singleton.mp hy]
          exact hx

theorem leaves_sent (p : Property) (steps : List (ApiStep σ)) {x : ApiStep σ} {value : Bytes}
    (h : Sends p value x) : Leaves p (steps ++ [x]) (some value) :=
  .sent rfl h fun _ hy => absurd hy List.not_mem_nil

/-- What one more call teaches of a property. -/
theorem mem_learnStep {possible : Property → Set Content} {x : ApiStep σ} {p : Property}
    {content : Content} (h : content ∈ learnStep possible x p) :
    (content ∈ possible p ∧ ¬ Confirms p x) ∨
      ∃ value, content = some value ∧ Sends p value x := by
  rcases access_cases x with ⟨q, value, hop, haccess⟩ | ⟨q, size, hop, haccess⟩ |
    ⟨hupdate, -, haccess⟩
  · by_cases hp : p = q
    · subst hp
      rw [learnStep, haccess, learn, Function.update_self] at h
      rcases mem_after_writeAccess h with ⟨hmem, hret⟩ | ⟨rfl, hsent⟩
      · refine .inl ⟨hmem, ?_⟩
        rintro ⟨-, -, htrue⟩
        rw [hret] at htrue
        cases htrue
      · exact .inr ⟨value, rfl, hop, hsent⟩
    · rw [learnStep, haccess, learn, Function.update_of_ne hp] at h
      refine .inl ⟨h, ?_⟩
      rintro ⟨value', hop', -⟩
      exact hp (Property.update_inj (hop'.symm.trans hop)).1
  · have hnot : ¬ Confirms p x := by
      rintro ⟨value, hop', -⟩
      exact Property.get_ne_update q p size value (hop.symm.trans hop')
    by_cases hp : p = q
    · subst hp
      rw [learnStep, haccess, learn, Function.update_self] at h
      exact .inl ⟨mem_after_readAccess h, hnot⟩
    · rw [learnStep, haccess, learn, Function.update_of_ne hp] at h
      exact .inl ⟨h, hnot⟩
  · have hnot : ¬ Confirms p x := by
      rintro ⟨value, hop, -⟩
      exact hupdate p value hop
    rw [learnStep, haccess, learn, Access.after, Function.update_eq_self] at h
    exact .inl ⟨h, hnot⟩

/-- Every possible content was left behind by the calls. -/
theorem leaves_of_mem {steps : List (ApiStep σ)} {p : Property} {content : Content}
    (h : content ∈ learnt steps p) : Leaves p steps content := by
  induction steps using List.reverseRecOn generalizing content with
  | nil =>
      rw [show content = none from h]
      exact .untouched fun _ hx => absurd hx List.not_mem_nil
  | append_singleton steps x ih =>
      unfold learnt at h
      rw [List.foldl_append] at h
      rcases mem_learnStep h with ⟨hmem, hx⟩ | ⟨value, rfl, hsends⟩
      · exact (ih hmem).snoc hx
      · exact leaves_sent p steps hsends

/-! ## Reading a value back -/

/-- The document that an update puts. -/
def Property.doc (p : Property) (value : Str) : Doc :=
  Doc.bare (objectOf p.key (.str value))

theorem Property.text_eq_render (p : Property) {value : Bytes}
    (h : ∀ b ∈ value, isPlain b = true) : p.text value = (p.doc (Str.ofPlain value h)).render := by
  have htext := updatePieces_text p.key value
  rw [Property.text, updateText, htext, Property.doc, Doc.render_bare]
  simp only [updateTemplate, Template.text, TemplateMembers.text_compact, objectOf, Value.render,
    Members.render, Str.raw_ofPlain, Ws.none]
  simp [templateMember, Template.text]

theorem lookup_doc (p : Property) (value : Str) :
    ∃ o, lookup (p.doc value).val (.path p.field) = some (o, .str value) := by
  cases p <;> exact ⟨_, rfl⟩

theorem readField_doc (p : Property) (value : Str) (size : Nat) :
    (value.raw.length < size →
      (readField (p.doc value) (propertyField p.field size)).result = .success ∧
        (readField (p.doc value) (propertyField p.field size)).copied = some value.raw) ∧
      (¬ value.raw.length < size →
        (readField (p.doc value) (propertyField p.field size)).result = .copyFailed) := by
  obtain ⟨o, hlookup⟩ := lookup_doc p value
  have hkind : (Value.str value).kind = JsonFieldType.string.kind := rfl
  have htext : (Value.str value).tokenText = value.raw := rfl
  simp only [readField, propertyField, hlookup, hkind, htext, ne_eq, not_true_eq_false, if_false]
  constructor
  · intro hfits
    rw [if_pos hfits]
    exact ⟨rfl, rfl⟩
  · intro hfits
    rw [if_neg hfits]

theorem referenceRead_doc {budget : Nat} (hbudget : 3 ≤ budget) (p : Property) (value : Str)
    (f : JsonField) :
    referenceRead budget (p.doc value).render [f] =
      (if (readField (p.doc value) f).result = .success then .success else .partialSuccess,
        fun i => ([readField (p.doc value) f][i]?).getD missingField) := by
  have hcount : ¬ budget < (p.doc value).val.tokenCount := Nat.not_lt.mpr hbudget
  have hkind : (p.doc value).val.kind = .array ∨ (p.doc value).val.kind = .object := .inr rfl
  unfold referenceRead
  rw [parseDoc_render]
  simp only [if_neg hcount, if_pos hkind, List.map_cons, List.map_nil, List.all_cons, List.all_nil,
    Bool.and_true, decide_eq_true_eq]

theorem referenceJson_readsUpdates {budget : Nat} (hbudget : 3 ≤ budget) :
    ReadsUpdates (referenceJson budget) := by
  intro p value size hplain
  have hread := referenceRead_doc hbudget p (Str.ofPlain value hplain) (propertyField p.field size)
  rw [← p.text_eq_render hplain] at hread
  simp only [referenceJson, hread]
  obtain ⟨hfits, hlong⟩ := readField_doc p (Str.ofPlain value hplain) size
  rw [Str.raw_ofPlain] at hfits hlong
  by_cases hlen : value.length < size
  · obtain ⟨-, hcopied⟩ := hfits hlen
    exact fun _ => ⟨hlen, hcopied⟩
  · have hfailed := hlong hlen
    simp only [hfailed, reduceCtorEq, if_false, IsEmpty.forall_iff]

/-! ## Calls on a server -/

section

variable {sdk : Sdk σ} (server : PropertyServer sdk.api)

/-- The text that stands for a content, on top of the initial ones. -/
def Property.textOf (initial : Property → Bytes) (p : Property) (content : Content) : Bytes :=
  content.elim (initial p) p.text

/-- The server holds these contents under the paths of a `kii_t`. -/
structure Represents (initial : Property → Bytes) (kii : Kii σ)
    (contents : Property → Content) : Prop where
  stored : ∀ p : Property, server.stored kii.core (p.resourcePath kii.appId kii.author.authorId) =
    p.textOf initial (contents p)
  plain : ∀ p value, contents p = some value → ∀ b ∈ value, isPlain b = true

theorem refusePath_quiet (kii : Kii σ) : ∀ e ∈ newEvents kii kii.refusePath, e.isRun = false := by
  have hlog : kii.refusePath.log = kii.log ++ [.assertion, .pathTooLong] := by
    rw [Kii.refusePath, Kii.emit_log, Kii.emit_log, List.append_assoc]
    rfl
  rw [newEvents_eq hlog]
  intro e he
  simp only [List.mem_cons, List.not_mem_nil, or_false] at he
  rcases he with rfl | rfl <;> rfl

/-- An update, whatever the state of the instance. -/
theorem whenOnboarded_updated {setPath : PathBuilder} {path : Bytes → Bytes → Bytes}
    (hpath : ∀ appId authorId built, setPath appId authorId 128 = some built →
      built = path appId authorId)
    (contentType key value : Bytes) (thing : KiiThingIf σ) (error : ErrorSlot) :
    let out := whenOnboarded thing error fun c =>
      let r := updateProperty sdk setPath contentType key value c
      (r.1, r.2, none)
    Updated server (path thing.commandHandler.appId thing.commandHandler.author.authorId)
      (updateText key value) thing.commandHandler out.thing.commandHandler out.ret := by
  have hrefused : ∀ path text : Bytes,
      Updated server path text thing.commandHandler thing.commandHandler false := by
    intro path text
    refine .unsent rfl ?_
    rw [newEvents_self]
    exact fun e he => absurd he List.not_mem_nil
  unfold whenOnboarded
  cases thing.state with
  | initialized => exact hrefused _ _
  | started => exact hrefused _ _
  | onboarded =>
      cases hset : setPath thing.commandHandler.appId thing.commandHandler.author.authorId 128 with
      | none =>
          have hgiveUp : updateProperty sdk setPath contentType key value
              ⟨thing.commandHandler, error⟩ =
                (false, ⟨thing.commandHandler.refusePath, error⟩) := by
            unfold updateProperty
            simp only [hset]
          simp only [hgiveUp]
          exact .unsent rfl (refusePath_quiet thing.commandHandler)
      | some built =>
          have hupdated := @updateProperty_updated _ sdk server setPath contentType key value built
            ⟨thing.commandHandler, error⟩ hset
          rw [hpath _ _ _ hset] at hupdated
          exact hupdated

/-- A getter, whatever the state of the instance. -/
theorem whenOnboarded_got {setPath : PathBuilder} {path : Bytes → Bytes → Bytes}
    (hpath : ∀ appId authorId built, setPath appId authorId 128 = some built →
      built = path appId authorId)
    (field : Bytes) (size : Nat) (thing : KiiThingIf σ) (error : ErrorSlot) :
    let out := whenOnboarded thing error (requestProperty sdk setPath field size)
    Got server (path thing.commandHandler.appId thing.commandHandler.author.authorId) field size
      thing.commandHandler out.thing.commandHandler out.ret out.out := by
  unfold whenOnboarded
  cases thing.state with
  | initialized => exact ⟨rfl, nofun⟩
  | started => exact ⟨rfl, nofun⟩
  | onboarded =>
      cases hset : setPath thing.commandHandler.appId thing.commandHandler.author.authorId 128 with
      | none =>
          have hgiveUp : requestProperty sdk setPath field size ⟨thing.commandHandler, error⟩ =
              (false, ⟨thing.commandHandler.refusePath, error⟩, none) := by
            unfold requestProperty
            simp only [hset]
          simp only [hgiveUp]
          exact ⟨rfl, nofun⟩
      | some built =>
          have hgot := @requestProperty_got _ sdk server setPath field built size
            ⟨thing.commandHandler, error⟩ hset
          rw [hpath _ _ _ hset] at hgot
          exact hgot

theorem update_updated (p : Property) (value : Bytes) (thing : KiiThingIf σ) (error : ErrorSlot) :
    let out := (p.update value).run sdk thing error
    Updated server (p.resourcePath thing.commandHandler.appId thing.commandHandler.author.authorId)
      (p.text value) thing.commandHandler out.thing.commandHandler out.ret := by
  cases p with
  | firmwareVersion =>
      exact whenOnboarded_updated server (fun _ _ _ => resourcePath_of_set) _ _ value thing error
  | thingType =>
      exact whenOnboarded_updated server (fun _ _ _ => resourcePath_of_set) _ _ value thing error

theorem get_got (p : Property) (size : Nat) (thing : KiiThingIf σ) (error : ErrorSlot) :
    let out := (p.get size).run sdk thing error
    Got server (p.resourcePath thing.commandHandler.appId thing.commandHandler.author.authorId)
      p.field size thing.commandHandler out.thing.commandHandler out.ret out.out := by
  cases p with
  | firmwareVersion =>
      exact whenOnboarded_got server (fun _ _ _ => resourcePath_of_set) _ size thing error
  | thingType =>
      exact whenOnboarded_got server (fun _ _ _ => resourcePath_of_set) _ size thing error

theorem start_leavesStored (thing : KiiThingIf σ) :
    server.stored (start sdk thing).2.commandHandler.core =
      server.stored thing.commandHandler.core := by
  have hpush := server.push_stored thing.commandHandler.core
  unfold start
  simp only
  split
  · rfl
  · split
    · exact hpush
    · exact hpush

/-! ## Steps -/

/-- A call that is no initialisation and no onboarding; the value of an update is plain. -/
structure IsPropertyUse (op : Operation) : Prop where
  notInit : op.isInit = false
  notOnboarding : op.isOnboarding = false
  plain : ∀ (p : Property) value, op = p.update value → ∀ b ∈ value, isPlain b = true

/-- The call leaves the instance in the hands of the same app and thing. -/
structure SameOwner (before after : Kii σ) : Prop where
  appId : after.appId = before.appId
  authorId : after.author.authorId = before.author.authorId

section

variable {server} {initial : Property → Bytes} {before after : Kii σ}
  {contents : Property → Content} (h : Represents server initial before contents)
  (howner : SameOwner before after)

include h howner

theorem Represents.same (hstored : server.stored after.core = server.stored before.core) :
    Represents server initial after contents := by
  refine ⟨fun p => ?_, h.plain⟩
  rw [hstored, howner.appId, howner.authorId]
  exact h.stored p

theorem Represents.put {p : Property} {value : Bytes} (hplain : ∀ b ∈ value, isPlain b = true)
    (hstored : server.stored after.core = Function.update (server.stored before.core)
      (p.resourcePath before.appId before.author.authorId) (p.text value)) :
    Represents server initial after (Function.update contents p (some value)) := by
  constructor
  · intro q
    rw [hstored, howner.appId, howner.authorId]
    by_cases hq : q = p
    · subst hq
      rw [Function.update_self, Function.update_self]
      rfl
    · have hpath := (resourcePath_injective before.appId before.author.authorId).ne hq
      rw [Function.update_of_ne hpath, Function.update_of_ne hq]
      exact h.stored q
  · intro q value' hvalue
    by_cases hq : q = p
    · subst hq
      rw [Function.update_self, Option.some.injEq] at hvalue
      rw [← hvalue]
      exact hplain
    · rw [Function.update_of_ne hq] at hvalue
      exact h.plain q value' hvalue

end

/-- A getter that succeeds has read the content. -/
theorem isReadOf_of_got (hjson : ReadsUpdates sdk.json) {initial : Property → Bytes}
    {before after : Kii σ} {contents : Property → Content}
    (h : Represents server initial before contents) {p : Property} {size : Nat}
    {out : Option Bytes} (hgot : Got server (p.resourcePath before.appId before.author.authorId)
      p.field size before after true out) : IsReadOf size out (contents p) := by
  intro value hvalue
  obtain ⟨hsuccess, hout⟩ := hgot.answer rfl
  rw [h.stored p, hvalue] at hsuccess hout
  obtain ⟨hlen, hcopied⟩ := hjson p value size (h.plain p value hvalue) hsuccess
  refine ⟨?_, hlen⟩
  rw [hout]
  exact congrArg some (congrArg (fun o : Option Bytes => o.getD []) hcopied)

/-- Every call acts on the registers as its label says. -/
theorem represents_step (hjson : ReadsUpdates sdk.json) {initial : Property → Bytes}
    {x : ApiStep σ} (hx : x = (apiMachine sdk).stepAt x.before x.input)
    (huse : IsPropertyUse x.input.operation) {contents : Property → Content}
    (h : Represents server initial x.before.commandHandler contents) :
    ∃ contents', Represents server initial x.after.commandHandler contents' ∧
      ActsAt (accessOf x).1 (accessOf x).2 contents contents' := by
  have houtput : x.output = x.input.operation.run sdk x.before x.input.error := by rw [hx]; rfl
  have hafter : x.after = x.output.thing := by rw [hx]; rfl
  have howner : SameOwner x.before.commandHandler x.after.commandHandler := by
    rw [hafter, houtput]
    have hsigned := operation_signs sdk x.before x.input.error huse.notInit huse.notOnboarding
    exact ⟨hsigned.branded.appId, congrArg Author.authorId hsigned.author⟩
  rcases access_cases x with ⟨p, value, hop, haccess⟩ | ⟨p, size, hop, haccess⟩ |
    ⟨hupdate, hget, haccess⟩
  · have hplain := huse.plain p value hop
    have hupdated := update_updated server p value x.before x.input.error
    simp only [← hop, ← houtput, ← hafter] at hupdated
    rw [haccess]
    generalize hret : x.output.ret = ret at hupdated
    cases hupdated with
    | unsent hstored hlog =>
        have hnot : ¬ IsSent x := by
          rintro ⟨e, he, hrun⟩
          rw [hlog e he] at hrun
          cases hrun
        have hlabel : writeAccess x value = .idle := by
          rw [writeAccess, hret, if_neg Bool.false_ne_true, if_neg hnot]
        rw [hlabel]
        exact ⟨contents, h.same howner hstored, actsAt_same (.idle _)⟩
    | sent hran hstored hconfirmed =>
        cases ret with
        | true =>
            have hlabel : writeAccess x value = .write (some value) := by
              rw [writeAccess, hret, if_pos rfl]
            rw [hlabel]
            exact ⟨_, h.put howner hplain (hconfirmed rfl), actsAt_write p (some value) contents⟩
        | false =>
            have hsent : IsSent x := hran
            have hlabel : writeAccess x value = .attempt (some value) := by
              rw [writeAccess, hret, if_neg Bool.false_ne_true, if_pos hsent]
            rw [hlabel]
            -- the answer was lost, and the update has come through or it has not
            rcases hstored with hsame | hput
            · exact ⟨contents, h.same howner hsame, actsAt_same (.lost _ _)⟩
            · exact ⟨_, h.put howner hplain hput, actsAt_unconfirmed p (some value) contents⟩
  · have hgot := get_got server p size x.before x.input.error
    simp only [← hop, ← houtput, ← hafter] at hgot
    refine ⟨contents, h.same howner hgot.stored, ?_⟩
    rw [haccess]
    refine actsAt_same ?_
    unfold readAccess
    split
    · rename_i hret
      rw [hret] at hgot
      exact .observe (isReadOf_of_got server hjson h hgot)
    · exact .idle _
  · refine ⟨contents, h.same howner ?_, ?_⟩
    · rw [hafter, houtput]
      have hinit := huse.notInit
      have honboarding := huse.notOnboarding
      cases hop : x.input.operation with
      | start => exact start_leavesStored server x.before
      | getFirmwareVersion size => exact absurd hop (hget .firmwareVersion size)
      | getThingType size => exact absurd hop (hget .thingType size)
      | updateFirmwareVersion value => exact absurd hop (hupdate .firmwareVersion value)
      | updateThingType value => exact absurd hop (hupdate .thingType value)
      | init args =>
          rw [hop] at hinit
          cases hinit
      | initWithOnboardedThing args thingId accessToken =>
          rw [hop] at hinit
          cases hinit
      | onboardWithVendorThingId args =>
          rw [hop] at honboarding
          cases honboarding
      | onboardWithThingId args =>
          rw [hop] at honboarding
          cases honboarding
    · rw [haccess]
      exact actsAt_same (.idle _)

/-! ## Runs -/

/-- What a getter returns stands on one of the contents that are possible behind the
calls before it, and that the calls have left behind. -/
def Explained (p : Property) (front : List (ApiStep σ)) (size : Nat) (out : Option Bytes) : Prop :=
  ∃ content ∈ learnt front p, IsReadOf size out content ∧ Leaves p front content

/-- Nothing is known of the text that stands under a path before the first update. -/
theorem represents_start (kii : Kii σ) :
    Represents server (fun p => server.stored kii.core
      (p.resourcePath kii.appId kii.author.authorId)) kii fun _ => none :=
  ⟨fun _ => rfl, nofun⟩

/-- In every run of calls, every getter that succeeds is explained by the calls before. -/
theorem getters_explained (server : PropertyServer sdk.api) (hjson : ReadsUpdates sdk.json)
    (thing : KiiThingIf σ) {calls : List Invocation}
    (huse : ∀ call ∈ calls, IsPropertyUse call.operation)
    {front rest : List (ApiStep σ)} {x : ApiStep σ}
    (hsteps : (apiMachine sdk).steps thing calls = front ++ x :: rest) {p : Property} {size : Nat}
    (hget : x.input.operation = p.get size) (hret : x.output.ret = true) :
    Explained p front size x.output.out := by
  let initial : Property → Bytes := fun p => server.stored thing.commandHandler.core
    (p.resourcePath thing.commandHandler.appId thing.commandHandler.author.authorId)
  let Agrees : KiiThingIf σ → (Property → Set Content) → Prop := fun thing possible =>
    ∃ contents, Represents server initial thing.commandHandler contents ∧ Within contents possible
  have hstart : Agrees thing fun _ => {none} :=
    ⟨fun _ => none, represents_start server thing.commandHandler, fun _ => rfl⟩
  have hkeeps : ∀ y ∈ (apiMachine sdk).steps thing calls, ∀ possible, Agrees y.before possible →
      Agrees y.after (learnStep possible y) := by
    rintro y hy possible ⟨contents, hrepresents, hwithin⟩
    obtain ⟨contents', hrepresents', hacts⟩ := represents_step server hjson
      (Transducer.eq_stepAt_of_mem hy) (huse y.input (Transducer.input_mem hy)) hrepresents
    exact ⟨contents', hrepresents', hacts.within hwithin⟩
  obtain ⟨contents, hrepresents, hwithin⟩ := (Transducer.observed hstart hkeeps hsteps).1
  have hmem : x ∈ (apiMachine sdk).steps thing calls := by
    rw [hsteps]
    exact List.mem_append_right _ List.mem_cons_self
  have houtput : x.output = (p.get size).run sdk x.before x.input.error := by
    rw [← hget, Transducer.eq_stepAt_of_mem hmem]
    rfl
  have hgot := get_got server p size x.before x.input.error
  simp only [← houtput, hret] at hgot
  exact ⟨contents p, hwithin p, isReadOf_of_got server hjson hrepresents hgot,
    leaves_of_mem (hwithin p)⟩

end

/-! ## A run -/

def keepingSdk : Sdk Keeping where
  api := keepingApi
  json := referenceJson 64
  platform := referencePlatform

/-- An onboarded thing on that server, with a version that its vendor has put there. -/
def keepingThing : KiiThingIf Keeping where
  commandHandler :=
    { Kii.zeroed keepingSdk with
      appId := ascii "app"
      author := ⟨ascii "th.1", ascii "token"⟩
      core := { keepingApi.zeroed with
        texts := fun _ => Property.firmwareVersion.text (ascii "1.0") } }
  stateUpdater := Kii.zeroed keepingSdk
  stateUpdatePeriod := 60
  state := .onboarded

def versionUpdate : Invocation := ⟨.updateFirmwareVersion (ascii "1.1"), ⟨none, []⟩⟩

def versionGet : Invocation := ⟨.getFirmwareVersion 16, ⟨none, []⟩⟩

def updatedStep : ApiStep Keeping :=
  (apiMachine keepingSdk).stepAt keepingThing versionUpdate

def gotStep : ApiStep Keeping :=
  (apiMachine keepingSdk).stepAt updatedStep.after versionGet

theorem gotStep_explained :
    gotStep.output.out = some (ascii "1.1") ∧
      Explained .firmwareVersion [updatedStep] 16 gotStep.output.out := by
  refine ⟨by decide +kernel, ?_⟩
  refine getters_explained keepingServer (referenceJson_readsUpdates (by decide)) keepingThing ?_
    (rfl : (apiMachine keepingSdk).steps keepingThing [versionUpdate, versionGet] =
      [updatedStep] ++ gotStep :: []) rfl (by decide +kernel)
  intro call hcall
  simp only [List.mem_cons, List.not_mem_nil, or_false] at hcall
  rcases hcall with rfl | rfl
  · refine ⟨rfl, rfl, fun p value hop => ?_⟩
    cases p <;> cases hop
    exact all_plain rfl
  · refine ⟨rfl, rfl, fun p value hop => ?_⟩
    cases p <;> cases hop

end ThingIfSdk
