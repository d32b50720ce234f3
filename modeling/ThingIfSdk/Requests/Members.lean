import ThingIfSdk.Lib.JsonTemplate
import ThingIfSdk.Requests.Discipline

/-!
# The members of an onboarding body

The optional arguments of the onboarding functions are left out when they are
NULL, and only then: an empty string is appended like any other.  So the body has
exactly the members that were supplied when no optional argument is empty, and
an empty text of properties leaves a key without a value behind.
-/

namespace ThingIfSdk

open ByteText JsonText Staging

variable {σ : Type}

/-! ## The two functions -/

inductive OnboardFunction where
  | onboardWithVendorThingId
  | onboardWithThingId

namespace OnboardFunction

/-- The key of the id, which needs no escaping. -/
def idStr : OnboardFunction → Str
  | .onboardWithVendorThingId => Str.ofPlain (ascii "vendorThingID") (all_plain rfl)
  | .onboardWithThingId => Str.ofPlain (ascii "thingID") plain_thingID

def idKey : OnboardFunction → Bytes
  | .onboardWithVendorThingId => ascii "vendorThingID"
  | .onboardWithThingId => ascii "thingID"

theorem raw_idStr (f : OnboardFunction) : f.idStr.raw = f.idKey := by
  cases f with
  | onboardWithVendorThingId => exact Str.raw_ofPlain _ _
  | onboardWithThingId => exact Str.raw_ofPlain _ _

theorem decode_idStr (f : OnboardFunction) : Str.decode f.idStr = f.idKey := by
  cases f with
  | onboardWithVendorThingId => exact Str.decode_ofPlain _ _
  | onboardWithThingId => exact Str.decode_ofPlain _ _

def contentType : OnboardFunction → Bytes
  | .onboardWithVendorThingId => contentTypeVendorThingId
  | .onboardWithThingId => contentTypeThingId

def run (sdk : Sdk σ) (args : OnboardArgs) : OnboardFunction → Stage (Call σ)
  | .onboardWithVendorThingId => prvOnboardWithVendorThingId sdk args
  | .onboardWithThingId => prvOnboardWithThingId sdk args

/-- The two functions are the same stages. -/
theorem exists_stages (f : OnboardFunction) (sdk : Sdk σ) (args : OnboardArgs) :
    ∃ startFailed bodyFailed,
      f.run sdk args = onboardStages sdk args f.idKey f.contentType startFailed bodyFailed := by
  cases f with
  | onboardWithVendorThingId => exact ⟨_, _, prvOnboardWithVendorThingId_eq sdk args⟩
  | onboardWithThingId => exact ⟨_, _, prvOnboardWithThingId_eq sdk args⟩

/-- There is a token, the onboarding request starts, and the request buffer takes
all of its body. -/
def Suffices (f : OnboardFunction) (sdk : Sdk σ) (args : OnboardArgs) (c : Call σ) : Prop :=
  let token := prvKiiThingIfGetAnonymousToken sdk c
  token.1 = 0 ∧ ∃ resourcePath,
    prvSetOnboardResourcePath sdk.platform token.2.kii.appId 64 = some resourcePath ∧
      let start := kiiApiCallStart sdk token.2.kii (ascii "POST") resourcePath
        (some f.contentType) true
      start.1 = 0 ∧ (anyFails (onboardBody sdk f.idKey args) start.2).1 = false

/-- The token request only adds to the log. -/
theorem exists_token_log (sdk : Sdk σ) (c : Call σ) :
    ∃ front, (tokenStages sdk c).2.kii.log = c.kii.log ++ front := by
  have htriple : Stage.Triple (Kept c.kii.log) (tokenStages sdk) (Kept c.kii.log)
      (Kept c.kii.log) := kept_token
  obtain ⟨-, front, hfront, -⟩ := htriple.final ⟨_, Monitoring.Monitor.Grown.refl c.kii.log⟩
  exact ⟨front, hfront⟩

/-- The last request that the function runs has the pieces as its body. -/
theorem sentBodies_run {f : OnboardFunction} {sdk : Sdk σ} {args : OnboardArgs} {c : Call σ}
    (h : f.Suffices sdk args c) :
    ∃ bodies, sentBodies [] (newEvents c.kii (f.run sdk args c).2.kii) =
      bodies ++ [(onboardPieces f.idKey args).flatten.flatten] := by
  obtain ⟨htoken, resourcePath, hpath, hstart, hbody⟩ := h
  obtain ⟨startFailed, bodyFailed, hrun⟩ := f.exists_stages sdk args
  obtain ⟨front, hfront⟩ := exists_token_log sdk c
  have hfirst : tokenStages sdk c = (true, (prvKiiThingIfGetAnonymousToken sdk c).2) := by
    rw [← intStage_token, intStage, htoken]
    rfl
  rw [hfirst] at hfront
  generalize (prvKiiThingIfGetAnonymousToken sdk c).2 = c₁ at *
  have hadds := adds_start sdk c₁.kii (ascii "POST") resourcePath (some f.contentType) true
  have hopen : openStage sdk (fun kii => prvSetOnboardResourcePath sdk.platform kii.appId 64)
      refusedPath (ascii "POST") (some f.contentType) true startFailed c₁ = (true,
        { c₁ with kii := (kiiApiCallStart sdk c₁.kii (ascii "POST") resourcePath
          (some f.contentType) true).2 }) := by
    unfold openStage
    simp only [hpath, hstart, ne_eq, not_true_eq_false, if_false]
  rw [hstart] at hadds
  generalize (kiiApiCallStart sdk c₁.kii (ascii "POST") resourcePath (some f.contentType)
    true).2 = kii at *
  rcases bodyStage_cases (fun _ => onboardBody_appends sdk f.idKey args) bodyFailed
    { c₁ with kii := kii } with ⟨kii', hlogs, haccepted⟩ | ⟨_, _, _, _, -, -, hrefused⟩
  · obtain ⟨ret, httpError, code, rest, hlog, hrest⟩ :=
      session_response_log sdk { c₁ with kii := kii' }
    rw [hlogs.log_eq, hadds.log_eq, hfront] at hlog
    simp only [List.append_assoc] at hlog
    rw [hrun, onboardStages, Stage.andThen_of_goesOn hfirst, Stage.andThen_of_goesOn hopen,
      Stage.andThen_of_goesOn haccepted, newEvents_eq hlog]
    refine ⟨sentBodies [] front, ?_⟩
    -- the start empties the body, and nothing is run behind the session
    rw [sentBodies_append, List.singleton_append, sentBodies, sentBodies_append,
      sentBodies_accepted, sentBodies, sentBodies_eq_nil hrest, runFrom_accepted]
    rfl
  · unfold bodyStage at hrefused
    simp only [hbody, Bool.false_eq_true, if_false] at hrefused
    cases hrefused

end OnboardFunction

/-! ## The body as a template -/

/-- The string needs no escaping. -/
def PlainText (v : Bytes) : Prop :=
  ∀ b ∈ v, isPlain b = true

def thingPasswordKey : Str := Str.ofPlain (ascii "thingPassword") (all_plain rfl)
def thingTypeKey : Str := Str.ofPlain (ascii "thingType") (all_plain rfl)
def thingPropertiesKey : Str := Str.ofPlain (ascii "thingProperties") (all_plain rfl)
def firmwareVersionKey : Str := Str.ofPlain (ascii "firmwareVersion") (all_plain rfl)
def layoutPositionKey : Str := Str.ofPlain (ascii "layoutPosition") (all_plain rfl)

/-- A member for an argument that is not NULL. -/
def optionalMember {α : Type} (key : Str) (template : α → Template) (value : Option α) :
    List (Str × Template) :=
  (value.map fun v => (key, template v)).toList

/-- The members behind the id. -/
def onboardMembers (args : OnboardArgs) (properties : Option Doc) : List (Str × Template) :=
  (thingPasswordKey, .str args.password) ::
    (optionalMember thingTypeKey .str args.thingType ++
      (optionalMember thingPropertiesKey .doc properties ++
        (optionalMember firmwareVersionKey .str args.firmwareVersion ++
          optionalMember layoutPositionKey .str args.layoutPosition)))

def onboardTemplate (f : OnboardFunction) (args : OnboardArgs) (properties : Option Doc) :
    Template :=
  .obj (TemplateMembers.compact (f.idStr, .str args.id) (onboardMembers args properties))

theorem flatten_memberPieces_str (key : Str) (value : Bytes) (isSuccessor : Bool) :
    (memberPieces key.raw value isSuccessor true).flatten =
      (if isSuccessor then [comma] else []) ++ templateMember (key, .str value) := by
  cases isSuccessor <;> simp [memberPieces, templateMember, Template.text] <;> rfl

theorem flatten_memberPieces_doc (key : Str) (d : Doc) (isSuccessor : Bool) :
    (memberPieces key.raw d.render isSuccessor false).flatten =
      (if isSuccessor then [comma] else []) ++ templateMember (key, .doc d) := by
  cases isSuccessor <;> simp [memberPieces, templateMember, Template.text] <;> rfl

theorem flatten_optionalPieces_str (key : Str) (value : Option Bytes) :
    (optionalPieces key.raw value true true).flatten =
      (optionalMember key .str value).flatMap fun n => comma :: templateMember n := by
  cases value with
  | none => rfl
  | some v => exact (flatten_memberPieces_str key v true).trans (List.append_nil _).symm

theorem flatten_optionalPieces_doc (key : Str) (properties : Option Doc) :
    (optionalPieces key.raw (properties.map Doc.render) true false).flatten =
      (optionalMember key .doc properties).flatMap fun n => comma :: templateMember n := by
  cases properties with
  | none => rfl
  | some d => exact (flatten_memberPieces_doc key d true).trans (List.append_nil _).symm

/-- With properties that are JSON, the body is the text of its template. -/
theorem onboardPieces_text (f : OnboardFunction) (args : OnboardArgs) {properties : Option Doc}
    (h : args.thingProperties = properties.map Doc.render) :
    (onboardPieces f.idKey args).flatten.flatten = (onboardTemplate f args properties).text := by
  have hid := flatten_memberPieces_str f.idStr args.id false
  have hpassword := flatten_memberPieces_str thingPasswordKey args.password true
  have htype := flatten_optionalPieces_str thingTypeKey args.thingType
  have hproperties := flatten_optionalPieces_doc thingPropertiesKey properties
  have hversion := flatten_optionalPieces_str firmwareVersionKey args.firmwareVersion
  have hposition := flatten_optionalPieces_str layoutPositionKey args.layoutPosition
  rw [OnboardFunction.raw_idStr] at hid
  simp only [thingPasswordKey, thingTypeKey, thingPropertiesKey, firmwareVersionKey,
    layoutPositionKey, Str.raw_ofPlain] at hpassword htype hproperties hversion hposition
  simp only [onboardPieces, h, List.flatten_cons, List.flatten_append, hid, hpassword, htype,
    hproperties, hversion, hposition, onboardTemplate, Template.text,
    TemplateMembers.text_compact, onboardMembers, List.flatMap_cons, List.flatMap_append]
  simp [openBrace, closeBrace, thingPasswordKey, thingTypeKey, thingPropertiesKey,
    firmwareVersionKey, layoutPositionKey]
  rfl

theorem onboardTemplate_isPlain (f : OnboardFunction) (args : OnboardArgs)
    (properties : Option Doc) :
    (onboardTemplate f args properties).IsPlain ↔
      PlainText args.id ∧ PlainText args.password ∧
        (∀ v, args.thingType = some v → PlainText v) ∧
        (∀ v, args.firmwareVersion = some v → PlainText v) ∧
        ∀ v, args.layoutPosition = some v → PlainText v := by
  have hstr : ∀ (key : Str) (value : Option Bytes),
      (∀ n ∈ optionalMember key .str value, n.2.IsPlain) ↔ ∀ v, value = some v → PlainText v := by
    intro key value
    cases value with
    | none => exact iff_of_true nofun nofun
    | some v => simp [optionalMember, Template.IsPlain, PlainText]
  have hdoc : ∀ n ∈ optionalMember thingPropertiesKey .doc properties, n.2.IsPlain := by
    cases properties with
    | none => exact nofun
    | some d => simp [optionalMember, Template.IsPlain]
  rw [onboardTemplate, Template.IsPlain, TemplateMembers.isPlain_compact, onboardMembers]
  simp only [List.forall_mem_cons, List.forall_mem_append, hstr]
  exact and_congr_right' (and_congr_right' (and_congr_right' (and_iff_right hdoc)))

/-! ## Exactly the supplied members -/

/-- The member for a string argument: none when it is NULL or empty. -/
def suppliedString (key : Bytes) (value : Option Bytes) : List (Bytes × Json) :=
  match value with
  | none => []
  | some [] => []
  | some (b :: v) => [(key, .str (b :: v))]

/-- The member for the thing properties, with the value that their text denotes. -/
def suppliedObject (key : Bytes) (value : Option Bytes) : List (Bytes × Json) :=
  match value with
  | none => []
  | some [] => []
  | some (b :: v) =>
      match parseDoc (b :: v) with
      | none => []
      | some d => [(key, d.val.toJson)]

/-- The members that an onboarding body should have. -/
def OnboardArgs.members (args : OnboardArgs) (idKey : Bytes) : List (Bytes × Json) :=
  (idKey, .str args.id) :: (ascii "thingPassword", .str args.password) ::
    (suppliedString (ascii "thingType") args.thingType ++
      (suppliedObject (ascii "thingProperties") args.thingProperties ++
        (suppliedString (ascii "firmwareVersion") args.firmwareVersion ++
          suppliedString (ascii "layoutPosition") args.layoutPosition)))

/-- No string needs escaping, and the thing properties are empty or an object. -/
structure OnboardArgs.WellFormed (args : OnboardArgs) : Prop where
  id : PlainText args.id
  password : PlainText args.password
  thingType : ∀ v, args.thingType = some v → PlainText v
  thingProperties : ∀ v, args.thingProperties = some v → v = [] ∨ ∃ ms, Denotes v (.obj ms)
  firmwareVersion : ∀ v, args.firmwareVersion = some v → PlainText v
  layoutPosition : ∀ v, args.layoutPosition = some v → PlainText v

/-- An optional argument is the empty string. -/
def OnboardArgs.HasEmpty (args : OnboardArgs) : Prop :=
  args.thingType = some [] ∨ args.thingProperties = some [] ∨ args.firmwareVersion = some [] ∨
    args.layoutPosition = some []

theorem suppliedString_eq (key : Str) {value : Option Bytes} (h : value ≠ some []) :
    suppliedString (Str.decode key) value =
      (optionalMember key .str value).map fun n => (Str.decode n.1, n.2.json) := by
  match value with
  | none => rfl
  | some [] => exact absurd rfl h
  | some (b :: v) => rfl

/-- An empty string is a member of the body, and not one that was supplied. -/
theorem suppliedString_length (key : Str) (value : Option Bytes) :
    (suppliedString (Str.decode key) value).length ≤ (optionalMember key .str value).length ∧
      (value = some [] → (suppliedString (Str.decode key) value).length <
        (optionalMember key .str value).length) := by
  match value with
  | none => exact ⟨Nat.le_refl 0, nofun⟩
  | some [] => exact ⟨Nat.zero_le 1, fun _ => Nat.one_pos⟩
  | some (b :: v) => exact ⟨Nat.le_refl 1, nofun⟩

theorem suppliedObject_eq (key : Str) (properties : Option Doc) :
    suppliedObject (Str.decode key) (properties.map Doc.render) =
      (optionalMember key .doc properties).map fun n => (Str.decode n.1, n.2.json) := by
  cases properties with
  | none => rfl
  | some d =>
      have hparse := parseDoc_render d
      cases hr : d.render with
      | nil =>
          rw [hr] at hparse
          cases hparse
      | cons b t =>
          rw [hr] at hparse
          simp only [Option.map_some, hr, suppliedObject, hparse]
          rfl

/-- With properties that are JSON, the body has exactly the supplied members
unless a string is empty. -/
theorem onboardTemplate_exact_iff (f : OnboardFunction) {args : OnboardArgs}
    {properties : Option Doc} (hproperties : args.thingProperties = properties.map Doc.render)
    (hplain : (onboardTemplate f args properties).IsPlain) :
    (∃ ms, Denotes (onboardTemplate f args properties).text (.obj ms) ∧
      ms.Perm (args.members f.idKey)) ↔ ¬ args.HasEmpty := by
  have hjson : (onboardTemplate f args properties).json =
      .obj (((f.idStr, Template.str args.id) :: onboardMembers args properties).map
        fun n => (Str.decode n.1, n.2.json)) := by
    rw [onboardTemplate, Template.json, TemplateMembers.json_compact]
  have hdenotes := (onboardTemplate f args properties).denotes_iff.mpr hplain
  rw [hjson] at hdenotes
  have hobject := suppliedObject_eq thingPropertiesKey properties
  rw [← hproperties] at hobject
  have hmembers : args.members f.idKey =
      (Str.decode f.idStr, .str args.id) :: (Str.decode thingPasswordKey, .str args.password) ::
        (suppliedString (Str.decode thingTypeKey) args.thingType ++
          (suppliedObject (Str.decode thingPropertiesKey) args.thingProperties ++
            (suppliedString (Str.decode firmwareVersionKey) args.firmwareVersion ++
              suppliedString (Str.decode layoutPositionKey) args.layoutPosition))) := by
    simp only [OnboardArgs.members, OnboardFunction.decode_idStr, thingPasswordKey, thingTypeKey,
      thingPropertiesKey, firmwareVersionKey, layoutPositionKey, Str.decode_ofPlain]
  constructor
  · rintro ⟨ms, hms, hperm⟩ hempty
    have heq := Json.obj.inj (hms.unique hdenotes)
    have hlen := hperm.length_eq
    rw [heq, hmembers, hobject] at hlen
    simp only [List.length_map, List.length_cons, List.length_append, onboardMembers] at hlen
    obtain ⟨htype, htype'⟩ := suppliedString_length thingTypeKey args.thingType
    obtain ⟨hversion, hversion'⟩ :=
      suppliedString_length firmwareVersionKey args.firmwareVersion
    obtain ⟨hposition, hposition'⟩ :=
      suppliedString_length layoutPositionKey args.layoutPosition
    rcases hempty with h | h | h | h
    · have := htype' h
      omega
    · -- a text that is JSON is not empty
      rw [hproperties, Option.map_eq_some_iff] at h
      obtain ⟨d, -, hd⟩ := h
      exact d.render_ne_nil hd
    · have := hversion' h
      omega
    · have := hposition' h
      omega
  · intro hnone
    simp only [OnboardArgs.HasEmpty, not_or] at hnone
    obtain ⟨htype, -, hversion, hposition⟩ := hnone
    refine ⟨_, hdenotes, ?_⟩
    rw [hmembers, hobject, suppliedString_eq _ htype, suppliedString_eq _ hversion,
      suppliedString_eq _ hposition, onboardMembers]
    simp only [List.map_cons, List.map_append]
    rfl

/-- With empty properties the body has a key without a value. -/
theorem emptyProperties_not_json (f : OnboardFunction) {args : OnboardArgs}
    (hargs : args.WellFormed) (h : args.thingProperties = some []) :
    parseDoc (onboardPieces f.idKey args).flatten.flatten = none := by
  have hid := flatten_memberPieces_str f.idStr args.id false
  have hpassword := flatten_memberPieces_str thingPasswordKey args.password true
  have htype := flatten_optionalPieces_str thingTypeKey args.thingType
  have hversion := flatten_optionalPieces_str firmwareVersionKey args.firmwareVersion
  have hposition := flatten_optionalPieces_str layoutPositionKey args.layoutPosition
  rw [OnboardFunction.raw_idStr] at hid
  simp only [thingPasswordKey, thingTypeKey, firmwareVersionKey, layoutPositionKey,
    Str.raw_ofPlain] at hpassword htype hversion hposition
  -- what follows the key is a comma or the closing brace
  obtain ⟨b, t, hb, htail⟩ : ∃ b t, (b = comma ∨ b = rbrace) ∧
      (optionalMember firmwareVersionKey .str args.firmwareVersion).flatMap
          (fun n => comma :: templateMember n) ++
        ((optionalMember layoutPositionKey .str args.layoutPosition).flatMap
          (fun n => comma :: templateMember n) ++ [rbrace]) = b :: t := by
    cases args.firmwareVersion with
    | some v => exact ⟨comma, _, .inl rfl, rfl⟩
    | none =>
        cases args.layoutPosition with
        | some v => exact ⟨comma, _, .inl rfl, rfl⟩
        | none => exact ⟨rbrace, [], .inr rfl, rfl⟩
  have hplain : ∀ m ∈ (f.idStr, Template.str args.id) :: (thingPasswordKey, .str args.password) ::
      optionalMember thingTypeKey .str args.thingType, m.2.IsPlain := by
    intro m hm
    rcases List.mem_cons.mp hm with rfl | hm
    · exact hargs.id
    · rcases List.mem_cons.mp hm with rfl | hm
      · exact hargs.password
      · cases hvalue : args.thingType with
        | none =>
            rw [hvalue] at hm
            cases hm
        | some v =>
            rw [hvalue] at hm
            rw [List.mem_singleton.mp hm]
            exact hargs.thingType v hvalue
  have hnone := missing_value_not_json hplain thingPropertiesKey hb t
  rw [← htail, TemplateMembers.before_eq] at hnone
  rw [← hnone]
  have hproperties : (optionalPieces (ascii "thingProperties") (some []) true false).flatten =
      comma :: quote :: (thingPropertiesKey.raw ++ [quote, colon]) := rfl
  congr 1
  simp only [onboardPieces, h, List.flatten_cons, List.flatten_append, hid, hpassword, htype,
    hproperties, hversion, hposition, List.flatMap_cons, thingPasswordKey, thingTypeKey,
    firmwareVersionKey, layoutPositionKey]
  simp [openBrace, closeBrace]
  rfl

/-- The body of the onboarding request is an object with exactly the supplied members. -/
def OnboardFunction.SendsMembers (f : OnboardFunction) (sdk : Sdk σ) (args : OnboardArgs)
    (c : Call σ) : Prop :=
  ∃ bodies body ms, sentBodies [] (newEvents c.kii (f.run sdk args c).2.kii) = bodies ++ [body] ∧
    Denotes body (.obj ms) ∧ ms.Perm (args.members f.idKey)

theorem sendsMembers_iff_body {f : OnboardFunction} {sdk : Sdk σ} {args : OnboardArgs}
    {c : Call σ} (hsuff : f.Suffices sdk args c) :
    f.SendsMembers sdk args c ↔
      ∃ ms, Denotes (onboardPieces f.idKey args).flatten.flatten (.obj ms) ∧
        ms.Perm (args.members f.idKey) := by
  obtain ⟨bodies, hsent⟩ := f.sentBodies_run hsuff
  unfold OnboardFunction.SendsMembers
  rw [hsent]
  constructor
  · rintro ⟨bodies', body, ms, hbodies, hms, hperm⟩
    obtain ⟨-, hbody⟩ := List.append_inj' hbodies rfl
    rw [List.singleton_inj.mp hbody]
    exact ⟨ms, hms, hperm⟩
  · rintro ⟨ms, hms, hperm⟩
    exact ⟨bodies, _, ms, rfl, hms, hperm⟩

/-- Well-formed arguments: the members are right unless an argument is empty. -/
theorem sendsMembers_cases {f : OnboardFunction} {sdk : Sdk σ} {args : OnboardArgs}
    (hargs : args.WellFormed) {c : Call σ} (hsuff : f.Suffices sdk args c) :
    (f.SendsMembers sdk args c ∧ ¬ args.HasEmpty) ∨
      (¬ f.SendsMembers sdk args c ∧ args.HasEmpty) := by
  rw [sendsMembers_iff_body hsuff]
  by_cases hempty : args.thingProperties = some []
  · refine .inr ⟨?_, .inr (.inl hempty)⟩
    rintro ⟨ms, ⟨d, hparse, -⟩, -⟩
    rw [emptyProperties_not_json f hargs hempty] at hparse
    cases hparse
  · obtain ⟨properties, hproperties⟩ : ∃ properties : Option Doc,
        args.thingProperties = properties.map Doc.render := by
      cases hvalue : args.thingProperties with
      | none => exact ⟨none, rfl⟩
      | some v =>
          rcases hargs.thingProperties v hvalue with rfl | ⟨ms, d, hparse, -⟩
          · exact absurd hvalue hempty
          · exact ⟨some d, by rw [Option.map_some, parseDoc_sound hparse]⟩
    have hplain : (onboardTemplate f args properties).IsPlain := by
      rw [onboardTemplate_isPlain]
      exact ⟨hargs.id, hargs.password, hargs.thingType, hargs.firmwareVersion,
        hargs.layoutPosition⟩
    have hiff := onboardTemplate_exact_iff f hproperties hplain
    rw [← onboardPieces_text f args hproperties] at hiff
    rw [hiff]
    by_cases h : args.HasEmpty
    · exact .inr ⟨not_not.mpr h, h⟩
    · exact .inl ⟨h, h⟩

/-- The body of an onboarding request has exactly the supplied members, unless an
optional argument is the empty string. -/
theorem sendsMembers_iff (f : OnboardFunction) {sdk : Sdk σ} {args : OnboardArgs}
    (hargs : args.WellFormed) {c : Call σ} (hsuff : f.Suffices sdk args c) :
    f.SendsMembers sdk args c ↔ ¬ args.HasEmpty := by
  rcases sendsMembers_cases hargs hsuff with ⟨h, hnone⟩ | ⟨h, hsome⟩
  · exact iff_of_true h hnone
  · exact iff_of_false h (not_not.mpr hsome)

/-! ## Sample calls -/

/-- A scripted call with room for its body. -/
theorem suffices_scripted (f : OnboardFunction) {args : OnboardArgs}
    (hlen : (onboardPieces f.idKey args).flatten.flatten.length ≤ 200) (d : Doc)
    (rest : List Reply) :
    f.Suffices (scriptedSdk 1000) args
      ⟨scriptedKii (.ok tokenResponse :: .ok d :: rest), freshError⟩ := by
  obtain ⟨kii, htoken, happ, -, hreplies, -⟩ := token_scripted (.ok d :: rest)
  obtain ⟨hret, hcall⟩ := token_of_stages htoken
  have hpath : prvSetOnboardResourcePath (scriptedSdk 1000).platform kii.appId 64 =
      some [thingIfAppPath, ascii "app", onboardingPath].flatten := by
    rw [happ]
    rfl
  have hstarted := @scriptedStart_succeeds 1000 kii (.ok d) rest hreplies rfl (ascii "POST")
    [thingIfAppPath, ascii "app", onboardingPath].flatten (some f.contentType) true
  obtain ⟨hstart, hcore⟩ := hstarted
  refine ⟨hret, ?_⟩
  rw [hcall]
  refine ⟨_, hpath, hstart, ?_⟩
  have hbuf : FixedBuffer (scriptedSdk 1000).api Script.room := scriptedApi_fixedBuffer 1000
  rw [anyFails_appends (onboardBody_appends (scriptedSdk 1000) f.idKey args)]
  refine (hbuf.appendPieces_fits _ _ ?_).1
  rw [hcore]
  show (onboardPieces f.idKey args).flatten.flatten.length ≤ 1000
  omega

/-- `{"lamp":[{"on":true}]}` as the properties, and a thing type. -/
def lampArgs : OnboardArgs where
  id := ascii "th.2"
  password := ascii "pass"
  thingType := some (ascii "lamp")
  thingProperties := some lampAlias.render
  firmwareVersion := none
  layoutPosition := none

theorem lampArgs_wellFormed : lampArgs.WellFormed where
  id := all_plain rfl
  password := all_plain rfl
  thingType := by
    rintro v ⟨⟩
    exact all_plain rfl
  thingProperties := by
    rintro v ⟨⟩
    exact .inr ⟨_, denotes_render lampAlias⟩
  firmwareVersion := nofun
  layoutPosition := nofun

theorem sendsMembers_iff_lamp :
    OnboardFunction.onboardWithThingId.SendsMembers (scriptedSdk 1000) lampArgs
        ⟨scriptedKii [.ok tokenResponse, .ok onboardResponse], freshError⟩ ↔
      ¬ lampArgs.HasEmpty :=
  sendsMembers_iff .onboardWithThingId lampArgs_wellFormed
    (suffices_scripted .onboardWithThingId (by decide) onboardResponse [])

/-- Empty strings where NULL could have been given. -/
def emptyTypeArgs : OnboardArgs where
  id := ascii "th.2"
  password := ascii "pass"
  thingType := some []
  thingProperties := none
  firmwareVersion := none
  layoutPosition := none

/-- An empty thing type is sent as a member. -/
theorem emptyThingType_sent :
    ¬ OnboardFunction.onboardWithVendorThingId.SendsMembers (scriptedSdk 1000) emptyTypeArgs
      ⟨scriptedKii [.ok tokenResponse, .ok onboardResponse], freshError⟩ := by
  have hargs : emptyTypeArgs.WellFormed :=
    ⟨lampArgs_wellFormed.id, lampArgs_wellFormed.password, by rintro v ⟨⟩; exact nofun, nofun,
      nofun, nofun⟩
  have hsuff : OnboardFunction.onboardWithVendorThingId.Suffices (scriptedSdk 1000) emptyTypeArgs
      ⟨scriptedKii [.ok tokenResponse, .ok onboardResponse], freshError⟩ :=
    suffices_scripted .onboardWithVendorThingId (by decide) onboardResponse []
  rcases sendsMembers_cases hargs hsuff with ⟨-, hnone⟩ | ⟨h, -⟩
  · exact absurd (.inl rfl) hnone
  · exact h

end ThingIfSdk
