import ThingIfSdk.Command.Results
import ThingIfSdk.Requests.Members

/-!
# Strings in request bodies

No function of the SDK escapes what it pastes between two quotes.  `SentBody`
collects the bodies with pasted strings, each with the template of what it is
meant to say, and `sentBody_denotes_iff` says when it does say that.
-/

namespace ThingIfSdk

open ByteText JsonText

variable {σ δ : Type}

/-! ## Bodies that are chains of appends -/

/-- The request buffer accepts the whole chain, and `body` is what it appends. -/
def Assembled (chain : List (Kii σ → Int × Kii σ)) (body : Bytes) : Prop :=
  ∃ before after, anyFails chain before = (false, after) ∧
    body = bodyMonitor.after (newEvents before after)

theorem Assembled.eq_pieces {sdk : Sdk σ} {chain : List (Kii σ → Int × Kii σ)}
    {pieces : List (List Bytes)} (hchain : List.Forall₂ (Appends sdk) chain pieces) {body : Bytes}
    (h : Assembled chain body) : body = pieces.flatten.flatten := by
  obtain ⟨before, after, hrun, rfl⟩ := h
  rw [anyFails_appends hchain] at hrun
  have heffect := appendPieces_effect sdk pieces.flatten before
  rw [hrun] at heffect
  have hlog : newEvents before after = accepted pieces.flatten :=
    newEvents_eq (heffect.done rfl).log_eq
  rw [hlog]
  exact runFrom_accepted [] pieces.flatten

def grantTypeKey : Str := Str.ofPlain (ascii "grant_type") (all_plain rfl)
def clientIdKey : Str := Str.ofPlain (ascii "client_id") (all_plain rfl)
def clientSecretKey : Str := Str.ofPlain (ascii "client_secret") (all_plain rfl)

def tokenTemplate (kii : Kii σ) : Template :=
  .obj (TemplateMembers.compact (grantTypeKey, .str (ascii "client_credentials"))
    [(clientIdKey, .str kii.appId), (clientSecretKey, .str kii.appKey)])

theorem tokenPieces_text (kii : Kii σ) :
    (tokenPieces kii).flatten.flatten = (tokenTemplate kii).text := by
  have htype := flatten_memberPieces_str grantTypeKey (ascii "client_credentials") false
  have hid := flatten_memberPieces_str clientIdKey kii.appId true
  have hsecret := flatten_memberPieces_str clientSecretKey kii.appKey true
  simp only [grantTypeKey, clientIdKey, clientSecretKey, Str.raw_ofPlain] at htype hid hsecret
  simp only [tokenPieces, List.flatten_cons, List.flatten_append, htype, hid, hsecret,
    tokenTemplate, Template.text, TemplateMembers.text_compact, List.flatMap_cons]
  simp [openBrace, closeBrace, grantTypeKey, clientIdKey, clientSecretKey]
  rfl

def updateTemplate (key : Str) (value : Bytes) : Template :=
  .obj (TemplateMembers.compact (key, .str value) [])

theorem updatePieces_text (key : Str) (value : Bytes) :
    (updatePieces key.raw value).flatten.flatten = (updateTemplate key value).text := by
  have hmember := flatten_memberPieces_str key value false
  simp only [updatePieces, List.flatten_cons, List.flatten_append, hmember, updateTemplate,
    Template.text, TemplateMembers.text_compact]
  simp [openBrace, closeBrace]
  rfl

/-! ## Action results -/

/-- One result: the name as it stands in the command, and the error message if
there is one. -/
def entryTemplate (r : Str × Option Bytes) : Template :=
  .obj (.last r.1 (.obj (TemplateMembers.compact
    (succeededKey, .doc (Doc.bare (if r.2.isNone then trueValue else falseValue)))
    (optionalMember errorMessageKey .str r.2))))

def resultsTemplate : List (Str × Option Bytes) → Template
  | [] => .obj (.last actionResultsKey (.doc (Doc.bare (.arrNil .none))))
  | r :: rs =>
      .obj (.last actionResultsKey
        (.arr (TemplateElems.compact (entryTemplate r) (rs.map entryTemplate))))

/-- The entry is the result of an action of that name. -/
def Entry.IsResult (e : Entry) (r : Str × Option Bytes) : Prop :=
  e.actionName = r.1.raw ∧ e.errorMessage = r.2

theorem entryTemplate_text {e : Entry} {r : Str × Option Bytes} (h : e.IsResult r) :
    (entryTemplate r).text = (entryPieces e.actionName e.errorMessage).flatten := by
  obtain ⟨key, errorMessage⟩ := r
  obtain ⟨hname, hmessage⟩ := h
  rw [hname, hmessage]
  cases errorMessage with
  | none =>
      simp [entryTemplate, entryPieces, memberPieces, optionalPieces, optionalMember,
        Template.text, TemplateMembers.text, TemplateMembers.text_compact, templateMember]
      rfl
  | some message =>
      simp [entryTemplate, entryPieces, memberPieces, optionalPieces, optionalMember,
        Template.text, TemplateMembers.text, TemplateMembers.text_compact, templateMember]
      rfl

theorem entriesText_commas {es : List Entry} {rs : List (Str × Option Bytes)}
    (hcomma : ∀ e ∈ es, 0 < e.aliasIndex ∨ 0 < e.actionIndex)
    (h : List.Forall₂ Entry.IsResult es rs) :
    entriesText es = rs.flatMap fun r => comma :: (entryTemplate r).text := by
  induction h with
  | nil => rfl
  | @cons e r es rs he _ ih =>
      rw [entriesText_cons, separatorPieces_comma (hcomma e List.mem_cons_self),
        ih fun e' he' => hcomma e' (List.mem_cons_of_mem _ he'), List.flatMap_cons,
        entryTemplate_text he]

/-- The results of a command that starts with an action are those of the template. -/
theorem resultsText_template (handlers : Handlers σ δ) (stack : Stack)
    {aliases : List CommandAlias} (hstart : StartsWithAction aliases) (device : δ)
    {rs : List (Str × Option Bytes)}
    (h : List.Forall₂ Entry.IsResult (commandEntries handlers stack 0 aliases device).1 rs) :
    resultsText (commandEntries handlers stack 0 aliases device).1 =
      (resultsTemplate rs).text := by
  rcases commandEntries_cases handlers stack aliases device with
    ⟨-, hnil⟩ | ⟨a, rest, e, es, -, -, hes, hfirst, hcomma⟩ | ⟨hnot, -⟩
  · rw [hnil] at h ⊢
    cases h
    rfl
  · rw [hes] at h ⊢
    cases h with
    | @cons _ r _ rs he htail =>
        have hhead : e.pieces.flatten = (entryTemplate r).text := by
          rw [entryTemplate_text he]
          simp only [Entry.pieces, separatorPieces, hfirst.1, hfirst.2]
          rfl
        rw [resultsText, entriesText_cons, hhead, entriesText_commas hcomma htail]
        simp [resultsTemplate, Template.text, TemplateMembers.text, TemplateElems.text_compact,
          List.flatMap_map, resultsOpening, resultsClosing]
        rfl
  · exact absurd hstart hnot

/-! ## All bodies with pasted strings -/

/-- The SDK sends this body, and it is meant to say what the template says. -/
inductive SentBody (sdk : Sdk σ) (remaining : σ → Nat) (budget : Nat) : Bytes → Template → Prop where
  | token {body : Bytes} (kii : Kii σ) (h : Assembled (tokenBody sdk kii) body) :
      SentBody sdk remaining budget body (tokenTemplate kii)
  | onboard {body : Bytes} (f : OnboardFunction) (args : OnboardArgs) (properties : Option Doc)
      (hproperties : args.thingProperties = properties.map Doc.render)
      (h : Assembled (onboardBody sdk f.idKey args) body) :
      SentBody sdk remaining budget body (onboardTemplate f args properties)
  | updateFirmwareVersion {body : Bytes} (firmwareVersion : Bytes)
      (h : Assembled (updateBody sdk (ascii "firmwareVersion") firmwareVersion) body) :
      SentBody sdk remaining budget body (updateTemplate firmwareVersionKey firmwareVersion)
  | updateThingType {body : Bytes} (thingType : Bytes)
      (h : Assembled (updateBody sdk (ascii "thingType") thingType) body) :
      SentBody sdk remaining budget body (updateTemplate thingTypeKey thingType)
  | results {body : Bytes} {δ : Type} (handlers : Handlers σ δ) (stack : Stack) (m : Machine σ δ)
      (d : Doc) (commandId actions : Member) (aliases : List CommandAlias) (fuel : Nat)
      (hcmd : IsCommand d commandId actions aliases)
      (hsuff : Suffices sdk remaining budget handlers stack m d commandId aliases)
      (hfuel : d.val.tokenCount ≤ fuel) (hstart : StartsWithAction aliases)
      (rs : List (Str × Option Bytes))
      (hrs : List.Forall₂ Entry.IsResult (commandEntries handlers stack 0 aliases m.device).1 rs)
      (later : List Bytes)
      (h : sentBodies [] (newEvents m.kii
        (handleCommand sdk handlers stack fuel ⟨m, d.render⟩).2.machine.kii) = body :: later) :
      SentBody sdk remaining budget body (resultsTemplate rs)

/-- What is sent is the text of the template. -/
theorem SentBody.eq_text {sdk : Sdk σ} {remaining : σ → Nat} {budget : Nat}
    (hbuf : FixedBuffer sdk.api remaining) (hjson : JsonSpec sdk.json budget) {body : Bytes}
    {p : Template} (h : SentBody sdk remaining budget body p) : body = p.text := by
  cases h with
  | token kii h => rw [h.eq_pieces (tokenBody_appends sdk kii), tokenPieces_text]
  | onboard f args properties hproperties h =>
      rw [h.eq_pieces (onboardBody_appends sdk f.idKey args), onboardPieces_text f args hproperties]
  | updateFirmwareVersion v h =>
      have htext := updatePieces_text firmwareVersionKey v
      rw [firmwareVersionKey, Str.raw_ofPlain] at htext
      rw [h.eq_pieces (updateBody_appends sdk _ v), htext]
      rfl
  | updateThingType v h =>
      have htext := updatePieces_text thingTypeKey v
      rw [thingTypeKey, Str.raw_ofPlain] at htext
      rw [h.eq_pieces (updateBody_appends sdk _ v), htext]
      rfl
  | results handlers stack m d commandId actions aliases fuel hcmd hsuff hfuel hstart rs hrs later
      h =>
      obtain ⟨-, -, -, later', hsent⟩ :=
        handleCommand_command hbuf hjson handlers stack hcmd hsuff hfuel
      rw [h] at hsent
      rw [(List.cons.inj hsent).1, resultsText_template handlers stack hstart m.device hrs]

/-- A body says what it is meant to say exactly when none of the strings pasted
into it needs escaping. -/
theorem sentBody_denotes_iff {sdk : Sdk σ} {remaining : σ → Nat} {budget : Nat}
    (hbuf : FixedBuffer sdk.api remaining) (hjson : JsonSpec sdk.json budget) {body : Bytes}
    {p : Template} (h : SentBody sdk remaining budget body p) :
    Denotes body p.json ↔ p.IsPlain := by
  rw [h.eq_text hbuf hjson]
  exact p.denotes_iff

/-! ## Sample bodies -/

/-- A chain that fits is accepted. -/
theorem assembled_scripted {chain : List (Kii Script → Int × Kii Script)}
    {pieces : List (List Bytes)}
    (hchain : List.Forall₂ (Appends (scriptedSdk 1000)) chain pieces)
    (hlen : pieces.flatten.flatten.length ≤ 200) : Assembled chain pieces.flatten.flatten := by
  have hbuf : FixedBuffer (scriptedSdk 1000).api Script.room := scriptedApi_fixedBuffer 1000
  let kii : Kii Script := { scriptedKii [] with core := ⟨1000, []⟩ }
  have hle : pieces.flatten.flatten.length ≤ kii.core.room := Nat.le_trans hlen (by decide)
  obtain ⟨hdone, -⟩ := hbuf.appendPieces_fits pieces.flatten kii hle
  have hlog := ((appendPieces_effect (scriptedSdk 1000) pieces.flatten kii).done hdone).log_eq
  refine ⟨kii, (anyFails chain kii).2, ?_, ?_⟩
  · rw [anyFails_appends hchain]
    exact Prod.ext hdone rfl
  · rw [anyFails_appends hchain, newEvents_eq hlog]
    exact (runFrom_accepted [] pieces.flatten).symm

theorem sentBody_denotes_iff_version :
    Denotes (updatePieces (ascii "firmwareVersion") (ascii "1.0")).flatten.flatten
        (updateTemplate firmwareVersionKey (ascii "1.0")).json ↔
      (updateTemplate firmwareVersionKey (ascii "1.0")).IsPlain :=
  sentBody_denotes_iff (scriptedApi_fixedBuffer 1000)
    (referenceJson_spec 64 : JsonSpec (scriptedSdk 1000).json 64)
    (.updateFirmwareVersion (ascii "1.0")
      (assembled_scripted (updateBody_appends (scriptedSdk 1000) _ _) (by decide)))

/-- `1","x":"2` -/
def quotedVersion : Bytes := ascii "1\",\"x\":\"2"

/-- A firmware version with quotes ends its string early and adds a member. -/
theorem quotedVersion_adds_member :
    ∃ body, SentBody (scriptedSdk 1000) Script.room 64 body
        (updateTemplate firmwareVersionKey quotedVersion) ∧
      ¬ Denotes body (updateTemplate firmwareVersionKey quotedVersion).json ∧
      Denotes body (.obj [(ascii "firmwareVersion", .str (ascii "1")),
        (ascii "x", .str (ascii "2"))]) := by
  have hsent : SentBody (scriptedSdk 1000) Script.room 64
      (updatePieces (ascii "firmwareVersion") quotedVersion).flatten.flatten
      (updateTemplate firmwareVersionKey quotedVersion) :=
    .updateFirmwareVersion quotedVersion
      (assembled_scripted (updateBody_appends (scriptedSdk 1000) _ _) (by decide))
  have htext := hsent.eq_text (scriptedApi_fixedBuffer 1000)
    (referenceJson_spec 64 : JsonSpec (scriptedSdk 1000).json 64)
  refine ⟨_, hsent, ?_, ?_⟩
  · rw [htext, Template.denotes_iff]
    intro hplain
    have hquote : isPlain quote = true := hplain quote (by decide)
    cases hquote
  · -- the same text is a template with two members
    let two : Template := .obj (.more firmwareVersionKey (.str (ascii "1"))
      (.last (Str.ofPlain (ascii "x") (all_plain rfl)) (.str (ascii "2"))))
    have hplain : two.IsPlain :=
      ⟨(all_plain rfl : ∀ b ∈ ascii "1", isPlain b = true),
        (all_plain rfl : ∀ b ∈ ascii "2", isPlain b = true)⟩
    exact two.denotes_iff.mpr hplain

end ThingIfSdk
