import ThingIfSdk.Requests.Starting
import ThingIfSdk.System.Addresses

/-!
# A server that keeps properties

The submodule is a parameter; here it is one that is connected to a server which keeps a
text under each path, replaces it on a PUT and answers a GET with it.  What the property
functions do to such a server is read off their code.
-/

namespace ThingIfSdk

open ByteText JsonText Staging Running

variable {σ : Type}

/-! ## Servers -/

/-- A submodule with a server behind it that keeps texts.  A PUT that is not answered
well may still have come through. -/
structure PropertyServer (api : RequestApi σ) where
  /-- The text under a path. -/
  stored : σ → Bytes → Bytes
  /-- The line and the body of the request that is being built. -/
  building : σ → RequestLine × Bytes
  start_stored : ∀ core call, stored (api.kiiApiCallStart core call).2 = stored core
  start_building : ∀ core call, (api.kiiApiCallStart core call).1 = 0 →
    building (api.kiiApiCallStart core call).2 = (call.line, [])
  append_stored : ∀ core bytes, stored (api.kiiApiCallAppendBody core bytes).2 = stored core
  append_building : ∀ core bytes, (api.kiiApiCallAppendBody core bytes).1 = 0 →
    building (api.kiiApiCallAppendBody core bytes).2 =
      ((building core).1, (building core).2 ++ bytes)
  run_get : ∀ core, (building core).1.httpMethod = ascii "GET" →
    stored (api.kiiApiCallRun core).core = stored core ∧
      ((api.kiiApiCallRun core).ret = 0 → statusOk (api.kiiApiCallRun core).responseCode = true →
        (api.kiiApiCallRun core).responseBody = stored core (building core).1.resourcePath)
  run_put : ∀ core, (building core).1.httpMethod = ascii "PUT" →
    let put := Function.update (stored core) (building core).1.resourcePath (building core).2
    (stored (api.kiiApiCallRun core).core = stored core ∨
        stored (api.kiiApiCallRun core).core = put) ∧
      ((api.kiiApiCallRun core).ret = 0 → statusOk (api.kiiApiCallRun core).responseCode = true →
        stored (api.kiiApiCallRun core).core = put)
  push_stored : ∀ core, stored (api.kiiPushStartRoutine core).2 = stored core

section

variable {sdk : Sdk σ} (server : PropertyServer sdk.api)

/-- Pieces that were all accepted stand behind the body as it was. -/
theorem PropertyServer.pieces_building {pieces : List Bytes} {kii : Kii σ}
    (h : (appendPieces sdk pieces kii).1 = false) :
    server.building (appendPieces sdk pieces kii).2.core =
      ((server.building kii.core).1, (server.building kii.core).2 ++ pieces.flatten) := by
  induction pieces generalizing kii with
  | nil =>
      rw [List.flatten_nil, List.append_nil]
      rfl
  | cons p ps ih =>
      rw [appendPieces_cons] at h ⊢
      by_cases hret : (kiiApiCallAppendBody sdk p kii).1 ≠ 0
      · rw [if_pos hret] at h
        cases h
      · rw [if_neg hret] at h ⊢
        have hone : server.building (kiiApiCallAppendBody sdk p kii).2.core =
            ((server.building kii.core).1, (server.building kii.core).2 ++ p) :=
          server.append_building kii.core p (not_not.mp hret)
        rw [ih h, hone, List.flatten_cons, List.append_assoc]

theorem PropertyServer.pieces_stored (pieces : List Bytes) (kii : Kii σ) :
    server.stored (appendPieces sdk pieces kii).2.core = server.stored kii.core := by
  induction pieces generalizing kii with
  | nil => rfl
  | cons p ps ih =>
      have hone : server.stored (kiiApiCallAppendBody sdk p kii).2.core = server.stored kii.core :=
        server.append_stored kii.core p
      rw [appendPieces_cons]
      split
      · exact hone
      · exact (ih _).trans hone

/-! ## Sessions -/

/-- A session leaves the `kii_t` as the run did, but for its log. -/
theorem session_core (c : Call σ) :
    (prvExecuteHttpSession sdk c).2.kii.core = (sdk.api.kiiApiCallRun c.kii.core).core ∧
      (prvExecuteHttpSession sdk c).2.kii.responseBody =
        (sdk.api.kiiApiCallRun c.kii.core).responseBody := by
  unfold prvExecuteHttpSession
  simp only
  split
  · unfold sessionNotRun
    split
    · exact ⟨rfl, rfl⟩
    · split <;> exact ⟨rfl, rfl⟩
  · split
    · exact ⟨rfl, rfl⟩
    · rw [sessionRejected_kii]
      exact ⟨rfl, rfl⟩

theorem session_goesOn_iff (c : Call σ) :
    (prvExecuteHttpSession sdk c).1 = true ↔ (sdk.api.kiiApiCallRun c.kii.core).ret = 0 ∧
      statusOk (sdk.api.kiiApiCallRun c.kii.core).responseCode = true := by
  unfold prvExecuteHttpSession
  simp only
  split
  · rename_i hret
    exact iff_of_false nofun fun h => hret h.1
  · rename_i hret
    split
    · rename_i hstatus
      exact iff_of_true rfl ⟨not_not.mp hret, hstatus⟩
    · rename_i hstatus
      exact iff_of_false nofun fun h => hstatus h.2

/-- A session logs the run. -/
theorem session_isRun (c : Call σ) :
    ∃ es, (prvExecuteHttpSession sdk c).2.kii.log = c.kii.log ++ es ∧ ∃ e ∈ es, e.isRun = true := by
  obtain ⟨ret, httpError, code, kii, hlogs, -, ⟨-, h⟩ | ⟨-, -, h⟩ | ⟨-, -, h⟩⟩ := session_cases sdk c
  · obtain ⟨es, hlog, -⟩ := sessionNotRun_log { c with kii := kii }
    refine ⟨.callRun ret httpError code :: es, ?_, _, List.mem_cons_self, rfl⟩
    rw [h, hlog]
    show kii.log ++ es = _
    rw [hlogs.log_eq, List.append_assoc]
    rfl
  · rw [h, sessionRejected_kii]
    exact ⟨_, hlogs.log_eq, _, List.mem_singleton_self _, rfl⟩
  · rw [h]
    exact ⟨_, hlogs.log_eq, _, List.mem_singleton_self _, rfl⟩

/-! ## Updates and getters -/

/-- The text that an update puts. -/
def updateText (key value : Bytes) : Bytes :=
  (updatePieces key value).flatten.flatten

/-- An update is given up before its request is run, or the request is run and the text
is put, for sure if the call succeeds. -/
inductive Updated (server : PropertyServer sdk.api) (path text : Bytes) (before after : Kii σ) :
    Bool → Prop where
  | unsent (hstored : server.stored after.core = server.stored before.core)
      (hlog : ∀ e ∈ newEvents before after, e.isRun = false) :
      Updated server path text before after false
  | sent {ret : Bool} (hran : ∃ e ∈ newEvents before after, e.isRun = true)
      (hstored : server.stored after.core = server.stored before.core ∨
        server.stored after.core = Function.update (server.stored before.core) path text)
      (hconfirmed : ret = true →
        server.stored after.core = Function.update (server.stored before.core) path text) :
      Updated server path text before after ret

/-- A getter leaves the server alone, and what it returns was read from the text under
its path. -/
structure Got (server : PropertyServer sdk.api) (path field : Bytes) (size : Nat)
    (before after : Kii σ) (ret : Bool) (out : Option Bytes) : Prop where
  stored : server.stored after.core = server.stored before.core
  answer : ret = true →
    let r := sdk.json.kiiJsonReadObject (server.stored before.core path) [propertyField field size]
    r.1 = .success ∧ out = some ((r.2 0).copied.getD [])

/-- Nothing was sent since `base`. -/
structure Quiet (server : PropertyServer sdk.api) (base : Kii σ) (c : Call σ) : Prop where
  stored : server.stored c.kii.core = server.stored base.core
  log : ∃ es, c.kii.log = base.log ++ es ∧ ∀ e ∈ es, e.isRun = false

/-- A request is being built, and nothing was sent since `base`. -/
structure Building (server : PropertyServer sdk.api) (base : Kii σ) (line : RequestLine)
    (body : Bytes) (c : Call σ) : Prop where
  quiet : Quiet server base c
  building : server.building c.kii.core = (line, body)

theorem Quiet.append {server : PropertyServer sdk.api} {base : Kii σ} {c c' : Call σ}
    (h : Quiet server base c) (hstored : server.stored c'.kii.core = server.stored c.kii.core)
    {es : List Event} (hlog : c'.kii.log = c.kii.log ++ es) (hes : ∀ e ∈ es, e.isRun = false) :
    Quiet server base c' := by
  obtain ⟨front, hfront, hquiet⟩ := h.log
  refine ⟨hstored.trans h.stored, front ++ es, by rw [hlog, hfront, List.append_assoc], ?_⟩
  intro e he
  rcases List.mem_append.mp he with he | he
  · exact hquiet e he
  · exact hes e he

theorem start_quiet (o : Opening) (c : Call σ) :
    Quiet server c.kii { c with kii := (o.start sdk c.kii).2 } := by
  refine ⟨server.start_stored c.kii.core (o.call c.kii),
    [.callStart (o.call c.kii) (o.start sdk c.kii).1], rfl, ?_⟩
  intro e he
  rw [List.mem_singleton.mp he]
  rfl

theorem start_builds {o : Opening} {c : Call σ} (h : (o.start sdk c.kii).1 = 0) :
    Building server c.kii ⟨o.httpMethod, o.resourcePath, o.contentType⟩ []
      { c with kii := (o.start sdk c.kii).2 } :=
  ⟨start_quiet server o c, server.start_building c.kii.core (o.call c.kii) h⟩

theorem openStage_builds {path : Kii σ → Option Bytes} {refused : Call σ → Call σ}
    {o : Opening} {failed : Stage (Call σ)} (hfailed : ∀ c, failed c = (false, (failed c).2))
    (hkii : ∀ c, (failed c).2.kii = c.kii) {c : Call σ} (hpath : path c.kii = some o.resourcePath) :
    Stage.Triple (· = c)
      (openStage sdk path refused o.httpMethod o.contentType o.setAuthenticationHeader failed)
      (Building server c.kii ⟨o.httpMethod, o.resourcePath, o.contentType⟩ [])
      (Quiet server c.kii) := by
  let r := o.start sdk c.kii
  have hopen : openStage sdk path refused o.httpMethod o.contentType o.setAuthenticationHeader
      failed c = if r.1 ≠ 0 then failed { c with kii := r.2 } else (true, { c with kii := r.2 }) :=
    openStage_of_path sdk refused _ _ _ _ hpath
  have hquiet : Quiet server c.kii { c with kii := r.2 } := start_quiet server o c
  by_cases hret : r.1 ≠ 0
  · rw [if_pos hret] at hopen
    constructor
    · intro a ha hend
      rw [ha, hopen, hfailed] at hend
      cases hend
    · intro a ha _
      rw [ha, hopen]
      have hsame := hkii { c with kii := r.2 }
      exact ⟨by rw [hsame]; exact hquiet.stored, by rw [hsame]; exact hquiet.log⟩
  · rw [if_neg hret] at hopen
    constructor
    · intro a ha _
      rw [ha, hopen]
      exact start_builds server (not_not.mp hret)
    · intro a ha hend
      rw [ha, hopen] at hend
      cases hend

theorem bodyStage_builds {body : Kii σ → List (Kii σ → Int × Kii σ)} {pieces : List (List Bytes)}
    (hbody : ∀ kii, List.Forall₂ (Appends sdk) (body kii) pieces) {failed : Call σ → Call σ}
    (hkii : ∀ c, (failed c).kii = c.kii) (base : Kii σ) (line : RequestLine) :
    Stage.Triple (Building server base line []) (bodyStage body failed)
      (Building server base line pieces.flatten.flatten) (Quiet server base) := by
  have hquiet : ∀ c, Building server base line [] c →
      Quiet server base { c with kii := (appendPieces sdk pieces.flatten c.kii).2 } := by
    intro c hc
    obtain ⟨es, hadds, hes⟩ := appendPieces_appends sdk pieces.flatten c.kii
    refine hc.quiet.append (server.pieces_stored pieces.flatten c.kii) hadds.log_eq ?_
    exact fun e he => isRun_of_silent (isSilent_of_isAppend (hes e he))
  have hstage : ∀ c, bodyStage body failed c =
      if (appendPieces sdk pieces.flatten c.kii).1 then
        (false, failed { c with kii := (appendPieces sdk pieces.flatten c.kii).2 })
      else (true, { c with kii := (appendPieces sdk pieces.flatten c.kii).2 }) := by
    intro c
    unfold bodyStage
    rw [anyFails_appends (hbody c.kii)]
  constructor
  · intro c hc hend
    rw [hstage] at hend ⊢
    cases hflag : (appendPieces sdk pieces.flatten c.kii).1 with
    | true =>
        rw [hflag] at hend
        cases hend
    | false =>
        rw [if_neg Bool.false_ne_true]
        refine ⟨hquiet c hc, ?_⟩
        rw [server.pieces_building hflag, hc.building, List.nil_append]
  · intro c hc hend
    rw [hstage] at hend ⊢
    cases hflag : (appendPieces sdk pieces.flatten c.kii).1 with
    | true =>
        rw [if_pos rfl]
        have hsame := hkii { c with kii := (appendPieces sdk pieces.flatten c.kii).2 }
        exact ⟨by rw [hsame]; exact (hquiet c hc).stored, by rw [hsame]; exact (hquiet c hc).log⟩
    | false =>
        rw [hflag] at hend
        cases hend

theorem Quiet.newEvents {server : PropertyServer sdk.api} {base : Kii σ} {c : Call σ}
    (h : Quiet server base c) : ∀ e ∈ newEvents base c.kii, e.isRun = false := by
  obtain ⟨es, hlog, hes⟩ := h.log
  rw [newEvents_eq hlog]
  exact hes

theorem Quiet.unsent {server : PropertyServer sdk.api} {base : Kii σ} {c : Call σ}
    (h : Quiet server base c) (path text : Bytes) :
    Updated server path text base c.kii false :=
  .unsent h.stored h.newEvents

/-- A session that puts a text. -/
theorem session_puts {base : Kii σ} {line : RequestLine} (hput : line.httpMethod = ascii "PUT")
    {body : Bytes} :
    Stage.Triple (Building server base line body) (prvExecuteHttpSession sdk)
      (fun c => Updated server line.resourcePath body base c.kii true)
      (fun c => Updated server line.resourcePath body base c.kii false) := by
  have hsent : ∀ c, Building server base line body c →
      (∃ e ∈ newEvents base (prvExecuteHttpSession sdk c).2.kii, e.isRun = true) ∧
        (server.stored (prvExecuteHttpSession sdk c).2.kii.core = server.stored base.core ∨
          server.stored (prvExecuteHttpSession sdk c).2.kii.core =
            Function.update (server.stored base.core) line.resourcePath body) ∧
        ((prvExecuteHttpSession sdk c).1 = true →
          server.stored (prvExecuteHttpSession sdk c).2.kii.core =
            Function.update (server.stored base.core) line.resourcePath body) := by
    intro c hc
    obtain ⟨es, hlog, -⟩ := hc.quiet.log
    obtain ⟨es', hlog', e, he, hrun⟩ := @session_isRun _ sdk c
    rw [hlog, List.append_assoc] at hlog'
    obtain ⟨heffect, hconfirmed⟩ := server.run_put c.kii.core (by rw [hc.building]; exact hput)
    simp only [hc.building, hc.quiet.stored] at heffect hconfirmed
    rw [newEvents_eq hlog', (session_core c).1]
    refine ⟨⟨e, List.mem_append_right _ he, hrun⟩, heffect, fun hret => ?_⟩
    obtain ⟨hzero, hstatus⟩ := (session_goesOn_iff c).mp hret
    exact hconfirmed hzero hstatus
  constructor
  · intro c hc hend
    obtain ⟨hran, hstored, hconfirmed⟩ := hsent c hc
    exact .sent hran hstored fun _ => hconfirmed hend
  · intro c hc hend
    obtain ⟨hran, hstored, -⟩ := hsent c hc
    exact .sent hran hstored nofun

theorem updateProperty_updated {setPath : PathBuilder} {contentType key value path : Bytes}
    {c : Call σ} (hpath : setPath c.kii.appId c.kii.author.authorId 128 = some path) :
    Updated server path (updateText key value) c.kii
      (updateProperty sdk setPath contentType key value c).2.kii
      (updateProperty sdk setPath contentType key value c).1 := by
  let o : Opening := ⟨ascii "PUT", path, some contentType, true⟩
  have hunsent : ∀ c', Quiet server c.kii c' →
      Updated server path (updateText key value) c.kii c'.kii false :=
    fun c' hc' => hc'.unsent path (updateText key value)
  have hopen := @openStage_builds _ sdk server (fun kii => setPath kii.appId kii.author.authorId 128)
    refusedPath o giveUpInsufficient (fun _ => rfl) (fun _ => rfl) c hpath
  have hbody := @bodyStage_builds _ sdk server (fun _ => updateBody sdk key value) _
    (fun _ => updateBody_appends sdk key value) (fun c => c.setCode .insufficientBuffer)
    (fun _ => rfl) c.kii ⟨o.httpMethod, o.resourcePath, o.contentType⟩
  have hsession := @session_puts _ sdk server c.kii ⟨o.httpMethod, o.resourcePath, o.contentType⟩
    rfl (updateText key value)
  have hall := (hopen.consequence (fun _ h => h) (fun _ h => h) hunsent).andThen
    ((hbody.consequence (fun _ h => h) (fun _ h => h) hunsent).andThen hsession)
  rw [updateProperty_eq]
  cases hend : (updateStages sdk setPath contentType key value c).1 with
  | true => exact hall.goesOn c rfl hend
  | false => exact hall.givesUp c rfl hend

/-- A session that gets the text under a path. -/
theorem session_gets {base : Kii σ} {line : RequestLine} (hget : line.httpMethod = ascii "GET")
    {body : Bytes} {c : Call σ} (hc : Building server base line body c) :
    server.stored (prvExecuteHttpSession sdk c).2.kii.core = server.stored base.core ∧
      ((prvExecuteHttpSession sdk c).1 = true →
        (prvExecuteHttpSession sdk c).2.kii.responseBody =
          server.stored base.core line.resourcePath) := by
  obtain ⟨hsame, hanswer⟩ := server.run_get c.kii.core (by rw [hc.building]; exact hget)
  obtain ⟨hcore, hbody⟩ := @session_core _ sdk c
  simp only [hc.building, hc.quiet.stored] at hsame hanswer
  rw [hcore, hbody]
  refine ⟨hsame, fun hret => ?_⟩
  obtain ⟨hzero, hstatus⟩ := (session_goesOn_iff c).mp hret
  exact hanswer hzero hstatus

theorem readProperty_spec (sdk : Sdk σ) (field : Bytes) (size : Nat) (c : Call σ) :
    (readProperty sdk field size c).2.1.kii.core = c.kii.core ∧
      ((readProperty sdk field size c).1 = true →
        let r := sdk.json.kiiJsonReadObject c.kii.responseBody [propertyField field size]
        r.1 = .success ∧ (readProperty sdk field size c).2.2 = some ((r.2 0).copied.getD [])) := by
  unfold readProperty prvKiiThingIfJsonReadObject
  simp only
  split
  · refine ⟨?_, nofun⟩
    split <;> rfl
  · rename_i hsuccess
    exact ⟨rfl, fun _ => ⟨not_not.mp hsuccess, rfl⟩⟩

theorem requestProperty_got {setPath : PathBuilder} {field path : Bytes} {size : Nat} {c : Call σ}
    (hpath : setPath c.kii.appId c.kii.author.authorId 128 = some path) :
    Got server path field size c.kii (requestProperty sdk setPath field size c).2.1.kii
      (requestProperty sdk setPath field size c).1
      (requestProperty sdk setPath field size c).2.2 := by
  let o : Opening := ⟨ascii "GET", path, none, true⟩
  let started : Call σ := { c with kii := (o.start sdk c.kii).2 }
  have hstored : server.stored started.kii.core = server.stored c.kii.core :=
    server.start_stored c.kii.core (o.call c.kii)
  unfold requestProperty prvKiiApiCallStart
  simp only [hpath]
  by_cases hret : (o.start sdk c.kii).1 ≠ 0
  · have hgiveUp : (kiiApiCallStart sdk c.kii (ascii "GET") path none true).1 ≠ 0 := hret
    simp only [if_pos hgiveUp]
    exact ⟨hstored, nofun⟩
  · have hstart : (kiiApiCallStart sdk c.kii (ascii "GET") path none true).1 = 0 := not_not.mp hret
    simp only [hstart, ne_eq, not_true_eq_false, if_false]
    have hbuilding : Building server c.kii ⟨o.httpMethod, o.resourcePath, o.contentType⟩ []
        started := start_builds server hstart
    obtain ⟨hsame, hanswer⟩ := session_gets server rfl hbuilding
    by_cases hsession : (prvExecuteHttpSession sdk started).1 = false
    · have hfailed : (prvExecuteHttpSession sdk { c with kii := (kiiApiCallStart sdk c.kii
          (ascii "GET") path none true).2 }).1 = false := hsession
      rw [if_pos hfailed]
      exact ⟨hsame, nofun⟩
    · have hgoesOn : ¬ (prvExecuteHttpSession sdk { c with kii := (kiiApiCallStart sdk c.kii
          (ascii "GET") path none true).2 }).1 = false := hsession
      rw [if_neg hgoesOn]
      obtain ⟨hcore, hread⟩ := readProperty_spec sdk field size (prvExecuteHttpSession sdk started).2
      rw [hanswer (eq_true_of_ne_false hsession)] at hread
      exact ⟨(congrArg server.stored hcore).trans hsame, hread⟩

end

/-! ## A server that keeps what it is sent -/

/-- The texts on the server, and the request that is being built. -/
structure Keeping where
  texts : Bytes → Bytes
  line : RequestLine
  body : Bytes

/-- Every request is accepted, and answered as its method says. -/
def Keeping.answer (core : Keeping) : RunResult Keeping where
  ret := 0
  httpError := .none
  responseCode := 200
  responseBody :=
    if core.line.httpMethod = ascii "GET" then core.texts core.line.resourcePath else []
  core :=
    if core.line.httpMethod = ascii "PUT" then
      { core with texts := Function.update core.texts core.line.resourcePath core.body }
    else core

def keepingApi : RequestApi Keeping where
  zeroed := ⟨fun _ => [], ⟨[], [], none⟩, []⟩
  kiiInitWithInfo core _ appId appKey _ :=
    { ret := 0, appId := appId, appKey := appKey, core := core }
  setBuffer core _ := core
  kiiApiCallStart core call := (0, { core with line := call.line, body := [] })
  kiiApiCallAppendBody core bytes := (0, { core with body := core.body ++ bytes })
  kiiApiCallRun := Keeping.answer
  kiiPushStartRoutine core := (0, core)
  taskCreateCb core _ := (true, core)

def keepingServer : PropertyServer keepingApi where
  stored := Keeping.texts
  building core := (core.line, core.body)
  start_stored _ _ := rfl
  start_building _ _ _ := rfl
  append_stored _ _ := rfl
  append_building _ _ _ := rfl
  run_get core hget := by
    have hnot : core.line.httpMethod ≠ ascii "PUT" := by
      rw [show core.line.httpMethod = ascii "GET" from hget]
      decide
    refine ⟨?_, fun _ _ => if_pos hget⟩
    show (if core.line.httpMethod = ascii "PUT" then _ else core : Keeping).texts = core.texts
    rw [if_neg hnot]
  run_put core hput := by
    have hstored : (Keeping.answer core).core.texts =
        Function.update core.texts core.line.resourcePath core.body := by
      show (if core.line.httpMethod = ascii "PUT" then _ else core : Keeping).texts = _
      rw [if_pos hput]
    exact ⟨.inr hstored, fun _ _ => hstored⟩
  push_stored _ := rfl

end ThingIfSdk
