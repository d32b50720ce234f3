import ThingIfSdk.System.Ownership

/-!
# Reading the requests back

A server has the method, the path and the content type of a request.  `readRequest`
splits the path at its slashes; with ids that have none it finds the kind of the request,
the app and the thing, for every request of the SDK.
-/

namespace ThingIfSdk

open ByteText JsonText Staging Running

variable {σ δ : Type}

/-! ## Addresses -/

def slash : Byte := 47

/-- The thing that a request is about, for the kinds that have one in their path. -/
def RequestKind.target (kind : RequestKind) (authorId : Bytes) : Option Bytes :=
  match kind with
  | .anonymousToken => none
  | .onboardWithVendorThingId => none
  | .onboardWithThingId => none
  | _ => some authorId

/-- What a request tells apart from its body. -/
structure Address where
  kind : RequestKind
  appId : Bytes
  target : Option Bytes
deriving DecidableEq

def RequestKind.address (kind : RequestKind) (appId authorId : Bytes) : Address :=
  ⟨kind, appId, kind.target authorId⟩

/-- The method, the path and the content type. -/
structure RequestLine where
  httpMethod : Bytes
  resourcePath : Bytes
  contentType : Option Bytes
deriving DecidableEq

def Address.line (a : Address) : RequestLine where
  httpMethod := a.kind.httpMethod
  resourcePath := a.kind.resourcePath a.appId (a.target.getD [])
  contentType := a.kind.contentType

def ApiCall.line (call : ApiCall) : RequestLine :=
  ⟨call.httpMethod, call.resourcePath, call.contentType⟩

def thingPrefix : Bytes := ascii "thing:"

/-- The addresses that a path of these segments can have. -/
def candidates : List Bytes → List Address
  | [_, _, appId, _] =>
      [⟨.onboardWithVendorThingId, appId, none⟩, ⟨.onboardWithThingId, appId, none⟩]
  | [_, _, appId, _, _] => [⟨.anonymousToken, appId, none⟩]
  | [_, _, appId, part, thing, _] =>
      if part = ascii "targets" then
        [⟨.thingState, appId, some (thing.drop thingPrefix.length)⟩]
      else
        [⟨.getFirmwareVersion, appId, some thing⟩, ⟨.updateFirmwareVersion, appId, some thing⟩,
          ⟨.getThingType, appId, some thing⟩, ⟨.updateThingType, appId, some thing⟩]
  | [_, _, appId, _, thing, _, commandId, _] =>
      [⟨.commandResults commandId, appId, some (thing.drop thingPrefix.length)⟩]
  | _ => []

/-- The address that a request line is of. -/
def readRequest (line : RequestLine) : Option Address :=
  (candidates (line.resourcePath.splitOn slash)).find? fun a => a.line = line

/-! ## Segments -/

/-- The path of a kind between its slashes. -/
def RequestKind.segments (appId authorId : Bytes) : RequestKind → List Bytes
  | .anonymousToken => [ascii "api", ascii "apps", appId, ascii "oauth2", ascii "token"]
  | .onboardWithVendorThingId => [ascii "thing-if", ascii "apps", appId, ascii "onboardings"]
  | .onboardWithThingId => [ascii "thing-if", ascii "apps", appId, ascii "onboardings"]
  | .commandResults commandId =>
      [ascii "thing-if", ascii "apps", appId, ascii "targets", ascii "thing:" ++ authorId,
        ascii "commands", commandId, ascii "action-results"]
  | .thingState =>
      [ascii "thing-if", ascii "apps", appId, ascii "targets", ascii "thing:" ++ authorId,
        ascii "states"]
  | .getFirmwareVersion =>
      [ascii "thing-if", ascii "apps", appId, ascii "things", authorId, ascii "firmware-version"]
  | .updateFirmwareVersion =>
      [ascii "thing-if", ascii "apps", appId, ascii "things", authorId, ascii "firmware-version"]
  | .getThingType =>
      [ascii "thing-if", ascii "apps", appId, ascii "things", authorId, ascii "thing-type"]
  | .updateThingType =>
      [ascii "thing-if", ascii "apps", appId, ascii "things", authorId, ascii "thing-type"]

/-- The ids that stand in the path have no slash. -/
structure SlashFree (kind : RequestKind) (appId authorId : Bytes) : Prop where
  appId : slash ∉ appId
  target : ∀ thingId, kind.target authorId = some thingId → slash ∉ thingId
  commandId : ∀ commandId, kind = .commandResults commandId → slash ∉ commandId

theorem resourcePath_eq_segments (kind : RequestKind) (appId authorId : Bytes) :
    kind.resourcePath appId authorId = [slash].intercalate (kind.segments appId authorId) := by
  have hparts : appPath = ascii "api" ++ ([slash] ++ (ascii "apps" ++ [slash])) ∧
      oauthPath = [slash] ++ (ascii "oauth2" ++ ([slash] ++ ascii "token")) ∧
      thingIfAppPath = ascii "thing-if" ++ ([slash] ++ (ascii "apps" ++ [slash])) ∧
      onboardingPath = [slash] ++ ascii "onboardings" ∧
      targetPart = [slash] ++ (ascii "targets" ++ ([slash] ++ ascii "thing:")) ∧
      commandPart = [slash] ++ (ascii "commands" ++ [slash]) ∧
      resultsPart = [slash] ++ ascii "action-results" ∧
      statesPart = [slash] ++ ascii "states" ∧
      thingsPart = [slash] ++ (ascii "things" ++ [slash]) ∧
      firmwareVersionPart = [slash] ++ ascii "firmware-version" ∧
      thingTypePart = [slash] ++ ascii "thing-type" := by decide
  obtain ⟨h₁, h₂, h₃, h₄, h₅, h₆, h₇, h₈, h₉, h₁₀, h₁₁⟩ := hparts
  unfold RequestKind.resourcePath
  cases kind <;>
    simp only [RequestKind.pathParts, RequestKind.segments, h₁, h₂, h₃, h₄, h₅, h₆, h₇, h₈, h₉,
      h₁₀, h₁₁, List.intercalate_cons_cons, List.intercalate_singleton, List.flatten_cons,
      List.flatten_nil, List.append_nil, List.append_assoc]

theorem slash_not_mem_constants :
    slash ∉ ascii "api" ∧ slash ∉ ascii "apps" ∧ slash ∉ ascii "oauth2" ∧
      slash ∉ ascii "token" ∧ slash ∉ ascii "thing-if" ∧ slash ∉ ascii "onboardings" ∧
      slash ∉ ascii "targets" ∧ slash ∉ ascii "thing:" ∧ slash ∉ ascii "commands" ∧
      slash ∉ ascii "action-results" ∧ slash ∉ ascii "states" ∧ slash ∉ ascii "things" ∧
      slash ∉ ascii "firmware-version" ∧ slash ∉ ascii "thing-type" := by decide

/-- The segments come back. -/
theorem splitOn_resourcePath {kind : RequestKind} {appId authorId : Bytes}
    (h : SlashFree kind appId authorId) :
    (kind.resourcePath appId authorId).splitOn slash = kind.segments appId authorId := by
  rw [resourcePath_eq_segments]
  refine List.splitOn_intercalate slash (fun segment hmem => ?_) (by cases kind <;> exact nofun)
  obtain ⟨h₁, h₂, h₃, h₄, h₅, h₆, h₇, h₈, h₉, h₁₀, h₁₁, h₁₂, h₁₃, h₁₄⟩ := slash_not_mem_constants
  have happ := h.appId
  have htarget := h.target
  have hcommand := h.commandId
  have hthing : slash ∉ authorId → slash ∉ ascii "thing:" ++ authorId := by
    rw [List.mem_append]
    exact fun hauthor => not_or.mpr ⟨h₈, hauthor⟩
  cases kind <;>
    simp only [RequestKind.segments, RequestKind.target, List.mem_cons, List.not_mem_nil,
      or_false] at hmem htarget <;>
    grind

/-! ## The way back -/

/-- The kinds that the segments of a path leave open. -/
def RequestKind.siblings : RequestKind → List RequestKind
  | .anonymousToken => [.anonymousToken]
  | .onboardWithVendorThingId => [.onboardWithVendorThingId, .onboardWithThingId]
  | .onboardWithThingId => [.onboardWithVendorThingId, .onboardWithThingId]
  | .commandResults commandId => [.commandResults commandId]
  | .thingState => [.thingState]
  | _ => [.getFirmwareVersion, .updateFirmwareVersion, .getThingType, .updateThingType]

theorem mem_siblings (kind : RequestKind) : kind ∈ kind.siblings := by
  cases kind <;> simp [RequestKind.siblings]

theorem candidates_segments (kind : RequestKind) (appId authorId : Bytes) :
    candidates (kind.segments appId authorId) =
      kind.siblings.map fun sibling => sibling.address appId authorId := by
  have hdrop : (ascii "thing:" ++ authorId).drop thingPrefix.length = authorId :=
    @List.drop_left _ thingPrefix authorId
  have hthings : ascii "things" ≠ ascii "targets" := by decide
  cases kind with
  | commandResults commandId =>
      show [(⟨_, appId, some ((ascii "thing:" ++ authorId).drop thingPrefix.length)⟩ : Address)] = _
      rw [hdrop]
      rfl
  | thingState =>
      simp only [candidates, RequestKind.segments, if_true, hdrop]
      rfl
  | anonymousToken => rfl
  | onboardWithVendorThingId => rfl
  | onboardWithThingId => rfl
  | _ =>
      simp only [candidates, RequestKind.segments, hthings, if_false]
      rfl

theorem line_address (kind : RequestKind) (appId authorId : Bytes) :
    (kind.address appId authorId).line =
      ⟨kind.httpMethod, kind.resourcePath appId authorId, kind.contentType⟩ := by
  cases kind <;> rfl

/-- The two properties have different paths. -/
theorem firmwareVersion_path_ne (appId authorId appId' : Bytes) :
    RequestKind.getFirmwareVersion.resourcePath appId authorId ≠
      RequestKind.getThingType.resourcePath appId' authorId := by
  intro h
  have hlast := congrArg List.getLast? h
  rw [RequestKind.resourcePath, RequestKind.resourcePath] at hlast
  simp only [RequestKind.pathParts, List.flatten_cons, List.flatten_nil, List.append_nil,
    ← List.append_assoc] at hlast
  have hfirmware : firmwareVersionPart.getLast? = some 110 := by decide
  have htype : thingTypePart.getLast? = some 101 := by decide
  simp only [List.getLast?_append, hfirmware, htype, Option.some_or, Option.some.injEq] at hlast
  exact absurd hlast (by decide)

/-- Siblings with the same method and content type are one kind, but for the two getters. -/
theorem sibling_cases {kind sibling : RequestKind} (hmem : sibling ∈ kind.siblings)
    (hmethod : sibling.httpMethod = kind.httpMethod)
    (hcontent : sibling.contentType = kind.contentType) :
    sibling = kind ∨ (sibling = .getFirmwareVersion ∧ kind = .getThingType) ∨
      sibling = .getThingType ∧ kind = .getFirmwareVersion := by
  have hclosed : ∀ kinds : List RequestKind, kinds = RequestKind.siblings .onboardWithThingId ∨
      kinds = RequestKind.siblings .getThingType → ∀ k ∈ kinds, ∀ k' ∈ kinds,
        k.httpMethod = k'.httpMethod → k.contentType = k'.contentType →
          k = k' ∨ (k = .getFirmwareVersion ∧ k' = .getThingType) ∨
            k = .getThingType ∧ k' = .getFirmwareVersion := by
    rintro kinds (rfl | rfl) <;> decide
  cases kind with
  | anonymousToken => exact .inl (List.mem_singleton.mp hmem)
  | commandResults commandId => exact .inl (List.mem_singleton.mp hmem)
  | onboardWithVendorThingId =>
      exact hclosed _ (.inl rfl) _ hmem _ List.mem_cons_self hmethod hcontent
  | onboardWithThingId =>
      exact hclosed _ (.inl rfl) _ hmem _ (mem_siblings .onboardWithThingId) hmethod hcontent
  | thingState => exact .inl (List.mem_singleton.mp hmem)
  | getFirmwareVersion =>
      exact hclosed _ (.inr rfl) _ hmem _ (mem_siblings .getFirmwareVersion) hmethod hcontent
  | updateFirmwareVersion =>
      exact hclosed _ (.inr rfl) _ hmem _ (mem_siblings .updateFirmwareVersion) hmethod hcontent
  | getThingType =>
      exact hclosed _ (.inr rfl) _ hmem _ (mem_siblings .getThingType) hmethod hcontent
  | updateThingType =>
      exact hclosed _ (.inr rfl) _ hmem _ (mem_siblings .updateThingType) hmethod hcontent

/-- Among the addresses with the same segments, the line tells which one it is. -/
theorem eq_address_of_line {kind : RequestKind} {appId authorId : Bytes} {a : Address}
    (hmem : a ∈ candidates (kind.segments appId authorId))
    (hline : a.line = (kind.address appId authorId).line) : a = kind.address appId authorId := by
  rw [candidates_segments] at hmem
  obtain ⟨sibling, hsibling, rfl⟩ := List.mem_map.mp hmem
  rw [line_address, line_address, RequestLine.mk.injEq] at hline
  obtain ⟨hmethod, hpath, hcontent⟩ := hline
  rcases sibling_cases hsibling hmethod hcontent with rfl | ⟨rfl, rfl⟩ | ⟨rfl, rfl⟩
  · rfl
  · exact absurd hpath (firmwareVersion_path_ne appId authorId appId)
  · exact absurd hpath.symm (firmwareVersion_path_ne appId authorId appId)

/-- Every request line is read back. -/
theorem readRequest_line {kind : RequestKind} {appId authorId : Bytes}
    (h : SlashFree kind appId authorId) :
    readRequest (kind.address appId authorId).line = some (kind.address appId authorId) := by
  have hsplit : (kind.address appId authorId).line.resourcePath.splitOn slash =
      kind.segments appId authorId := by
    rw [line_address]
    exact splitOn_resourcePath h
  have hmem : kind.address appId authorId ∈ candidates (kind.segments appId authorId) := by
    rw [candidates_segments]
    exact List.mem_map_of_mem (mem_siblings kind)
  unfold readRequest
  rw [hsplit]
  cases hfind : (candidates (kind.segments appId authorId)).find? fun a =>
      a.line = (kind.address appId authorId).line with
  | none =>
      rw [List.find?_eq_none] at hfind
      exact absurd (decide_eq_true rfl) (hfind _ hmem)
  | some a =>
      have hline : a.line = (kind.address appId authorId).line := by
        simpa using List.find?_some hfind
      rw [eq_address_of_line (List.mem_of_find?_eq_some hfind) hline]

/-! ## Runs -/

/-- The kinds of requests that a move makes. -/
def Move.Makes (kind : RequestKind) : Move δ → Prop
  | .call invocation => kind ∈ invocation.operation.kinds
  | .message .. => kind = .thingState ∨ ∃ commandId, kind = .commandResults commandId
  | _ => False

/-- The ids of both identities have no slash. -/
structure System.SlashFree (s : System σ δ) : Prop where
  command : slash ∉ s.thing.commandHandler.appId ∧ slash ∉ s.thing.commandHandler.author.authorId
  updater : slash ∉ s.thing.stateUpdater.appId ∧ slash ∉ s.thing.stateUpdater.author.authorId

/-- What a server reads off a request of a step: its kind and whose it is.  A round has
the address that its task was entered with. -/
structure ReadBack (front : List (Step (System σ δ) (Move δ) (List Event)))
    (x : Step (System σ δ) (Move δ) (List Event)) (call : ApiCall) : Prop where
  own : (∀ task, x.input ≠ .round task) → ∃ kind, x.input.Makes kind ∧
    readRequest call.line = some (kind.address call.appId call.author.authorId)
  round : ∀ task, x.input = .round task → ∃ y ∈ front, y.input = .enter task ∧
    readRequest call.line = some (RequestKind.thingState.address
      y.before.thing.stateUpdater.appId y.before.thing.stateUpdater.author.authorId)

theorem line_of_isRequest {call : ApiCall} {kind : RequestKind} (h : call.IsRequest kind) :
    call.line = (kind.address call.appId call.author.authorId).line := by
  rw [line_address, ApiCall.line, h.httpMethod, h.resourcePath, h.contentType]

theorem readRequest_of_isRequest {call : ApiCall} {kind : RequestKind} (h : call.IsRequest kind)
    (hfree : SlashFree kind call.appId call.author.authorId) :
    readRequest call.line = some (kind.address call.appId call.author.authorId) := by
  rw [line_of_isRequest h]
  exact readRequest_line hfree

theorem makes_of_requests {s : System σ δ} {move : Move δ} {call : ApiCall}
    (h : move.Requests s call) (hround : ∀ task, move ≠ .round task) :
    ∃ kind, move.Makes kind ∧ call.IsRequest kind := by
  cases move with
  | call invocation =>
      obtain ⟨kind, hmem, hrequest⟩ := h
      exact ⟨kind, hmem, hrequest⟩
  | message stack fuel buffer =>
      rcases h with hrequest | ⟨commandId, hrequest⟩
      · exact ⟨_, .inl rfl, hrequest⟩
      · exact ⟨_, .inr ⟨commandId, rfl⟩, hrequest⟩
  | round task => exact absurd rfl (hround task)
  | enter task => exact h.elim
  | sense device => exact h.elim

/-- An onboarding has no thing in its paths. -/
theorem target_of_onboarding {op : Operation} (hop : op.isOnboarding = true) {kind : RequestKind}
    (hmem : kind ∈ op.kinds) (authorId : Bytes) : kind.target authorId = none := by
  cases op with
  | onboardWithVendorThingId args =>
      simp only [Operation.kinds, List.mem_cons, List.not_mem_nil, or_false] at hmem
      rcases hmem with rfl | rfl <;> rfl
  | onboardWithThingId args =>
      simp only [Operation.kinds, List.mem_cons, List.not_mem_nil, or_false] at hmem
      rcases hmem with rfl | rfl <;> rfl
  | _ => cases hop

theorem target_eq {kind : RequestKind} {authorId thingId : Bytes}
    (h : kind.target authorId = some thingId) : thingId = authorId := by
  cases kind with
  | anonymousToken => cases h
  | onboardWithVendorThingId => cases h
  | onboardWithThingId => cases h
  | _ => exact (Option.some.inj h).symm

/-- The request of a move that is no round has slash-free ids where the instance has. -/
theorem slashFree_of_made {s : System σ δ} (hs : s.SlashFree) {move : Move δ} {call : ApiCall}
    (hmade : MadeBy s.thing.commandHandler move call ∨ MadeBy s.thing.stateUpdater move call)
    {kind : RequestKind} (hkind : move.Makes kind)
    (hcommand : ∀ commandId, kind = .commandResults commandId → slash ∉ commandId) :
    SlashFree kind call.appId call.author.authorId := by
  refine ⟨?_, fun thingId htarget => ?_, hcommand⟩
  · rcases hmade with hmade | hmade
    · rw [hmade.appId]
      exact hs.command.1
    · rw [hmade.appId]
      exact hs.updater.1
  · have hop : move.isOnboarding = false := by
      cases hop : move.isOnboarding with
      | false => rfl
      | true =>
          cases move with
          | call invocation =>
              rw [target_of_onboarding hop hkind] at htarget
              cases htarget
          | _ => cases hop
    rw [target_eq htarget]
    rcases hmade with hmade | hmade
    · rw [hmade.author hop]
      exact hs.command.2
    · rw [hmade.author hop]
      exact hs.updater.2

/-- The path of a looping task is the one of the instance as the task was entered. -/
def TasksRecorded (s : System σ δ) (seen : List (Step (System σ δ) (Move δ) (List Event))) :
    Prop :=
  ∀ (task : Nat) (resourcePath : Bytes), s.tasks[task]? = some (.looping resourcePath) →
    ∃ y ∈ seen, y.input = .enter task ∧ resourcePath = RequestKind.thingState.resourcePath
      y.before.thing.stateUpdater.appId y.before.thing.stateUpdater.author.authorId

section

variable {sdk : Sdk σ} {handlers : Handlers σ δ}

/-- Only by being entered does a task come to loop. -/
theorem tasks_step (s : System σ δ) (move : Move δ) {task : Nat} {resourcePath : Bytes}
    (h : (s.step sdk handlers move).2.tasks[task]? = some (.looping resourcePath)) :
    s.tasks[task]? = some (.looping resourcePath) ∨
      move = .enter task ∧ resourcePath = RequestKind.thingState.resourcePath
        s.thing.stateUpdater.appId s.thing.stateUpdater.author.authorId := by
  cases move with
  | call invocation =>
      -- A call can only add a task that has not been entered.
      have htasks : ∀ events, (tasksAfter s.tasks events)[task]? = some (.looping resourcePath) →
          s.tasks[task]? = some (.looping resourcePath) := by
        intro events hsome
        unfold tasksAfter at hsome
        split at hsome
        · rw [List.getElem?_append] at hsome
          split at hsome
          · exact hsome
          · obtain ⟨hlt, hcreated⟩ := List.getElem?_eq_some_iff.mp hsome
            rw [List.getElem_singleton] at hcreated
            cases hcreated
        · exact hsome
      exact .inl (htasks _ h)
  | message stack fuel buffer => exact .inl h
  | enter entered =>
      unfold System.step System.afterEnter at h
      simp only at h
      split at h
      · rename_i hcreated
        rw [List.getElem?_set] at h
        split at h
        · rename_i heq
          refine .inr ⟨by rw [heq], ?_⟩
          rw [if_pos (List.getElem?_eq_some_iff.mp hcreated).1, Option.some.injEq] at h
          unfold enterTask at h
          cases hpath : prvSetStateResourcePath sdk.platform s.thing.stateUpdater.appId
              s.thing.stateUpdater.author.authorId 256 with
          | none =>
              rw [hpath] at h
              cases h
          | some path =>
              rw [hpath] at h
              rw [← StatusTask.looping.inj h]
              exact resourcePath_of_set hpath
        · exact .inl h
      · exact .inl h
  | round entered =>
      unfold System.step System.afterRound at h
      simp only at h
      split at h <;> exact .inl h
  | sense device => exact .inl h

end

/-- In every run on ids without slashes, a server reads back from each request what it
is about and whose it is; the rounds of a status task have the address of the thing for
which the task was entered. -/
theorem requests_readBack {sdk : Sdk σ} {handlers : Handlers σ δ}
    (hhandlers : handlers.LeaveInstance) (thing : KiiThingIf σ) (device : δ)
    (moves : List (Move δ)) {front rest : List (Step (System σ δ) (Move δ) (List Event))}
    {x : Step (System σ δ) (Move δ) (List Event)}
    (hrun : (systemMachine sdk handlers).steps (.fresh thing device) moves = front ++ x :: rest)
    (hfree : ∀ y ∈ front ++ [x], y.before.SlashFree) {call : ApiCall} {ret : Int}
    (hmem : .callStart call ret ∈ x.output)
    (hcommand : ∀ commandId, call.IsRequest (.commandResults commandId) → slash ∉ commandId) :
    ReadBack front x call := by
  have hx : x ∈ (systemMachine sdk handlers).steps (.fresh thing device) moves := by
    rw [hrun]
    simp
  have hout : x.output = (x.before.step sdk handlers x.input).1 := by
    have heq := Transducer.eq_stepAt_of_mem hx
    rw [heq]
    rfl
  rw [hout] at hmem
  obtain ⟨hrequests, hmade⟩ := step_requests hhandlers x.before x.input hmem
  -- The move that entered a task stands in front of each of its rounds.
  have hrecorded : TasksRecorded x.before front :=
    @Transducer.recorded _ _ _ (systemMachine sdk handlers) _ _ TasksRecorded
      (fun _ _ hnone => by cases hnone) (fun y hy seen h => by
        have heq := Transducer.eq_stepAt_of_mem hy
        intro task resourcePath hsome
        rw [heq] at hsome
        rcases tasks_step y.before y.input hsome with hold | ⟨hinput, hpath⟩
        · obtain ⟨z, hz, hinput, hpath⟩ := h task resourcePath hold
          exact ⟨z, List.mem_append_left _ hz, hinput, hpath⟩
        · exact ⟨y, by simp, hinput, hpath⟩) _ _ _ hrun
  refine ⟨fun hround => ?_, fun task hinput => ?_⟩
  · obtain ⟨kind, hkind, hrequest⟩ := makes_of_requests hrequests hround
    refine ⟨kind, hkind, readRequest_of_isRequest hrequest ?_⟩
    exact slashFree_of_made (hfree x (by simp)) hmade hkind fun commandId heq =>
      hcommand commandId (heq ▸ hrequest)
  · rw [hinput] at hrequests
    obtain ⟨resourcePath, htask, hmethod, hpath, hcontent, -⟩ := hrequests
    obtain ⟨y, hy, henter, hentered⟩ := hrecorded task resourcePath htask
    refine ⟨y, hy, henter, ?_⟩
    have hline : call.line = (RequestKind.thingState.address y.before.thing.stateUpdater.appId
        y.before.thing.stateUpdater.author.authorId).line := by
      rw [line_address, ApiCall.line, hmethod, hpath, hcontent, hentered]
      rfl
    have hids := (hfree y (List.mem_append_left _ hy)).updater
    rw [hline]
    refine readRequest_line ⟨hids.1, fun thingId htarget => ?_, nofun⟩
    rw [target_eq htarget]
    exact hids.2

/-! ## A round read back -/

/-- The request of the round in `startedFrom`. -/
def roundCall : ApiCall :=
  RequestKind.thingState.call (startedFrom [onboardedInit, startMove, .enter 0]).thing.stateUpdater

/-- The last move of the sample is a round whose request is read back. -/
theorem startedRound_readBack :
    ReadBack [idleMachine.stepAt (.fresh (steadyThing []) 0) onboardedInit,
        idleMachine.stepAt (startedFrom [onboardedInit]) startMove,
        idleMachine.stepAt (startedFrom [onboardedInit, startMove]) (.enter 0)]
      (idleMachine.stepAt (startedFrom [onboardedInit, startMove, .enter 0]) (.round 0))
      roundCall := by
  refine @requests_readBack _ _ steadySdk idleHandlers nofun (steadyThing []) 0
    [onboardedInit, startMove, .enter 0, .round 0] _ [] _ rfl ?_ roundCall (-1) ?_ ?_
  · intro y hy
    simp only [List.cons_append, List.nil_append, List.mem_cons, List.not_mem_nil, or_false] at hy
    rcases hy with rfl | rfl | rfl | rfl <;> exact ⟨by decide, by decide⟩
  · decide
  · intro commandId h
    have hne : some contentUpdateState ≠ some contentTypeJson := by decide
    exact absurd h.contentType hne

end ThingIfSdk
