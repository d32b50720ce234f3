import ThingIfSdk.Requests.History
import ThingIfSdk.System.Machine

/-!
# In whose name requests are made

Whatever the application, the push routine and the status tasks do, in any order, every
request carries the app id and the app key of the last initialisation, and one that is
no part of an onboarding carries the thing id and the access token of the last onboarding
that succeeded.  Only an onboarding that is cut off behind its token breaks this, and the
next one that succeeds restores it.
-/

namespace ThingIfSdk

open ByteText JsonText Staging Running

variable {σ δ : Type}

/-! ## Signatures -/

/-- The request is one of the kind, whoever makes it. -/
structure ApiCall.IsRequest (call : ApiCall) (kind : RequestKind) : Prop where
  httpMethod : call.httpMethod = kind.httpMethod
  resourcePath : call.resourcePath = kind.resourcePath call.appId call.author.authorId
  contentType : call.contentType = kind.contentType
  authenticated : call.setAuthenticationHeader = kind.authenticated

/-- The request of an opening in the name of a `kii_t`. -/
def Opening.call (o : Opening) (kii : Kii σ) : ApiCall :=
  kii.apiCall o.httpMethod o.resourcePath o.contentType o.setAuthenticationHeader

/-- The app is the same, and every request since has its name and is as described. -/
structure Branded (P : ApiCall → Prop) (before after : Kii σ) : Prop where
  appId : after.appId = before.appId
  appKey : after.appKey = before.appKey
  log : ∃ es, after.log = before.log ++ es ∧ ∀ call ret, .callStart call ret ∈ es →
    call.appId = before.appId ∧ call.appKey = before.appKey ∧ P call

/-- The author is the same too, and is that of every request. -/
structure Signed (P : ApiCall → Prop) (before after : Kii σ) : Prop where
  author : after.author = before.author
  branded : Branded (fun call => call.author = before.author ∧ P call) before after

section

variable {P Q : ApiCall → Prop} {k₁ k₂ k₃ : Kii σ}

theorem Branded.mono (h : Branded P k₁ k₂) (hPQ : ∀ call, P call → Q call) :
    Branded Q k₁ k₂ := by
  obtain ⟨es, hlog, hes⟩ := h.log
  refine ⟨h.appId, h.appKey, es, hlog, fun call ret hmem => ?_⟩
  obtain ⟨happ, hkey, hcall⟩ := hes call ret hmem
  exact ⟨happ, hkey, hPQ call hcall⟩

/-- An entry that is no start. -/
theorem branded_of_entry {e : Event} (happ : k₂.appId = k₁.appId) (hkey : k₂.appKey = k₁.appKey)
    (hlog : k₂.log = k₁.log ++ [e]) (he : ∀ call ret, e ≠ .callStart call ret) :
    Branded P k₁ k₂ := by
  refine ⟨happ, hkey, [e], hlog, fun call ret hmem => ?_⟩
  exact absurd (List.mem_singleton.mp hmem).symm (he call ret)

theorem Branded.refl (P : ApiCall → Prop) (kii : Kii σ) : Branded P kii kii :=
  ⟨rfl, rfl, [], (List.append_nil _).symm, fun _ _ hmem => absurd hmem List.not_mem_nil⟩

theorem Branded.trans (h : Branded P k₁ k₂) (h' : Branded P k₂ k₃) : Branded P k₁ k₃ := by
  obtain ⟨es, hlog, hes⟩ := h.log
  obtain ⟨es', hlog', hes'⟩ := h'.log
  refine ⟨h'.appId.trans h.appId, h'.appKey.trans h.appKey, es ++ es', ?_, ?_⟩
  · rw [hlog', hlog, List.append_assoc]
  · intro call ret hmem
    rcases List.mem_append.mp hmem with hmem | hmem
    · exact hes call ret hmem
    · obtain ⟨happ, hkey, hcall⟩ := hes' call ret hmem
      exact ⟨happ.trans h.appId, hkey.trans h.appKey, hcall⟩

theorem branded_start {sdk : Sdk σ} {o : Opening} {kii : Kii σ} (h : P (o.call kii)) :
    Branded P kii (o.start sdk kii).2 := by
  refine ⟨rfl, rfl, [.callStart (o.call kii) (o.start sdk kii).1], rfl, fun call ret hmem => ?_⟩
  rw [List.mem_singleton, Event.callStart.injEq] at hmem
  rw [hmem.1]
  exact ⟨rfl, rfl, h⟩

end

theorem not_callStart_of_isLocal {e : Event} (h : e.isLocal = true) (call : ApiCall) (ret : Int) :
    e ≠ .callStart call ret := by
  rintro rfl
  cases h

theorem prvWriter_kii (sdk : Sdk σ) (bytes : Bytes) (kii : Kii σ) :
    (prvWriter sdk bytes kii).2 =
      { kii with core := (sdk.api.kiiApiCallAppendBody kii.core bytes).2 }.emit
        (.write bytes (sdk.api.kiiApiCallAppendBody kii.core bytes).1) := by
  unfold prvWriter
  simp only
  split <;> rfl

theorem respects_branded (sdk : Sdk σ) (P : ApiCall → Prop) :
    RespectsAuthors sdk (fun kii o => P (o.call kii)) (Branded P) where
  refl := Branded.refl P
  trans := Branded.trans
  emit _ _ he := branded_of_entry rfl rfl rfl (not_callStart_of_isLocal he)
  append _ _ := branded_of_entry rfl rfl rfl nofun
  write bytes kii := by
    rw [prvWriter_kii]
    exact branded_of_entry rfl rfl rfl nofun
  run _ := branded_of_entry rfl rfl rfl nofun
  start _ _ h := branded_start h
  push _ := branded_of_entry rfl rfl rfl nofun
  task _ := branded_of_entry rfl rfl rfl nofun
  author kii author :=
    ⟨rfl, rfl, [], (List.append_nil _).symm, fun _ _ hmem => absurd hmem List.not_mem_nil⟩

theorem respects_signed (sdk : Sdk σ) (P : ApiCall → Prop) :
    RespectsActions sdk (fun kii o => P (o.call kii)) (Signed P) where
  refl kii := ⟨rfl, .refl _ kii⟩
  trans h h' := by
    refine ⟨h'.author.trans h.author, h.branded.trans ?_⟩
    exact h'.branded.mono fun call hcall => ⟨hcall.1.trans h.author, hcall.2⟩
  emit _ _ he := ⟨rfl, branded_of_entry rfl rfl rfl (not_callStart_of_isLocal he)⟩
  append _ _ := ⟨rfl, branded_of_entry rfl rfl rfl nofun⟩
  write bytes kii := by
    rw [prvWriter_kii]
    exact ⟨rfl, branded_of_entry rfl rfl rfl nofun⟩
  run _ := ⟨rfl, branded_of_entry rfl rfl rfl nofun⟩
  start _ _ h := ⟨rfl, branded_start ⟨rfl, h⟩⟩
  push _ := ⟨rfl, branded_of_entry rfl rfl rfl nofun⟩
  task _ := ⟨rfl, branded_of_entry rfl rfl rfl nofun⟩
  action _ _ _ _ _ := ⟨rfl, branded_of_entry rfl rfl rfl nofun⟩

theorem isRequest_call (kind : RequestKind) (kii : Kii σ) :
    ((kind.opening kii).call kii).IsRequest kind :=
  ⟨rfl, rfl, rfl, rfl⟩

/-! ## What each function requests -/

def Operation.Requests (op : Operation) (call : ApiCall) : Prop :=
  ∃ kind ∈ op.kinds, call.IsRequest kind

/-- The requests that handling a message makes. -/
def CommandRequests (call : ApiCall) : Prop :=
  call.IsRequest .thingState ∨ ∃ commandId, call.IsRequest (.commandResults commandId)

/-- The request of a round, on the path that its task was started with. -/
def RoundRequests (resourcePath : Bytes) (call : ApiCall) : Prop :=
  call.httpMethod = ascii "PUT" ∧ call.resourcePath = resourcePath ∧
    call.contentType = some contentUpdateState ∧ call.setAuthenticationHeader = true

theorem allows_requests (op : Operation) :
    Allows (fun (kii : Kii σ) o => op.Requests (o.call kii)) op.kinds :=
  fun kind hmem kii => ⟨kind, hmem, isRequest_call kind kii⟩

/-- Both onboarding functions make their two requests only. -/
theorem onboarding_brands (sdk : Sdk σ) (thing : KiiThingIf σ) (error : ErrorSlot)
    {op : Operation} (hop : op.isOnboarding = true) :
    Branded op.Requests thing.commandHandler (op.run sdk thing error).thing.commandHandler :=
  ((respects_branded sdk op.Requests).onboarding (allows_requests op) hop thing error).1

/-- The functions that are no onboarding and no initialisation. -/
theorem operation_signs (sdk : Sdk σ) (thing : KiiThingIf σ) (error : ErrorSlot) {op : Operation}
    (hinit : op.isInit = false) (hop : op.isOnboarding = false) :
    Signed op.Requests thing.commandHandler (op.run sdk thing error).thing.commandHandler :=
  ((respects_signed sdk op.Requests).operation (allows_requests op) hinit hop thing error).1

theorem start_signs (sdk : Sdk σ) (P : ApiCall → Prop) (thing : KiiThingIf σ) :
    Signed P thing.commandHandler (start sdk thing).2.commandHandler ∧
      Signed P thing.stateUpdater (start sdk thing).2.stateUpdater :=
  (respects_signed sdk P).startTasks thing

/-- A custom push handler does not use the instance that it is handed. -/
def Handlers.LeaveInstance (handlers : Handlers σ δ) : Prop :=
  ∀ handler, handlers.customPushHandler = some handler →
    ∀ kii device message, (handler kii device message).2.1 = kii

theorem allows_commandRequests (commandId : Bytes) :
    Allows (fun (kii : Kii σ) o => CommandRequests (o.call kii))
      [.thingState, .commandResults commandId] := by
  intro kind hmem kii
  rcases List.mem_cons.mp hmem with rfl | hmem
  · exact .inl (isRequest_call _ kii)
  · rw [List.mem_singleton.mp hmem]
    exact .inr ⟨commandId, isRequest_call _ kii⟩

theorem receivedCallback_signs (sdk : Sdk σ) {handlers : Handlers σ δ}
    (hhandlers : handlers.LeaveInstance) (stack : Stack) (fuel : Nat) (s : CommandState σ δ) :
    Signed CommandRequests s.machine.kii
      (receivedCallback sdk handlers stack fuel s).2.machine.kii := by
  refine (respects_signed sdk CommandRequests).receivedCallback allows_commandRequests ?_ stack
    fuel s
  intro handler hsome kii device message
  rw [hhandlers handler hsome kii device message]
  exact (respects_signed sdk CommandRequests).refl kii

theorem round_signs (sdk : Sdk σ) (stateUpdatePeriod : Int) (resourcePath : Bytes)
    (stateHandler : WriterProgram) (kii : Kii σ) :
    Signed (RoundRequests resourcePath) kii
      (updateStatusRound sdk stateUpdatePeriod resourcePath stateHandler kii) :=
  (respects_signed sdk (RoundRequests resourcePath)).updateStatusRound
    (fun _ => ⟨rfl, rfl, rfl, rfl⟩) stateUpdatePeriod stateHandler kii

theorem enterTask_signs (sdk : Sdk σ) (P : ApiCall → Prop) (kii : Kii σ) :
    Signed P kii (enterTask sdk kii).2 := by
  unfold enterTask
  cases prvSetStateResourcePath sdk.platform kii.appId kii.author.authorId 256 with
  | none => exact (respects_signed sdk P).refusePath kii
  | some resourcePath => exact (respects_signed sdk P).refl kii

end ThingIfSdk
