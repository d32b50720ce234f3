import ThingIfSdk.Lib.Monitor
import ThingIfSdk.Model.Body

/-!
# Reading the log

Statements about what the SDK does on a `kii_t` are statements about the entries
that a call adds to its log: the handler calls among them, and the bodies with
which requests were run.
-/

namespace ThingIfSdk

open ByteText JsonText Monitoring

variable {σ : Type}

/-- The entries that lie between an earlier and a later state of a `kii_t`. -/
def newEvents (before after : Kii σ) : List Event :=
  after.log.drop before.log.length

theorem newEvents_eq {before after : Kii σ} {es : List Event} (h : after.log = before.log ++ es) :
    newEvents before after = es := by
  unfold newEvents
  rw [h, List.drop_left]

/-- The strings that the action handler was given. -/
def Event.handlerCall : Event → Option (Bytes × Bytes × Bytes)
  | .action aliasName actionName actionParams _ => some (aliasName, actionName, actionParams)
  | _ => none

def handlerCalls (log : List Event) : List (Bytes × Bytes × Bytes) :=
  log.filterMap Event.handlerCall

def Event.isRun : Event → Bool
  | .callRun .. => true
  | _ => false

/-- Follows the body of the request under construction. -/
def bodyMonitor : Monitor Event Bytes where
  start := []
  step body e :=
    match e with
    | .callStart _ _ => []
    | .appendBody bytes ret => if ret = 0 then body ++ bytes else body
    | .write bytes ret => if ret = 0 then body ++ bytes else body
    | _ => body

/-- The bodies with which requests were run, given the body built up before. -/
def sentBodies (body : Bytes) : List Event → List Bytes
  | [] => []
  | e :: rest =>
      (if e.isRun then [body] else []) ++ sentBodies (bodyMonitor.step body e) rest

/-- The entry neither calls the handler nor runs a request. -/
def Event.isSilent (e : Event) : Bool :=
  e.handlerCall.isNone && !e.isRun

@[simp] theorem handlerCalls_nil : handlerCalls [] = [] := rfl

@[simp] theorem handlerCalls_append (log log' : List Event) :
    handlerCalls (log ++ log') = handlerCalls log ++ handlerCalls log' :=
  List.filterMap_append

theorem handlerCalls_of_silent {log : List Event} (h : ∀ e ∈ log, e.isSilent = true) :
    handlerCalls log = [] := by
  rw [handlerCalls, List.filterMap_eq_nil_iff]
  intro e he
  have hs := h e he
  simp only [Event.isSilent, Bool.and_eq_true, Option.isNone_iff_eq_none] at hs
  exact hs.1

@[simp] theorem sentBodies_nil (body : Bytes) : sentBodies body [] = [] := rfl

theorem sentBodies_append (body : Bytes) (log log' : List Event) :
    sentBodies body (log ++ log') =
      sentBodies body log ++ sentBodies (bodyMonitor.runFrom body log) log' := by
  induction log generalizing body with
  | nil => rfl
  | cons e log ih => simp only [List.cons_append, sentBodies, ih, List.append_assoc,
      Monitor.runFrom_cons]

theorem sentBodies_eq_nil {log : List Event} (h : ∀ e ∈ log, e.isRun = false) (body : Bytes) :
    sentBodies body log = [] := by
  induction log generalizing body with
  | nil => rfl
  | cons e log ih =>
      have he := h e List.mem_cons_self
      simp only [sentBodies, he, Bool.false_eq_true, if_false, List.nil_append]
      exact ih (fun e' he' => h e' (List.mem_cons_of_mem _ he')) _

/-! ## Accepted pieces -/

theorem isSilent_of_mem_accepted {pieces : List Bytes} {e : Event} (h : e ∈ accepted pieces) :
    e.isSilent = true := by
  simp only [accepted, List.mem_map] at h
  obtain ⟨p, _, rfl⟩ := h
  rfl

theorem isRun_of_silent {e : Event} (h : e.isSilent = true) : e.isRun = false := by
  simp only [Event.isSilent, Bool.and_eq_true, Bool.not_eq_true'] at h
  exact h.2

@[simp] theorem handlerCalls_accepted (pieces : List Bytes) :
    handlerCalls (accepted pieces) = [] :=
  handlerCalls_of_silent fun _ h => isSilent_of_mem_accepted h

@[simp] theorem sentBodies_accepted (body : Bytes) (pieces : List Bytes) :
    sentBodies body (accepted pieces) = [] :=
  sentBodies_eq_nil (fun _ h => isRun_of_silent (isSilent_of_mem_accepted h)) body

/-- Accepted pieces lengthen the body. -/
@[simp] theorem runFrom_accepted (body : Bytes) (pieces : List Bytes) :
    bodyMonitor.runFrom body (accepted pieces) = body ++ pieces.flatten := by
  induction pieces generalizing body with
  | nil => simp
  | cons p ps ih =>
      rw [accepted_cons, Monitor.runFrom_cons, ih]
      simp [bodyMonitor]

end ThingIfSdk
