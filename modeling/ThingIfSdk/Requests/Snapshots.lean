import ThingIfSdk.Requests.State

/-!
# What a state handler sends

A state handler writes its text piece by piece.  One that gives up when a piece is refused
sends the text as a whole or not at all.
-/

namespace ThingIfSdk

open ByteText JsonText Monitoring

variable {σ δ : Type}

namespace WriterProgram

/-- What is written when every piece is accepted. -/
def text : WriterProgram → Bytes
  | done _ => []
  | write buff next => buff ++ (next true).text

/-- It returns `KII_FALSE` in the end. -/
def GivesUp : WriterProgram → Prop
  | done ret => ret = false
  | write _ next => ∀ accepted, (next accepted).GivesUp

/-- It gives up when a piece is refused. -/
def Honest : WriterProgram → Prop
  | done _ => True
  | write _ next => (next true).Honest ∧ (next false).GivesUp

end WriterProgram

theorem prvWriter_result (sdk : Sdk σ) (buff : Bytes) (kii : Kii σ) :
    let ret := (sdk.api.kiiApiCallAppendBody kii.core buff).1
    (prvWriter sdk buff kii).1 = decide (ret = 0) ∧
      (prvWriter sdk buff kii).2.log = kii.log ++ [.write buff ret] := by
  unfold prvWriter
  simp only
  split
  · rename_i hret
    exact ⟨(decide_eq_false hret).symm, rfl⟩
  · rename_i hret
    exact ⟨(decide_eq_true (not_not.mp hret)).symm, rfl⟩

theorem runWriter_of_givesUp (sdk : Sdk σ) {w : WriterProgram} (h : w.GivesUp) (kii : Kii σ) :
    (runWriter sdk w kii).1 = false := by
  induction w generalizing kii with
  | done ret => exact h
  | write buff next ih => exact ih _ (h _) _

/-- An honest handler that succeeds has written its whole text. -/
theorem runWriter_of_honest (sdk : Sdk σ) {w : WriterProgram} (h : w.Honest) {kii : Kii σ}
    (hret : (runWriter sdk w kii).1 = true) :
    ∃ writes, (runWriter sdk w kii).2.log = kii.log ++ (writes ++ [.stateHandler true]) ∧
      (∀ e ∈ writes, e.isWrite = true) ∧
      ∀ body, bodyMonitor.runFrom body writes = body ++ w.text := by
  induction w generalizing kii with
  | done ret =>
      have htrue : ret = true := hret
      rw [htrue]
      exact ⟨[], rfl, fun _ he => absurd he List.not_mem_nil,
        fun body => (List.append_nil body).symm⟩
  | write buff next ih =>
      obtain ⟨hresult, hlog⟩ := prvWriter_result sdk buff kii
      have hgoesOn : (runWriter sdk (next (prvWriter sdk buff kii).1)
        (prvWriter sdk buff kii).2).1 = true := hret
      cases haccepted : (prvWriter sdk buff kii).1 with
      | false =>
          -- the piece was refused, and the handler does not succeed
          rw [haccepted, runWriter_of_givesUp sdk h.2] at hgoesOn
          cases hgoesOn
      | true =>
          rw [haccepted] at hgoesOn hresult
          have hzero := of_decide_eq_true hresult.symm
          obtain ⟨writes, hwritten, hwrites, htext⟩ := ih true h.1 hgoesOn
          refine ⟨.write buff 0 :: writes, ?_, ?_, ?_⟩
          · show (runWriter sdk (next (prvWriter sdk buff kii).1) (prvWriter sdk buff kii).2).2.log = _
            rw [haccepted, hwritten, hlog, hzero, List.append_assoc]
            rfl
          · intro e he
            rcases List.mem_cons.mp he with rfl | he
            · rfl
            · exact hwrites e he
          · intro body
            rw [Monitor.runFrom_cons, htext]
            exact List.append_assoc body buff (next true).text

/-! ## Uploads -/

/-- No request is run, or one whose body is the text. -/
def Uploads (text : Bytes) (es : List Event) : Prop :=
  ∀ body, sentBodies body es = [] ∨ sentBodies body es = [text]

theorem uploads_of_unsent {text : Bytes} {es : List Event} (h : ∀ e ∈ es, e.isRun = false) :
    Uploads text es :=
  fun body => .inl (sentBodies_eq_nil h body)

theorem isRun_of_isWrite {e : Event} (h : e.isWrite = true) : e.isRun = false := by
  cases e with
  | write => rfl
  | _ => cases h

/-- The events of a state request that comes to its end. -/
theorem uploads_run {text : Bytes} {writes : List Event} (hwrites : ∀ e ∈ writes, e.isWrite = true)
    (htext : ∀ body, bodyMonitor.runFrom body writes = body ++ text) (call : ApiCall) (ret : Int)
    (httpError : HttpError) (responseCode : Int) :
    Uploads text (.callStart call 0 ::
      (writes ++ [.stateHandler true, .callRun ret httpError responseCode])) := by
  intro body
  refine .inr ?_
  have hquiet : sentBodies [] writes = [] :=
    sentBodies_eq_nil (fun e he => isRun_of_isWrite (hwrites e he)) []
  show sentBodies [] (writes ++ _) = _
  rw [sentBodies_append, hquiet, htext]
  rfl

/-- The part of a state request behind its path, with an honest handler. -/
theorem stateRequest_uploads (sdk : Sdk σ) {w : WriterProgram} (h : w.Honest) (kii : Kii σ)
    (resourcePath : Bytes) :
    let start := kiiApiCallStart sdk kii (ascii "PUT") resourcePath (some contentUpdateState) true
    let written := runWriter sdk w start.2
    ∃ es, Uploads w.text es ∧
      (if start.1 ≠ 0 then start.2
        else if written.1 = false then written.2
        else (kiiApiCallRun sdk written.2).2).log = kii.log ++ es := by
  have hstart := (adds_start sdk kii (ascii "PUT") resourcePath (some contentUpdateState)
    true).log_eq
  simp only
  split
  · exact ⟨_, uploads_of_unsent (by simp [Event.isRun]), hstart⟩
  · rename_i hret
    rw [not_not.mp hret] at hstart
    split
    · obtain ⟨writes, hwrites, hwritten⟩ := runWriter_log sdk w
        (kiiApiCallStart sdk kii (ascii "PUT") resourcePath (some contentUpdateState) true).2
      rw [hstart, List.append_assoc] at hwritten
      refine ⟨_, uploads_of_unsent fun e he => ?_, hwritten⟩
      simp only [List.cons_append, List.nil_append, List.mem_cons, List.mem_append,
        List.not_mem_nil, or_false] at he
      rcases he with rfl | he | rfl
      · rfl
      · exact isRun_of_isWrite (hwrites e he)
      · rfl
    · rename_i hw
      obtain ⟨writes, hwritten, hwrites, htext⟩ :=
        runWriter_of_honest sdk h (eq_true_of_ne_false hw)
      have hrun := kiiApiCallRun_log sdk (runWriter sdk w (kiiApiCallStart sdk kii (ascii "PUT")
        resourcePath (some contentUpdateState) true).2).2
      rw [hwritten, hstart] at hrun
      simp only [List.append_assoc, List.cons_append, List.nil_append] at hrun
      exact ⟨_, uploads_run hwrites htext _ _ _ _, hrun⟩

theorem prvSendState_uploads (sdk : Sdk σ) {w : WriterProgram} (h : w.Honest) (kii : Kii σ) :
    ∃ es, Uploads w.text es ∧ (prvSendState sdk w kii).2.log = kii.log ++ es := by
  unfold prvSendState
  cases prvSetStateResourcePath sdk.platform kii.appId kii.author.authorId 256 with
  | none => exact ⟨_, uploads_of_unsent (by simp [Event.isRun]), List.append_assoc _ _ _⟩
  | some resourcePath =>
      obtain ⟨es, hes, hlog⟩ := stateRequest_uploads sdk h kii resourcePath
      refine ⟨es, hes, ?_⟩
      rw [← hlog]
      simp only
      split
      · rfl
      · split
        · rfl
        · split <;> rfl

theorem updateStatusRound_uploads (sdk : Sdk σ) (stateUpdatePeriod : Int) (resourcePath : Bytes)
    {w : WriterProgram} (h : w.Honest) (kii : Kii σ) :
    ∃ es, Uploads w.text es ∧
      (updateStatusRound sdk stateUpdatePeriod resourcePath w kii).log = kii.log ++ es := by
  obtain ⟨es, hes, hlog⟩ := stateRequest_uploads sdk h
    (kii.emit (.delayMs (delayArgument sdk.platform stateUpdatePeriod))) resourcePath
  rw [Kii.emit_log, List.append_assoc] at hlog
  refine ⟨.delayMs (delayArgument sdk.platform stateUpdatePeriod) :: es, fun body => ?_, hlog⟩
  exact hes body

end ThingIfSdk
