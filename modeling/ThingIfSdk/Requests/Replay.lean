import ThingIfSdk.Lib.Run
import ThingIfSdk.Model.Log
import ThingIfSdk.Requests.Bodies

/-!
# The calls of the submodule

The log of a run tells which calls of the submodule it makes, and with the state of the
submodule at its start they can be made again: `results` is what they come to.  `Makes`
follows them through the run.
-/

namespace ThingIfSdk

open ByteText JsonText Staging Running

variable {σ : Type}

/-! ## Calls and results -/

/-- A call of the submodule for a request. -/
inductive SubmoduleCall where
  | start (call : ApiCall)
  | append (bytes : Bytes)
  | run

/-- What the caller sees of it. -/
inductive ApiResult where
  | started (ret : Int)
  | appended (ret : Int)
  | ran (ret : Int) (httpError : HttpError) (responseCode : Int) (responseBody : Bytes)
deriving DecidableEq

/-- The submodule, one call after the other. -/
def submodule (api : RequestApi σ) : Transducer σ SubmoduleCall ApiResult where
  step core
    | .start call =>
        let r := api.kiiApiCallStart core call
        (.started r.1, r.2)
    | .append bytes =>
        let r := api.kiiApiCallAppendBody core bytes
        (.appended r.1, r.2)
    | .run =>
        let r := api.kiiApiCallRun core
        (.ran r.ret r.httpError r.responseCode r.responseBody, r.core)

/-- The call that an entry of the log tells of. -/
def Event.submoduleCall : Event → Option SubmoduleCall
  | .callStart call _ => some (.start call)
  | .appendBody bytes _ => some (.append bytes)
  | .write bytes _ => some (.append bytes)
  | .callRun .. => some .run
  | _ => none

/-- What the calls between two states of a `kii_t` have come to. -/
def results (sdk : Sdk σ) (before after : Kii σ) : List ApiResult :=
  (submodule sdk.api).outputs before.core ((newEvents before after).filterMap Event.submoduleCall)

/-- The calls between the two states are those of the log, and come to the results. -/
structure Makes (sdk : Sdk σ) (before after : Kii σ) (made : List ApiResult) : Prop where
  calls : ∃ es, after.log = before.log ++ es ∧
    (submodule sdk.api).outputs before.core (es.filterMap Event.submoduleCall) = made ∧
    (submodule sdk.api).after before.core (es.filterMap Event.submoduleCall) = after.core

section

variable {sdk : Sdk σ} {k₁ k₂ k₃ : Kii σ} {made made' : List ApiResult}

theorem Makes.results_eq (h : Makes sdk k₁ k₂ made) : results sdk k₁ k₂ = made := by
  obtain ⟨es, hlog, hmade, -⟩ := h.calls
  rw [results, newEvents_eq hlog, hmade]

theorem Makes.refl (kii : Kii σ) : Makes sdk kii kii [] :=
  ⟨[], (List.append_nil _).symm, rfl, rfl⟩

theorem Makes.trans (h : Makes sdk k₁ k₂ made) (h' : Makes sdk k₂ k₃ made') :
    Makes sdk k₁ k₃ (made ++ made') := by
  obtain ⟨es, hlog, hmade, hafter⟩ := h.calls
  obtain ⟨es', hlog', hmade', hafter'⟩ := h'.calls
  refine ⟨es ++ es', ?_, ?_, ?_⟩
  · rw [hlog', hlog, List.append_assoc]
  · rw [List.filterMap_append, Transducer.outputs_append, hmade, hafter, hmade']
  · rw [List.filterMap_append, Transducer.after_append, hafter, hafter']

/-- An entry that tells of no call. -/
theorem Makes.quiet {e : Event} (he : e.submoduleCall = none) (hlog : k₂.log = k₁.log ++ [e])
    (hcore : k₂.core = k₁.core) : Makes sdk k₁ k₂ [] := by
  refine ⟨[e], hlog, ?_, ?_⟩
  · rw [List.filterMap_cons_none he]
    rfl
  · rw [List.filterMap_cons_none he, hcore]
    rfl

theorem makes_start (kii : Kii σ) (httpMethod resourcePath : Bytes)
    (contentType : Option Bytes) (setAuthenticationHeader : Bool) :
    let r := kiiApiCallStart sdk kii httpMethod resourcePath contentType setAuthenticationHeader
    Makes sdk kii r.2 [.started r.1] :=
  ⟨[_], rfl, rfl, rfl⟩

theorem makes_append (bytes : Bytes) (kii : Kii σ) :
    let r := kiiApiCallAppendBody sdk bytes kii
    Makes sdk kii r.2 [.appended r.1] :=
  ⟨[_], rfl, rfl, rfl⟩

theorem makes_run (kii : Kii σ) :
    let r := kiiApiCallRun sdk kii
    Makes sdk kii r.2 [.ran r.1 r.2.httpError r.2.responseCode r.2.responseBody] :=
  ⟨[_], rfl, rfl, rfl⟩

theorem makes_appendPieces (pieces : List Bytes) (kii : Kii σ) :
    ∃ made, Makes sdk kii (appendPieces sdk pieces kii).2 made := by
  induction pieces generalizing kii with
  | nil => exact ⟨[], .refl kii⟩
  | cons piece pieces ih =>
      rw [appendPieces_cons]
      split
      · exact ⟨_, makes_append piece kii⟩
      · obtain ⟨made, hmade⟩ := ih (kiiApiCallAppendBody sdk piece kii).2
        exact ⟨_, (makes_append piece kii).trans hmade⟩

/-- A fixed buffer takes all pieces that fit. -/
theorem makes_fitting {remaining : σ → Nat} (hbuf : FixedBuffer sdk.api remaining)
    (pieces : List Bytes) (kii : Kii σ) (hle : pieces.flatten.length ≤ remaining kii.core) :
    Makes sdk kii (appendPieces sdk pieces kii).2 (List.replicate pieces.length (.appended 0)) := by
  induction pieces generalizing kii with
  | nil => exact .refl kii
  | cons piece pieces ih =>
      rw [List.flatten_cons, List.length_append] at hle
      obtain ⟨hret, hrem⟩ := hbuf.append_fits kii piece (by omega)
      have hfirst := @makes_append _ sdk piece kii
      simp only [hret] at hfirst
      rw [appendPieces_cons, if_neg (not_not.mpr hret), List.length_cons, List.replicate_succ]
      exact hfirst.trans (ih _ (by omega))

end

/-! ## Stages -/

/-- The stage works on the submodule by logged calls only. -/
def MakesCalls (sdk : Sdk σ) (f : Stage (Call σ)) : Prop :=
  ∀ c : Call σ, ∃ made, Makes sdk c.kii (f c).2.kii made

section

variable {sdk : Sdk σ}

theorem makesCalls_openStage {path : Kii σ → Option Bytes} {refused : Call σ → Call σ}
    (hrefused : ∀ c : Call σ, ∃ made, Makes sdk c.kii (refused c).kii made)
    (httpMethod : Bytes) (contentType : Option Bytes) (setAuthenticationHeader : Bool)
    {failed : Stage (Call σ)} (hfailed : ∀ c, (failed c).2.kii = c.kii) :
    MakesCalls sdk
      (openStage sdk path refused httpMethod contentType setAuthenticationHeader failed) := by
  intro c
  unfold openStage
  cases path c.kii with
  | none => exact hrefused c
  | some resourcePath =>
      have hstart := @makes_start _ sdk c.kii httpMethod resourcePath contentType
        setAuthenticationHeader
      simp only
      split
      · rw [hfailed]
        exact ⟨_, hstart⟩
      · exact ⟨_, hstart⟩

theorem makesCalls_bodyStage {body : Kii σ → List (Kii σ → Int × Kii σ)}
    {pieces : Kii σ → List (List Bytes)}
    (hbody : ∀ kii, List.Forall₂ (Appends sdk) (body kii) (pieces kii))
    (failed : Call σ → Call σ) (hfailed : ∀ c, (failed c).kii = c.kii) :
    MakesCalls sdk (bodyStage body failed) := by
  intro c
  obtain ⟨made, hmade⟩ := @makes_appendPieces _ sdk (pieces c.kii).flatten c.kii
  rw [← anyFails_appends (hbody c.kii)] at hmade
  unfold bodyStage
  simp only
  split
  · rw [hfailed]
    exact ⟨made, hmade⟩
  · exact ⟨made, hmade⟩

theorem makes_sessionNotRun (c : Call σ) : Makes sdk c.kii (sessionNotRun c).kii [] := by
  unfold sessionNotRun
  split
  · exact .refl _
  · split
    · exact .refl _
    · exact .refl _
    · exact .refl _
    · exact .quiet rfl rfl rfl

/-- Behind the run of a request the submodule is not called. -/
theorem makes_session (c : Call σ) :
    Makes sdk (kiiApiCallRun sdk c.kii).2 (prvExecuteHttpSession sdk c).2.kii [] := by
  unfold prvExecuteHttpSession
  simp only
  split
  · exact makes_sessionNotRun { c with kii := (kiiApiCallRun sdk c.kii).2 }
  · split
    · exact .refl _
    · rw [sessionRejected_kii]
      exact .refl _

theorem makesCalls_session : MakesCalls sdk (prvExecuteHttpSession sdk) :=
  fun c => ⟨_, (makes_run c.kii).trans (makes_session c)⟩

theorem makesCalls_readToken : MakesCalls sdk (intStage (readToken sdk)) := by
  intro c
  unfold intStage readToken
  simp only
  split <;> exact ⟨[], .quiet rfl rfl rfl⟩

theorem makes_readResponse (c : Call σ) :
    Makes sdk c.kii (intStage (prvThingIfParseOnboardingResponse sdk) c).2.kii [] := by
  unfold intStage prvThingIfParseOnboardingResponse
  simp only
  split <;> exact .quiet rfl rfl rfl

theorem makesCalls_readResponse :
    MakesCalls sdk (intStage (prvThingIfParseOnboardingResponse sdk)) :=
  fun c => ⟨_, makes_readResponse c⟩

theorem MakesCalls.andThen {f g : Stage (Call σ)} (hf : MakesCalls sdk f)
    (hg : MakesCalls sdk g) : MakesCalls sdk (f.andThen g) := by
  intro c
  obtain ⟨made, hmade⟩ := hf c
  cases hend : (f c).1 with
  | false =>
      rw [Stage.andThen_of_false hend]
      exact ⟨made, hmade⟩
  | true =>
      obtain ⟨made', hmade'⟩ := hg (f c).2
      rw [Stage.andThen_of_true hend]
      exact ⟨_, hmade.trans hmade'⟩

/-- The token request, behind its body and behind its start. -/
theorem makesCalls_tokenSession (sdk : Sdk σ) :
    MakesCalls sdk (Stage.andThen (prvExecuteHttpSession sdk) (intStage (readToken sdk))) :=
  makesCalls_session.andThen makesCalls_readToken

theorem makesCalls_tokenBody (sdk : Sdk σ) :
    MakesCalls sdk ((bodyStage (tokenBody sdk) fun c => c.setCode .insufficientBuffer).andThen
      (Stage.andThen (prvExecuteHttpSession sdk) (intStage (readToken sdk)))) :=
  (makesCalls_bodyStage (tokenBody_appends sdk) (fun c => c.setCode .insufficientBuffer)
    fun _ => rfl).andThen (makesCalls_tokenSession sdk)

theorem makesCalls_tokenStages (sdk : Sdk σ) : MakesCalls sdk (tokenStages sdk) := by
  refine MakesCalls.andThen (makesCalls_openStage ?_ _ _ _ fun _ => rfl) (makesCalls_tokenBody sdk)
  intro c
  exact ⟨_, .quiet (e := .tokenPathTooLong) rfl rfl rfl⟩

/-! ## Scripts -/

/-- The calls since `base` come to what the script says, as far as they go. -/
def Obeys (sdk : Sdk σ) (script : List ApiResult) (base : Kii σ) (kii : Kii σ) : Prop :=
  ∀ made, Makes sdk base kii made → made <+: script

variable {script : List ApiResult} {base : Kii σ}

/-- Calls that obey the script have obeyed it before. -/
theorem Obeys.back {kii kii' : Kii σ} {made : List ApiResult} (h : Obeys sdk script base kii')
    (hmade : Makes sdk kii kii' made) : Obeys sdk script base kii := by
  intro made' hmade'
  exact (List.prefix_append made' made).trans (h _ (hmade'.trans hmade))

theorem MakesCalls.reflects {f : Stage (Call σ)} (hf : MakesCalls sdk f) :
    f.Reflects fun c => Obeys sdk script base c.kii := by
  intro c h
  obtain ⟨made, hmade⟩ := hf c
  exact h.back hmade

theorem obeys_of_results {kii : Kii σ} (h : results sdk base kii <+: script) :
    Obeys sdk script base kii := by
  intro made hmade
  rwa [← hmade.results_eq]

/-- Two runs that have come to the same so far come to the same next. -/
theorem next_eq {made : List ApiResult} {a b : ApiResult} (h : made ++ [a] <+: script)
    (h' : made ++ [b] <+: script) : a = b := by
  have heq : made ++ [a] = made ++ [b] :=
    List.prefix_of_prefix_length_le h h' (by simp) |>.eq_of_length (by simp)
  rw [List.append_cancel_left_eq, List.cons.injEq] at heq
  exact heq.1

end

end ThingIfSdk
