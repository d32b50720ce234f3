import ThingIfSdk.Lib.Run

/-!
# Replicas that are written from snapshots

Writers copy a source to a replica in two steps: each takes a snapshot of its own,
and sends it later.  The replica holds what was delivered last, so that it falls
behind when a snapshot is delivered that was taken before the source has changed.
-/

namespace Replication

open Running

variable {W D : Type} [DecidableEq W]

/-- A source, its replica, and the snapshots that the writers have not sent yet. -/
structure World (W D : Type) where
  source : D
  replica : Option D
  held : W → Option D

/-- What a writer does. -/
inductive Act (D : Type) where
  /-- It changes the source. -/
  | change (source : D)
  | take
  /-- It sends its snapshot, which is delivered or lost. -/
  | send (delivered : Bool)
deriving DecidableEq

def World.step (w : World W D) (writer : W) : Act D → World W D
  | .change source => { w with source := source }
  | .take => { w with held := Function.update w.held writer (some w.source) }
  | .send delivered =>
      { w with
        replica := if delivered then (w.held writer).or w.replica else w.replica
        held := Function.update w.held writer none }

/-- The replica is a copy of the source. -/
def World.Current (w : World W D) : Prop :=
  w.replica = some w.source

/-- The writer holds no snapshot of another state of the source. -/
def World.Fresh (w : World W D) (writer : W) : Prop :=
  ∀ snapshot, w.held writer = some snapshot → snapshot = w.source

/-- A snapshot is delivered that is not of the present source. -/
def World.SendsStale (w : World W D) (writer : W) (act : Act D) : Prop :=
  act = .send true ∧ ∃ snapshot, w.held writer = some snapshot ∧ snapshot ≠ w.source

/-- The act leaves the source alone. -/
def Act.keeps : Act D → Bool
  | .change _ => false
  | _ => true

section

variable {w : World W D} {writer other : W} {act : Act D}

theorem step_source (hact : act.keeps = true) : (w.step writer act).source = w.source := by
  cases act with
  | change source => cases hact
  | take => rfl
  | send delivered => rfl

theorem step_held_of_ne (hne : other ≠ writer) :
    (w.step writer act).held other = w.held other := by
  cases act with
  | change source => rfl
  | take => exact Function.update_of_ne hne _ _
  | send delivered => exact Function.update_of_ne hne _ _

@[simp] theorem take_held : (w.step writer .take).held writer = some w.source :=
  Function.update_self _ _ _

@[simp] theorem send_held (delivered : Bool) :
    (w.step writer (.send delivered)).held writer = none :=
  Function.update_self _ _ _

/-- While the source stays as it is, the replica falls behind exactly when a stale
snapshot is delivered. -/
theorem current_step_iff (hcurrent : w.Current) (hact : act.keeps = true) :
    (w.step writer act).Current ↔ ¬ w.SendsStale writer act := by
  unfold World.Current World.SendsStale at *
  cases act with
  | change source => cases hact
  | take => simpa [World.step] using hcurrent
  | send delivered =>
      cases delivered with
      | false => simpa [World.step] using hcurrent
      | true =>
          cases hheld : w.held writer with
          | none => simpa [World.step, hheld] using hcurrent
          | some snapshot => simp [World.step, hheld]

/-- Sending a fresh snapshot makes the replica current. -/
theorem current_of_send {snapshot : D} (hheld : w.held writer = some snapshot)
    (hfresh : w.Fresh writer) : (w.step writer (.send true)).Current := by
  rw [hfresh snapshot hheld] at hheld
  simp [World.Current, World.step, hheld]

/-- While the source stays as it is, a writer is fresh once it has held another snapshot. -/
theorem held_or_fresh_step {held : Option D} (h : w.Fresh other ∨ w.held other = held)
    (hact : act.keeps = true) :
    (w.step writer act).Fresh other ∨ (w.step writer act).held other = held := by
  by_cases hwriter : other = writer
  · subst hwriter
    refine .inl fun snapshot hheld => ?_
    rw [step_source hact]
    cases act with
    | change source => cases hact
    | take =>
        rw [take_held] at hheld
        exact (Option.some.inj hheld).symm
    | send delivered =>
        rw [send_held] at hheld
        cases hheld
  · unfold World.Fresh at *
    rw [step_held_of_ne hwriter, step_source hact]
    exact h

/-- A writer that holds nothing when the source changes stays fresh. -/
theorem fresh_step (hfresh : w.Fresh other)
    (hchange : act.keeps = false → w.held other = none) : (w.step writer act).Fresh other := by
  cases hact : act.keeps with
  | false =>
      have hnone := hchange hact
      cases act with
      | change source =>
          intro snapshot hheld
          exact absurd (hheld.symm.trans hnone) (Option.some_ne_none snapshot)
      | take => cases hact
      | send delivered => cases hact
  | true =>
      have hkept : w.Fresh other ∨ w.held other = w.held other := .inr rfl
      rcases held_or_fresh_step hkept hact with h | h
      · exact h
      · intro snapshot hheld
        rw [h] at hheld
        rw [step_source hact]
        exact hfresh snapshot hheld

end

/-! ## Runs -/

variable {I : Type}

/-- Writers that take turns in any order; an input tells whose turn it is and what that
writer does, if anything that matters here. -/
def machine (writer : I → W) (act : I → Option (Act D)) : Transducer (World W D) I Unit where
  step w i := ((), (act i).elim w (w.step (writer i)))

section

variable {writer : I → W} {act : I → Option (Act D)} {w : World W D} {inputs : List I}

theorem machine_step_none {i : I} (h : act i = none) : ((machine writer act).step w i).2 = w := by
  simp [machine, h]

theorem machine_step_some {i : I} {a : Act D} (h : act i = some a) :
    ((machine writer act).step w i).2 = w.step (writer i) a := by
  simp [machine, h]

/-- From a current replica on, and until the source changes, the replica stays current
exactly in the runs in which no stale snapshot is delivered. -/
theorem current_run_iff (hcurrent : w.Current)
    (hkeeps : ∀ x ∈ (machine writer act).steps w inputs, ∀ a, act x.input = some a →
      a.keeps = true) :
    (∀ x ∈ (machine writer act).steps w inputs, x.after.Current) ↔
      ∀ x ∈ (machine writer act).steps w inputs, ∀ a, act x.input = some a →
        ¬ x.before.SendsStale (writer x.input) a := by
  induction inputs generalizing w with
  | nil => simp
  | cons i inputs ih =>
      rw [Transducer.steps_cons, List.forall_mem_cons] at hkeeps
      obtain ⟨hkeep, hrest⟩ := hkeeps
      rw [Transducer.steps_cons, List.forall_mem_cons, List.forall_mem_cons]
      have hhere : ((machine writer act).step w i).2.Current ↔
          ∀ a, act i = some a → ¬ w.SendsStale (writer i) a := by
        cases hact : act i with
        | none =>
            rw [machine_step_none hact]
            simp [hcurrent]
        | some a =>
            rw [machine_step_some hact,
              current_step_iff hcurrent (hkeep a hact)]
            simp
      constructor
      · rintro ⟨hafter, hbehind⟩
        exact ⟨hhere.mp hafter, (ih hafter hrest).mp hbehind⟩
      · rintro ⟨hnot, hbehind⟩
        have hafter := hhere.mpr hnot
        exact ⟨hafter, (ih hafter hrest).mpr hbehind⟩

theorem after_of_mem {x : Step (World W D) I Unit} (h : x ∈ (machine writer act).steps w inputs) :
    x.after = (act x.input).elim x.before (x.before.step (writer x.input)) :=
  congrArg Step.after (Transducer.eq_stepAt_of_mem h)

/-- Until the source changes, a snapshot that is stale was held from the start. -/
theorem held_or_fresh_run (other : W)
    (hkeeps : ∀ x ∈ (machine writer act).steps w inputs, ∀ a, act x.input = some a →
      a.keeps = true) :
    ∀ x ∈ (machine writer act).steps w inputs,
      x.before.Fresh other ∨ x.before.held other = w.held other := by
  have hinv := @Transducer.invariant _ _ _ (machine writer act) w inputs
    (fun v => v.Fresh other ∨ v.held other = w.held other) (.inr rfl)
    fun x hx hbefore => ?_
  · exact fun x hx => (hinv x hx).1
  · rw [after_of_mem hx]
    cases hact : act x.input with
    | none => exact hbefore
    | some a => exact held_or_fresh_step hbefore (hkeeps x hx a hact)

/-- A writer that holds nothing whenever the source changes is fresh all along. -/
theorem fresh_run {other : W} (hfresh : w.Fresh other)
    (hchange : ∀ x ∈ (machine writer act).steps w inputs, ∀ a, act x.input = some a →
      a.keeps = false → x.before.held other = none) :
    ∀ x ∈ (machine writer act).steps w inputs, x.before.Fresh other ∧ x.after.Fresh other := by
  refine @Transducer.invariant _ _ _ _ _ _ (fun v : World W D => v.Fresh other) hfresh
    fun x hx hbefore => ?_
  rw [after_of_mem hx]
  cases hact : act x.input with
  | none => exact hbefore
  | some a => exact fresh_step hbefore fun hkeeps => hchange x hx a hact hkeeps

end

end Replication
