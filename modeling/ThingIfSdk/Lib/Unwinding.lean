import ThingIfSdk.Lib.Run

/-!
# Observers who are kept in the dark

An observer of a machine is told of some steps only, and of those only a part.  The
unwinding rule says when that is all that counts for it: two runs that tell it the same
then do the same before its eyes.
-/

namespace Running

variable {S I O V E : Type}

/-- One observer's relation to a machine: `told` is what a step tells it, `sees` what it
sees of a step that it is told of. -/
structure Unwinding (t : Transducer S I O) (told : Step S I O → Option V)
    (sees : Step S I O → E) (Alike : S → S → Prop) : Prop where
  symm : ∀ {s s'}, Alike s s' → Alike s' s
  /-- A step that it is not told of makes no difference to it. -/
  hidden : ∀ {s s' i}, Alike s s' → told (t.stepAt s i) = none → Alike (t.step s i).2 s'
  /-- Steps that tell it the same do the same. -/
  shown : ∀ {s s' i i' v}, Alike s s' → told (t.stepAt s i) = some v →
    told (t.stepAt s' i') = some v →
      sees (t.stepAt s i) = sees (t.stepAt s' i') ∧ Alike (t.step s i).2 (t.step s' i').2

/-- What an observer sees of a run. -/
def Transducer.shows (t : Transducer S I O) (told : Step S I O → Option V)
    (sees : Step S I O → E) (s : S) (inputs : List I) : List E :=
  ((t.steps s inputs).filter fun x => (told x).isSome).map sees

section

variable {t : Transducer S I O} {told : Step S I O → Option V} {sees : Step S I O → E}

theorem Transducer.shows_of_hidden {s : S} {i : I} (h : told (t.stepAt s i) = none)
    (inputs : List I) :
    t.shows told sees s (i :: inputs) = t.shows told sees (t.step s i).2 inputs := by
  unfold Transducer.shows
  rw [steps_cons, List.filter_cons_of_neg (by rw [h]; exact Bool.false_ne_true)]

theorem Transducer.shows_of_shown {s : S} {i : I} {v : V} (h : told (t.stepAt s i) = some v)
    (inputs : List I) :
    t.shows told sees s (i :: inputs) =
      sees (t.stepAt s i) :: t.shows told sees (t.step s i).2 inputs := by
  unfold Transducer.shows
  rw [steps_cons, List.filter_cons_of_pos (by rw [h]; rfl), List.map_cons]

namespace Unwinding

variable {Alike : S → S → Prop} (u : Unwinding t told sees Alike)
include u

/-- A run that tells the observer nothing. -/
theorem silent {s s' : S} (h : Alike s s') {inputs : List I}
    (hnone : (t.steps s inputs).filterMap told = []) :
    t.shows told sees s inputs = [] ∧ Alike (t.after s inputs) s' := by
  induction inputs generalizing s with
  | nil => exact ⟨rfl, h⟩
  | cons i inputs ih =>
      have hhere : told (t.stepAt s i) = none :=
        List.filterMap_eq_nil_iff.mp hnone _ List.mem_cons_self
      rw [Transducer.steps_cons, List.filterMap_cons_none hhere] at hnone
      rw [Transducer.shows_of_hidden hhere]
      exact ih (u.hidden h hhere) hnone

/-- A run that tells the observer something, up to the step behind which it does. -/
theorem advance {s s' : S} (h : Alike s s') {inputs : List I} {v : V} {vs : List V}
    (hsome : (t.steps s inputs).filterMap told = v :: vs) :
    ∃ (s₁ : S) (i : I) (rest : List I), Alike s₁ s' ∧ told (t.stepAt s₁ i) = some v ∧
      (t.steps (t.step s₁ i).2 rest).filterMap told = vs ∧
      t.shows told sees s inputs =
        sees (t.stepAt s₁ i) :: t.shows told sees (t.step s₁ i).2 rest ∧
      t.after s inputs = t.after (t.step s₁ i).2 rest := by
  induction inputs generalizing s with
  | nil => cases hsome
  | cons i inputs ih =>
      rw [Transducer.steps_cons] at hsome
      cases hhere : told (t.stepAt s i) with
      | none =>
          rw [List.filterMap_cons_none hhere] at hsome
          obtain ⟨s₁, j, rest, halike, htold, hvs, hshows, hafter⟩ := ih (u.hidden h hhere) hsome
          exact ⟨s₁, j, rest, halike, htold, hvs,
            (Transducer.shows_of_hidden hhere inputs).trans hshows, hafter⟩
      | some w =>
          rw [List.filterMap_cons_some hhere, List.cons.injEq] at hsome
          obtain ⟨rfl, hvs⟩ := hsome
          exact ⟨s, i, inputs, h, hhere, hvs, Transducer.shows_of_shown hhere inputs, rfl⟩

/-- The unwinding rule. -/
theorem shows_eq {s s' : S} (h : Alike s s') {inputs inputs' : List I}
    (htold : (t.steps s inputs).filterMap told = (t.steps s' inputs').filterMap told) :
    t.shows told sees s inputs = t.shows told sees s' inputs' ∧
      Alike (t.after s inputs) (t.after s' inputs') := by
  -- by induction on what the observer is told, the two runs advancing to the next of it
  generalize hvs : (t.steps s inputs).filterMap told = vs at htold
  induction vs generalizing s s' inputs inputs' with
  | nil =>
      obtain ⟨hshows, hafter⟩ := u.silent h hvs
      obtain ⟨hshows', hafter'⟩ := u.silent (u.symm hafter) htold.symm
      exact ⟨hshows.trans hshows'.symm, u.symm hafter'⟩
  | cons v vs ih =>
      obtain ⟨s₁, i, rest, h₁, hi, hrest, hshows, hafter⟩ := u.advance h hvs
      obtain ⟨s₂, j, rest', h₂, hj, hrest', hshows', hafter'⟩ :=
        u.advance (u.symm h₁) htold.symm
      obtain ⟨hsees, hstep⟩ := u.shown (u.symm h₂) hi hj
      obtain ⟨hlater, hend⟩ := ih hstep hrest hrest'.symm
      rw [hshows, hshows', hafter, hafter', hsees, hlater]
      exact ⟨rfl, hend⟩

end Unwinding

end

end Running
