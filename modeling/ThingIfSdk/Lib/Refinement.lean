import ThingIfSdk.Lib.Run

/-!
# Refinement

An abstract machine is given by what its steps may do: a relation between a state, a
label and the next state.  A transducer refines it when every one of its steps can be
matched; then every run has a path of the abstract machine with the same labels.
-/

namespace Running

variable {S I O A L : Type}

/-- The steps of an abstract machine under a list of labels. -/
inductive Path (next : A → L → A → Prop) : A → List L → A → Prop where
  | nil (a : A) : Path next a [] a
  | cons {a b c : A} {l : L} {ls : List L} (h : next a l b) (rest : Path next b ls c) :
      Path next a (l :: ls) c

/-- The refinement rule: matching every step matches the whole run. -/
theorem Transducer.refines {t : Transducer S I O} {next : A → L → A → Prop}
    {R : S → A → Prop} {label : Step S I O → L} {s : S} {inputs : List I}
    (hstep : ∀ x ∈ t.steps s inputs, ∀ a, R x.before a → ∃ b, next a (label x) b ∧ R x.after b)
    {a : A} (hstart : R s a) :
    ∃ b, Path next a ((t.steps s inputs).map label) b ∧ R (t.after s inputs) b := by
  induction inputs generalizing s a with
  | nil => exact ⟨a, .nil a, hstart⟩
  | cons i inputs ih =>
      obtain ⟨b, hhere, hrelated⟩ := hstep _ List.mem_cons_self a hstart
      obtain ⟨c, hpath, hend⟩ :=
        ih (fun x hx => hstep x (List.mem_cons_of_mem _ hx)) hrelated
      exact ⟨c, .cons hhere hpath, hend⟩

end Running
