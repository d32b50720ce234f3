import Mathlib

/-!
# Runs

A transducer takes inputs one after the other, and each step has an output.  The
steps of a run are listed with the states before and after them, so that a property
of runs is one of such lists; what holds in every state of a run follows from what
a single step keeps.
-/

namespace Running

variable {S I O : Type}

/-- One step of a run. -/
structure Step (S I O : Type) where
  before : S
  input : I
  output : O
  after : S

/-- A deterministic machine with outputs. -/
structure Transducer (S I O : Type) where
  step : S → I → O × S

namespace Transducer

variable (t : Transducer S I O)

/-- The step that is taken in a state on an input. -/
def stepAt (s : S) (i : I) : Step S I O :=
  ⟨s, i, (t.step s i).1, (t.step s i).2⟩

/-- The steps of a run. -/
def steps : S → List I → List (Step S I O)
  | _, [] => []
  | s, i :: inputs => t.stepAt s i :: steps (t.step s i).2 inputs

@[simp] theorem steps_nil (s : S) : t.steps s [] = [] := rfl

@[simp] theorem steps_cons (s : S) (i : I) (inputs : List I) :
    t.steps s (i :: inputs) = t.stepAt s i :: t.steps (t.step s i).2 inputs := rfl

/-- The state that a run leads to. -/
def after (s : S) (inputs : List I) : S :=
  inputs.foldl (fun s i => (t.step s i).2) s

/-- A run goes on from where its first step leads to. -/
theorem steps_from (s : S) (i : I) (inputs : List I) :
    t.steps s (i :: inputs) = t.stepAt s i :: t.steps (t.stepAt s i).after inputs := rfl

theorem steps_append (s : S) (inputs inputs' : List I) :
    t.steps s (inputs ++ inputs') = t.steps s inputs ++ t.steps (t.after s inputs) inputs' := by
  induction inputs generalizing s with
  | nil => rfl
  | cons i inputs ih =>
      rw [List.cons_append, steps_cons, ih]
      rfl

/-- What comes out of a run. -/
def outputs (s : S) (inputs : List I) : List O :=
  (t.steps s inputs).map Step.output

theorem outputs_append (s : S) (inputs inputs' : List I) :
    t.outputs s (inputs ++ inputs') =
      t.outputs s inputs ++ t.outputs (t.after s inputs) inputs' := by
  rw [outputs, steps_append, List.map_append]
  rfl

theorem after_append (s : S) (inputs inputs' : List I) :
    t.after s (inputs ++ inputs') = t.after (t.after s inputs) inputs' :=
  List.foldl_append

variable {t} {s : S} {inputs : List I}

theorem input_mem {x : Step S I O} (h : x ∈ t.steps s inputs) : x.input ∈ inputs := by
  induction inputs generalizing s with
  | nil => cases h
  | cons i inputs ih =>
      rcases List.mem_cons.mp h with rfl | h
      · exact List.mem_cons_self
      · exact List.mem_cons_of_mem i (ih h)

/-- Every step of a run is one of the machine. -/
theorem eq_stepAt_of_mem {x : Step S I O} (h : x ∈ t.steps s inputs) :
    x = t.stepAt x.before x.input := by
  induction inputs generalizing s with
  | nil => cases h
  | cons i inputs ih =>
      rcases List.mem_cons.mp h with rfl | h
      · rfl
      · exact ih h

/-- Behind a step of a run there is a run from where the step leads to. -/
theorem steps_behind {front rest : List (Step S I O)} {x : Step S I O}
    (h : t.steps s inputs = front ++ x :: rest) : ∃ inputs', rest = t.steps x.after inputs' := by
  induction inputs generalizing s front with
  | nil => simp at h
  | cons i inputs ih =>
      rw [steps_cons] at h
      cases front with
      | nil =>
          rw [List.nil_append, List.cons.injEq] at h
          obtain ⟨rfl, rfl⟩ := h
          exact ⟨inputs, rfl⟩
      | cons y front =>
          rw [List.cons_append, List.cons.injEq] at h
          exact ih h.2

/-- The invariant rule: what holds at the start and is kept by every step that is
taken holds before and after every step. -/
theorem invariant {Inv : S → Prop} (hstart : Inv s)
    (hkeeps : ∀ x ∈ t.steps s inputs, Inv x.before → Inv x.after) :
    ∀ x ∈ t.steps s inputs, Inv x.before ∧ Inv x.after := by
  induction inputs generalizing s with
  | nil =>
      intro x hx
      cases hx
  | cons i inputs ih =>
      have hhere : Inv (t.step s i).2 := hkeeps _ List.mem_cons_self hstart
      intro x hx
      rcases List.mem_cons.mp hx with rfl | hx
      · exact ⟨hstart, hhere⟩
      · exact ih hhere (fun y hy => hkeeps y (List.mem_cons_of_mem _ hy)) x hx

/-- The observer rule: an observer who sees the steps only, and starts and goes on in
agreement with the machine, agrees with it before and after every step. -/
theorem observed {Q : Type} {Agrees : S → Q → Prop} {see : Q → Step S I O → Q} {q : Q}
    (hstart : Agrees s q)
    (hkeeps : ∀ x ∈ t.steps s inputs, ∀ q, Agrees x.before q → Agrees x.after (see q x))
    {front rest : List (Step S I O)} {x : Step S I O}
    (h : t.steps s inputs = front ++ x :: rest) :
    Agrees x.before (front.foldl see q) ∧ Agrees x.after (see (front.foldl see q) x) := by
  induction inputs generalizing s q front with
  | nil => simp at h
  | cons i inputs ih =>
      have hhere : Agrees (t.step s i).2 (see q (t.stepAt s i)) :=
        hkeeps _ List.mem_cons_self q hstart
      rw [steps_cons] at h
      cases front with
      | nil =>
          rw [List.nil_append, List.cons.injEq] at h
          obtain ⟨rfl, -⟩ := h
          exact ⟨hstart, hhere⟩
      | cons y front =>
          rw [List.cons_append, List.cons.injEq] at h
          obtain ⟨rfl, hrest⟩ := h
          exact ih hhere (fun z hz => hkeeps z (List.mem_cons_of_mem _ hz)) hrest

/-- The observer who records the steps. -/
theorem recorded {Agrees : S → List (Step S I O) → Prop} (hstart : Agrees s [])
    (hkeeps : ∀ x ∈ t.steps s inputs, ∀ seen, Agrees x.before seen → Agrees x.after (seen ++ [x]))
    {front rest : List (Step S I O)} {x : Step S I O}
    (h : t.steps s inputs = front ++ x :: rest) : Agrees x.before front := by
  have hagrees := (observed hstart hkeeps h).1
  rwa [List.foldl_append_eq_append, List.nil_append, ← List.flatMap_def,
    List.flatMap_singleton'] at hagrees

/-- The invariant rule up to one step of a run: what the steps in front of it keep holds
before it. -/
theorem invariant_until {Inv : S → Prop} (hstart : Inv s) {front rest : List (Step S I O)}
    {x : Step S I O} (h : t.steps s inputs = front ++ x :: rest)
    (hkeeps : ∀ y ∈ front, y = t.stepAt y.before y.input → Inv y.before → Inv y.after) :
    Inv x.before := by
  induction inputs generalizing s front with
  | nil => simp at h
  | cons i inputs ih =>
      rw [steps_cons] at h
      cases front with
      | nil =>
          rw [List.nil_append, List.cons.injEq] at h
          rw [← h.1]
          exact hstart
      | cons y front =>
          rw [List.cons_append, List.cons.injEq] at h
          obtain ⟨rfl, hrest⟩ := h
          exact ih (hkeeps _ List.mem_cons_self rfl hstart) hrest
            fun z hz => hkeeps z (List.mem_cons_of_mem _ hz)

end Transducer

end Running
