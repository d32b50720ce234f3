import Mathlib

/-!
# Stages that may give up

A stage works on a state and tells whether the work goes on.  Stages are put in
sequence with `andThen`; the first that gives up ends the sequence.  A triple
says what holds behind a stage that goes on and behind one that gives up, so that
a property of a sequence is put together from one triple for each of its stages.
`Related` compares two stages that run side by side, in runs of which one knows
something about the end.
-/

namespace Staging

variable {α : Type}

/-- Work on a state, and whether to go on. -/
abbrev Stage (α : Type) := α → Bool × α

namespace Stage

/-- Work on with `g` unless `f` gives up. -/
def andThen (f g : Stage α) : Stage α :=
  fun a => if (f a).1 = false then (false, (f a).2) else g (f a).2

theorem andThen_of_goesOn {f : Stage α} {a a' : α} (h : f a = (true, a')) (g : Stage α) :
    f.andThen g a = g a' := by
  unfold andThen
  rw [h, if_neg nofun]

theorem andThen_of_givesUp {f : Stage α} {a a' : α} (h : f a = (false, a')) (g : Stage α) :
    f.andThen g a = (false, a') := by
  unfold andThen
  rw [h, if_pos rfl]

theorem andThen_of_true {f : Stage α} {a : α} (h : (f a).1 = true) (g : Stage α) :
    f.andThen g a = g (f a).2 :=
  andThen_of_goesOn (Prod.ext h rfl) g

theorem andThen_of_false {f : Stage α} {a : α} (h : (f a).1 = false) (g : Stage α) :
    f.andThen g a = (false, (f a).2) :=
  if_pos h

theorem andThen_assoc (f g h : Stage α) : (f.andThen g).andThen h = f.andThen (g.andThen h) := by
  funext a
  unfold andThen
  by_cases hf : (f a).1 = false
  · rw [if_pos hf, if_pos hf, if_pos rfl]
  · rw [if_neg hf, if_neg hf]

/-- Whenever the stage goes on, it does so with `Q`. -/
def Ensures (f : Stage α) (Q : α → Prop) : Prop :=
  ∀ a, (f a).1 = true → Q (f a).2

/-- The last stage of a sequence decides. -/
theorem Ensures.andThen {f g : Stage α} {Q : α → Prop} (h : g.Ensures Q) :
    (f.andThen g).Ensures Q := by
  intro a hend
  cases hf : (f a).1 with
  | false =>
      rw [andThen_of_false hf] at hend
      cases hend
  | true =>
      rw [andThen_of_true hf] at hend ⊢
      exact h _ hend

/-- From a state with `P`, the stage goes on with `Q` or gives up with `R`. -/
structure Triple (P : α → Prop) (f : Stage α) (Q R : α → Prop) : Prop where
  goesOn : ∀ a, P a → (f a).1 = true → Q (f a).2
  givesUp : ∀ a, P a → (f a).1 = false → R (f a).2

namespace Triple

variable {P P' Q Q' R R' S : α → Prop} {f g : Stage α}

theorem andThen (hf : Triple P f Q R) (hg : Triple Q g S R) : Triple P (f.andThen g) S R := by
  constructor
  · intro a ha hend
    unfold Stage.andThen at hend ⊢
    by_cases hr : (f a).1 = false
    · rw [if_pos hr] at hend
      cases hend
    · rw [if_neg hr] at hend ⊢
      exact hg.goesOn _ (hf.goesOn a ha (eq_true_of_ne_false hr)) hend
  · intro a ha hend
    unfold Stage.andThen at hend ⊢
    by_cases hr : (f a).1 = false
    · rw [if_pos hr]
      exact hf.givesUp a ha hr
    · rw [if_neg hr] at hend ⊢
      exact hg.givesUp _ (hf.goesOn a ha (eq_true_of_ne_false hr)) hend

/-- What a stage establishes whether it goes on or not. -/
theorem of_forall (h : ∀ a, P a → Q (f a).2) : Triple P f Q Q :=
  ⟨fun a ha _ => h a ha, fun a ha _ => h a ha⟩

theorem final (h : Triple P f Q Q) {a : α} (ha : P a) : Q (f a).2 := by
  cases hend : (f a).1 with
  | true => exact h.goesOn a ha hend
  | false => exact h.givesUp a ha hend

theorem consequence (h : Triple P f Q R) (hP : ∀ a, P' a → P a) (hQ : ∀ a, Q a → Q' a)
    (hR : ∀ a, R a → R' a) : Triple P' f Q' R' :=
  ⟨fun a ha hend => hQ _ (h.goesOn a (hP a ha) hend),
    fun a ha hend => hR _ (h.givesUp a (hP a ha) hend)⟩

end Triple

/-! ## Two stages side by side -/

variable {β : Type}

/-- What holds behind the stage has held before it. -/
def Reflects (f : Stage α) (H : α → Prop) : Prop :=
  ∀ a, H (f a).2 → H a

theorem Reflects.andThen {f g : Stage α} {H : α → Prop} (hf : f.Reflects H)
    (hg : g.Reflects H) : (f.andThen g).Reflects H := by
  intro a h
  cases hend : (f a).1 with
  | false =>
      rw [andThen_of_false hend] at h
      exact hf a h
  | true =>
      rw [andThen_of_true hend] at h
      exact hf a (hg _ h)

/-- From related states, and if `H` and `H'` hold in the end, the two stages agree on
whether to go on, and end related. -/
def Related (H : α → Prop) (H' : β → Prop) (P : α → β → Prop) (f : Stage α) (g : Stage β) :
    Prop :=
  ∀ a b, P a b → H (f a).2 → H' (g b).2 → (f a).1 = (g b).1 ∧ P (f a).2 (g b).2

namespace Related

variable {H : α → Prop} {H' : β → Prop} {P : α → β → Prop} {f f' : Stage α} {g g' : Stage β}

theorem of_andThen (hf' : f'.Reflects H) {a : α} (h : H (f.andThen f' a).2) : H (f a).2 := by
  cases hend : (f a).1 with
  | false => rwa [andThen_of_false hend] at h
  | true =>
      rw [andThen_of_true hend] at h
      exact hf' _ h

/-- Related sequences are related, where the later stages reflect what holds in the end. -/
theorem andThen (h : Related H H' P f g) (h' : Related H H' P f' g') (hf' : f'.Reflects H)
    (hg' : g'.Reflects H') : Related H H' P (f.andThen f') (g.andThen g') := by
  intro a b hab hend hend'
  obtain ⟨hflag, hrel⟩ := h a b hab (of_andThen hf' hend) (of_andThen hg' hend')
  cases hf : (f a).1 with
  | false =>
      rw [andThen_of_false hf, andThen_of_false (hflag ▸ hf)]
      exact ⟨rfl, hrel⟩
  | true =>
      rw [andThen_of_true hf] at hend ⊢
      rw [andThen_of_true (hflag ▸ hf)] at hend' ⊢
      exact h' _ _ hrel hend hend'

end Related

end Stage

end Staging
