import Mathlib

/-!
# Monitors over logs

A monitor reads a log of events from its oldest entry on and keeps a state.  A
log is safe for a condition on (state, event) pairs when every entry meets the
condition in the state that the entries before it lead to.  Logs grow at the
end, so the rules below say what one more entry, or one more block of entries,
does to the state and to safety.
-/

namespace Monitoring

variable {E Q : Type}

/-- A deterministic observer of a log. -/
structure Monitor (E Q : Type) where
  start : Q
  step : Q → E → Q

namespace Monitor

variable (m : Monitor E Q) (allowed : Q → E → Prop)

/-- The state after a log, from a given state on. -/
def runFrom (q : Q) (log : List E) : Q :=
  log.foldl m.step q

/-- The state after a log. -/
def after (log : List E) : Q :=
  m.runFrom m.start log

/-- From state `q` on, every entry is allowed where it stands. -/
def SafeFrom (q : Q) : List E → Prop
  | [] => True
  | e :: rest => allowed q e ∧ SafeFrom (m.step q e) rest

/-- Every entry of the log is allowed where it stands. -/
def Safe (log : List E) : Prop :=
  m.SafeFrom allowed m.start log

@[simp] theorem runFrom_nil (q : Q) : m.runFrom q [] = q := rfl

@[simp] theorem runFrom_cons (q : Q) (e : E) (log : List E) :
    m.runFrom q (e :: log) = m.runFrom (m.step q e) log := rfl

@[simp] theorem safeFrom_nil (q : Q) : m.SafeFrom allowed q [] := trivial

@[simp] theorem safeFrom_cons (q : Q) (e : E) (log : List E) :
    m.SafeFrom allowed q (e :: log) ↔ allowed q e ∧ m.SafeFrom allowed (m.step q e) log :=
  Iff.rfl

theorem runFrom_append (q : Q) (log log' : List E) :
    m.runFrom q (log ++ log') = m.runFrom (m.runFrom q log) log' :=
  List.foldl_append

theorem safeFrom_append (q : Q) (log log' : List E) :
    m.SafeFrom allowed q (log ++ log') ↔
      m.SafeFrom allowed q log ∧ m.SafeFrom allowed (m.runFrom q log) log' := by
  induction log generalizing q with
  | nil => simp
  | cons e log ih => simp [ih, and_assoc]

theorem after_append (log log' : List E) :
    m.after (log ++ log') = m.runFrom (m.after log) log' :=
  m.runFrom_append m.start log log'

theorem safe_append (log log' : List E) :
    m.Safe allowed (log ++ log') ↔
      m.Safe allowed log ∧ m.SafeFrom allowed (m.after log) log' :=
  m.safeFrom_append allowed m.start log log'

/-! ## Logs that grow -/

/-- The log has grown from `base` by a safe block that leads to `q`. -/
def Grown (base : List E) (q : Q) (log : List E) : Prop :=
  ∃ es, log = base ++ es ∧ m.Safe allowed es ∧ m.after es = q

variable {m allowed} {base log log' : List E} {q : Q}

theorem Grown.refl (base : List E) : m.Grown allowed base m.start base :=
  ⟨[], (List.append_nil base).symm, trivial, rfl⟩

/-- A further block that is safe where it stands. -/
theorem Grown.append (h : m.Grown allowed base q log) {es : List E}
    (hlog : log' = log ++ es) (hsafe : m.SafeFrom allowed q es) :
    m.Grown allowed base (m.runFrom q es) log' := by
  obtain ⟨front, rfl, hfront, rfl⟩ := h
  refine ⟨front ++ es, by rw [hlog, List.append_assoc], ?_, m.after_append front es⟩
  rw [safe_append]
  exact ⟨hfront, hsafe⟩

end Monitor

end Monitoring
