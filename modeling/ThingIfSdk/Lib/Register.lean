import Mathlib

/-!
# Registers that are written over a lossy line

A client writes and reads registers on a server, and an answer may be lost: then the
write has come through or it has not.  What the client has seen determines a set of
possible contents for each register, and the content is always among them.
-/

namespace Registers

variable {ι C : Type}

/-- What a client knows of an access. -/
inductive Access (C : Type) where
  /-- A write that was confirmed. -/
  | write (c : C)
  /-- A write that was sent and not confirmed. -/
  | attempt (c : C)
  /-- A read; what it returned leaves these contents open. -/
  | observe (open_ : Set C)
  /-- Nothing was sent, or nothing was learnt. -/
  | idle

/-- What an access can do to the content. -/
inductive Access.Acts : Access C → C → C → Prop where
  | write (c c' : C) : Acts (.write c) c' c
  | lost (c c' : C) : Acts (.attempt c) c' c'
  | unconfirmed (c c' : C) : Acts (.attempt c) c' c
  | observe {s : Set C} {c : C} (h : c ∈ s) : Acts (.observe s) c c
  | idle (c : C) : Acts .idle c c

/-- The contents that are possible behind an access. -/
def Access.after (possible : Set C) : Access C → Set C
  | .write c => {c}
  | .attempt c => insert c possible
  | .observe s => possible ∩ s
  | .idle => possible

theorem Access.Acts.mem_after {a : Access C} {c c' : C} (h : a.Acts c c') {possible : Set C}
    (hc : c ∈ possible) : c' ∈ a.after possible := by
  cases h with
  | write => exact rfl
  | lost c => exact Set.mem_insert_of_mem c hc
  | unconfirmed => exact Set.mem_insert _ possible
  | observe h => exact ⟨hc, h⟩
  | idle => exact hc

/-! ## Families of registers -/

/-- An access to one of the registers acts on it and leaves the others alone. -/
structure ActsAt (i : ι) (a : Access C) (contents contents' : ι → C) : Prop where
  at_index : a.Acts (contents i) (contents' i)
  others : ∀ j, j ≠ i → contents' j = contents j

/-- An access that leaves all contents as they are. -/
theorem actsAt_same {i : ι} {a : Access C} {contents : ι → C}
    (h : a.Acts (contents i) (contents i)) : ActsAt i a contents contents :=
  ⟨h, fun _ _ => rfl⟩

variable [DecidableEq ι]

/-- What the client knows of all registers behind an access. -/
def learn (possible : ι → Set C) (i : ι) (a : Access C) : ι → Set C :=
  Function.update possible i (a.after (possible i))

/-- Every content is one of the possible ones. -/
def Within (contents : ι → C) (possible : ι → Set C) : Prop :=
  ∀ i, contents i ∈ possible i

theorem ActsAt.within {i : ι} {a : Access C} {contents contents' : ι → C}
    (h : ActsAt i a contents contents') {possible : ι → Set C} (hwithin : Within contents possible) :
    Within contents' (learn possible i a) := by
  intro j
  unfold learn
  by_cases hj : j = i
  · subst hj
    rw [Function.update_self]
    exact h.at_index.mem_after (hwithin j)
  · rw [Function.update_of_ne hj, h.others j hj]
    exact hwithin j

/-- A write to one register. -/
theorem actsAt_write (i : ι) (c : C) (contents : ι → C) :
    ActsAt i (.write c) contents (Function.update contents i c) := by
  refine ⟨?_, fun j hj => Function.update_of_ne hj c contents⟩
  rw [Function.update_self]
  exact .write c _

theorem actsAt_unconfirmed (i : ι) (c : C) (contents : ι → C) :
    ActsAt i (.attempt c) contents (Function.update contents i c) := by
  refine ⟨?_, fun j hj => Function.update_of_ne hj c contents⟩
  rw [Function.update_self]
  exact .unconfirmed c _

end Registers
