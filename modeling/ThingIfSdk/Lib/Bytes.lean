import Mathlib

/-!
# Byte memory

Byte strings, NUL-terminated strings, and a finite region of memory that is
read and written at integer offsets.  An offset or a length outside the region
has no defined result, so the reading functions return an `Option`.

`OccursAt m off t` says that the text `t` lies in the region `m` at offset
`off`; the lemmas about it are what a program that edits a text in place needs:
an occurrence has its own slice, its parts occur at shifted offsets, and a byte
written outside it leaves it alone.
-/

namespace ByteText

abbrev Byte := UInt8

abbrev Bytes := List Byte

/-- The bytes of an ASCII literal. -/
def ascii (s : String) : Bytes :=
  s.toList.map fun c => c.toNat.toUInt8

/-- The NUL-terminated string at the start of a piece of memory. -/
def cstr (m : Bytes) : Bytes :=
  m.takeWhile (· ≠ 0)

/-- The byte at an offset of a region. -/
def peek? (m : Bytes) (off : Int) : Option Byte :=
  if 0 ≤ off then m[off.toNat]? else none

/-- Overwrite one byte of a region. -/
def poke (m : Bytes) (off : Int) (b : Byte) : Bytes :=
  if 0 ≤ off then m.set off.toNat b else m

/-- The `len` bytes from `off` on, when they all lie in the region. -/
def slice? (m : Bytes) (off len : Int) : Option Bytes :=
  if 0 ≤ off ∧ 0 ≤ len ∧ off + len ≤ m.length then
    some ((m.drop off.toNat).take len.toNat)
  else
    none

/-- The NUL-terminated string at an offset, when it ends inside the region. -/
def cstrAt? (m : Bytes) (off : Int) : Option Bytes :=
  if 0 ≤ off ∧ (0 : Byte) ∈ m.drop off.toNat then
    some (cstr (m.drop off.toNat))
  else
    none

/-- The text `t` lies in the region `m` at offset `off`. -/
def OccursAt (m : Bytes) (off : Nat) (t : Bytes) : Prop :=
  ∃ pre post, m = pre ++ (t ++ post) ∧ pre.length = off

/-! ## NUL-terminated strings -/

theorem cstr_eq_self {t : Bytes} (h : (0 : Byte) ∉ t) : cstr t = t := by
  unfold cstr
  rw [List.takeWhile_eq_self_iff]
  intro b hb
  simpa using fun hb0 : b = 0 => h (hb0 ▸ hb)

theorem cstr_append_nul {t : Bytes} (h : (0 : Byte) ∉ t) (rest : Bytes) :
    cstr (t ++ 0 :: rest) = t := by
  unfold cstr
  rw [List.takeWhile_append_of_pos]
  · simp
  · intro b hb
    simpa using fun hb0 : b = 0 => h (hb0 ▸ hb)

theorem nul_not_mem_cstr (m : Bytes) : (0 : Byte) ∉ cstr m := by
  intro h
  have := List.mem_takeWhile_imp h
  simp at this

@[simp] theorem cstr_cstr (m : Bytes) : cstr (cstr m) = cstr m :=
  cstr_eq_self (nul_not_mem_cstr m)

/-- A string is decided by the bytes up to a NUL. -/
theorem cstr_congr {m m' : Bytes} {k : Nat} (hk : m[k]? = some 0)
    (h : ∀ j ≤ k, m'[j]? = m[j]?) : cstr m' = cstr m ∧ (cstr m).length ≤ k := by
  induction k generalizing m m' with
  | zero =>
      have hk' : m'[0]? = some 0 := (h 0 (Nat.le_refl 0)).trans hk
      cases m with
      | nil => cases hk
      | cons b m =>
          cases m' with
          | nil => cases hk'
          | cons b' m' =>
              obtain rfl : b = 0 := Option.some.inj hk
              obtain rfl : b' = 0 := Option.some.inj hk'
              exact ⟨rfl, Nat.le_refl 0⟩
  | succ k ih =>
      have hhead := h 0 (Nat.zero_le _)
      cases m with
      | nil => cases hk
      | cons b m =>
          cases m' with
          | nil => cases hhead
          | cons b' m' =>
              obtain rfl : b' = b := Option.some.inj hhead
              have htail : ∀ j ≤ k, m'[j]? = m[j]? := fun j hj =>
                h (j + 1) (Nat.succ_le_succ hj)
              obtain ⟨heq, hlen⟩ := ih hk htail
              unfold cstr at heq hlen ⊢
              rw [List.takeWhile_cons, List.takeWhile_cons]
              by_cases hb : b' = 0
              · rw [if_neg (by simp [hb]), if_neg (by simp [hb])]
                exact ⟨rfl, Nat.zero_le _⟩
              · rw [if_pos (by simp [hb]), if_pos (by simp [hb]), heq]
                exact ⟨rfl, Nat.succ_le_succ hlen⟩

/-- Before the end of a string there is no NUL, and behind it there is one, or the
memory ends. -/
theorem cstr_bytes (m : Bytes) :
    (∀ j < (cstr m).length, ∃ b, m[j]? = some b ∧ b ≠ 0) ∧
      (m[(cstr m).length]? = some 0 ∨ (cstr m).length = m.length) := by
  induction m with
  | nil => exact ⟨nofun, .inr rfl⟩
  | cons b m ih =>
      unfold cstr at ih ⊢
      rw [List.takeWhile_cons]
      by_cases hb : b = 0
      · rw [if_neg (by simp [hb])]
        exact ⟨nofun, .inl (congrArg some hb)⟩
      · rw [if_pos (by simp [hb])]
        refine ⟨?_, ih.2.imp id (congrArg Nat.succ)⟩
        intro j hj
        cases j with
        | zero => exact ⟨b, rfl, hb⟩
        | succ j => exact ih.1 j (Nat.lt_of_succ_lt_succ hj)

/-! ## Reading and writing single bytes -/

@[simp] theorem length_poke (m : Bytes) (off : Int) (b : Byte) :
    (poke m off b).length = m.length := by
  unfold poke
  split <;> simp

theorem peek?_natCast (m : Bytes) (i : Nat) : peek? m i = m[i]? := by
  simp [peek?]

theorem poke_natCast (m : Bytes) (i : Nat) (b : Byte) : poke m i b = m.set i b := by
  simp [poke]

/-- Writing back the byte that was read undoes the write. -/
theorem poke_poke_restore {m : Bytes} {i : Int} {b : Byte} (h : peek? m i = some b)
    (c : Byte) : poke (poke m i c) i b = m := by
  unfold peek? at h
  unfold poke
  split at h
  · rename_i hi
    rw [if_pos hi, if_pos hi, List.set_set]
    obtain ⟨hlt, hget⟩ := List.getElem?_eq_some_iff.mp h
    rw [← hget, List.set_getElem_self]
  · cases h

/-- Two displaced bytes are put back in the order in which they were displaced,
also when both writes hit the same byte. -/
theorem poke_restore_two {m : Bytes} {i j : Int} {b c : Byte}
    (hi : peek? m i = some b) (hj : peek? m j = some c) (x y : Byte) :
    poke (poke (poke (poke m i x) j y) i b) j c = m := by
  by_cases hij : i = j
  · subst hij
    have hbc : b = c := Option.some.inj (hi.symm.trans hj)
    subst hbc
    rw [show poke (poke (poke m i x) i y) i b = poke m i b by
      unfold poke; split <;> simp]
    rw [show poke (poke m i b) i b = poke m i b by unfold poke; split <;> simp]
    unfold peek? at hi
    unfold poke
    split at hi
    · rename_i h0
      obtain ⟨hlt, hget⟩ := List.getElem?_eq_some_iff.mp hi
      rw [if_pos h0, ← hget, List.set_getElem_self]
    · cases hi
  · have hi0 : 0 ≤ i := by
      unfold peek? at hi
      split at hi
      · assumption
      · cases hi
    have hj0 : 0 ≤ j := by
      unfold peek? at hj
      split at hj
      · assumption
      · cases hj
    have hne : i.toNat ≠ j.toNat := by omega
    have hswap : poke (poke (poke m i x) j y) i b = poke (poke (poke m i x) i b) j y := by
      simp only [poke, if_pos hi0, if_pos hj0]
      rw [List.set_comm _ _ hne.symm]
    rw [hswap, poke_poke_restore hi, poke_poke_restore hj]

theorem peek?_poke_self {m : Bytes} {i : Int} (h : (peek? m i).isSome) (b : Byte) :
    peek? (poke m i b) i = some b := by
  unfold peek? at h ⊢
  unfold poke
  split at h
  · rename_i h0
    rw [isSome_getElem?] at h
    rw [if_pos h0, if_pos h0, List.getElem?_set_self h]
  · cases h

/-- A byte that can be read can be read after a write. -/
theorem peek?_poke_isSome {m : Bytes} {i : Int} (h : (peek? m i).isSome) (j : Int) (b : Byte) :
    (peek? (poke m j b) i).isSome := by
  unfold peek? at h ⊢
  split
  · rename_i hi
    rw [if_pos hi, isSome_getElem?] at h
    rw [isSome_getElem?, length_poke]
    exact h
  · rename_i hi
    rw [if_neg hi] at h
    exact h

/-- Writing a byte elsewhere or over itself leaves it readable. -/
theorem peek?_poke_same {m : Bytes} {i : Int} {b : Byte} (h : peek? m i = some b) (j : Int) :
    peek? (poke m j b) i = some b := by
  by_cases hij : j = i
  · subst hij
    exact peek?_poke_self (Option.isSome_of_eq_some h) b
  · unfold peek? at h ⊢
    unfold poke
    split at h
    · rename_i hi
      rw [if_pos hi]
      split
      · rename_i hj
        have hne : j.toNat ≠ i.toNat := by omega
        rw [List.getElem?_set_ne hne]
        exact h
      · exact h
    · cases h

/-- A write changes nothing exactly where the byte stands already. -/
theorem poke_eq_self_iff {m : Bytes} {i : Int} (h : (peek? m i).isSome) (b : Byte) :
    poke m i b = m ↔ peek? m i = some b := by
  constructor
  · intro heq
    rw [← heq]
    exact peek?_poke_self h b
  · intro hb
    calc
      poke m i b = poke (poke m i b) i b := by
        unfold poke
        split <;> simp
      _ = m := poke_poke_restore hb b

/-! ## Occurrences -/

theorem OccursAt.intro (pre t post : Bytes) : OccursAt (pre ++ (t ++ post)) pre.length t :=
  ⟨pre, post, rfl, rfl⟩

theorem OccursAt.bound {m : Bytes} {off : Nat} {t : Bytes} (h : OccursAt m off t) :
    off + t.length ≤ m.length := by
  obtain ⟨pre, post, rfl, rfl⟩ := h
  simp only [List.length_append]
  omega

/-- An occurrence is what a read of its offset and length returns. -/
theorem OccursAt.slice?_eq {m : Bytes} {off : Nat} {t : Bytes} (h : OccursAt m off t) :
    slice? m off t.length = some t := by
  have hb := h.bound
  obtain ⟨pre, post, rfl, rfl⟩ := h
  unfold slice?
  rw [if_pos ⟨by omega, by omega, by exact_mod_cast hb⟩]
  simp

/-- A part of an occurring text occurs at the shifted offset. -/
theorem OccursAt.part {m : Bytes} {off : Nat} {a t b : Bytes}
    (h : OccursAt m off (a ++ (t ++ b))) : OccursAt m (off + a.length) t := by
  obtain ⟨pre, post, rfl, rfl⟩ := h
  exact ⟨pre ++ a, b ++ post, by simp, by simp⟩

theorem OccursAt.front {m : Bytes} {off : Nat} {t b : Bytes} (h : OccursAt m off (t ++ b)) :
    OccursAt m off t := by
  obtain ⟨pre, post, rfl, rfl⟩ := h
  exact ⟨pre, b ++ post, by simp, rfl⟩

theorem OccursAt.trans {m t : Bytes} {off off' : Nat} {u : Bytes}
    (h : OccursAt m off t) (h' : OccursAt t off' u) : OccursAt m (off + off') u := by
  obtain ⟨a, b, rfl, rfl⟩ := h'
  exact h.part

/-- A write before or behind an occurrence leaves it in place. -/
theorem OccursAt.poke_outside {m : Bytes} {off : Nat} {t : Bytes} (h : OccursAt m off t)
    {i : Nat} (hi : i < off ∨ off + t.length ≤ i) (b : Byte) :
    OccursAt (poke m i b) off t := by
  obtain ⟨pre, post, rfl, rfl⟩ := h
  rw [poke_natCast]
  rcases hi with hi | hi
  · refine ⟨pre.set i b, post, ?_, by simp⟩
    rw [List.set_append_left _ _ hi]
  · refine ⟨pre, post.set (i - pre.length - t.length) b, ?_, rfl⟩
    rw [List.set_append_right _ _ (by omega), List.set_append_right _ _ (by omega)]

theorem OccursAt.peek?_next {m : Bytes} {off : Nat} {t : Bytes} {b : Byte}
    (h : OccursAt m off (t ++ [b])) : peek? m ((off + t.length : Nat) : Int) = some b := by
  obtain ⟨pre, post, rfl, rfl⟩ := h
  rw [peek?_natCast]
  simp

/-- A NUL written right behind an occurring text makes that text the string that
starts at its offset. -/
theorem OccursAt.cstrAt?_eq {m : Bytes} {off : Nat} {t : Bytes}
    (h : OccursAt m off (t ++ [0])) (ht : (0 : Byte) ∉ t) :
    cstrAt? m off = some t := by
  obtain ⟨pre, post, rfl, rfl⟩ := h
  unfold cstrAt?
  rw [if_pos ⟨by omega, by simp⟩]
  simp [cstr_append_nul ht]

/-- Writing the byte behind an occurring text. -/
theorem OccursAt.poke_next {m : Bytes} {off : Nat} {t : Bytes} {b : Byte}
    (h : OccursAt m off (t ++ [b])) (c : Byte) :
    OccursAt (poke m ((off + t.length : Nat) : Int) c) off (t ++ [c]) := by
  obtain ⟨pre, post, rfl, rfl⟩ := h
  rw [poke_natCast]
  refine ⟨pre, post, ?_, rfl⟩
  rw [List.set_append_right _ _ (by omega), List.append_assoc,
    List.set_append_right _ _ (by omega)]
  simp

/-- A read inside an occurring text is a read of the region. -/
theorem OccursAt.slice?_inside {m : Bytes} {off : Nat} {t u : Bytes} (h : OccursAt m off t)
    {i : Nat} {len : Int} (hslice : slice? t i len = some u) :
    slice? m ((off : Int) + i) len = some u := by
  unfold slice? at hslice
  split at hslice
  · rename_i hin
    obtain ⟨-, hlen, hbound⟩ := hin
    have hm := h.bound
    obtain ⟨pre, post, rfl, rfl⟩ := h
    unfold slice?
    rw [if_pos ⟨by omega, hlen, by omega⟩, ← hslice, Option.some.injEq]
    have hdrop : ((pre.length : Int) + i).toNat = pre.length + i := by omega
    have htake : len.toNat ≤ (t.drop i).length := by
      rw [List.length_drop]
      omega
    rw [hdrop, ← List.drop_drop, List.drop_left, List.drop_append_of_le_length (by omega),
      List.take_append_of_le_length htake, Int.toNat_natCast]
  · cases hslice

/-! ## Slices -/

theorem slice?_bounds {m t : Bytes} {off len : Int} (h : slice? m off len = some t) :
    0 ≤ off ∧ (t.length : Int) = len ∧ off + len ≤ m.length := by
  unfold slice? at h
  split at h
  · rename_i hin
    obtain ⟨h0, hlen, hbound⟩ := hin
    refine ⟨h0, ?_, hbound⟩
    rw [← Option.some.inj h, List.length_take, List.length_drop]
    omega
  · cases h

theorem slice?_of_bounds {m : Bytes} {off len : Int} (h0 : 0 ≤ off) (hlen : 0 ≤ len)
    (hbound : off + len ≤ m.length) : ∃ t, slice? m off len = some t := by
  unfold slice?
  rw [if_pos ⟨h0, hlen, hbound⟩]
  exact ⟨_, rfl⟩

/-- What is sliced out of a region occurs in it. -/
theorem slice?_occurs {m t : Bytes} {off len : Int} (h : slice? m off len = some t) :
    OccursAt m off.toNat t := by
  obtain ⟨h0, hlen, hbound⟩ := slice?_bounds h
  unfold slice? at h
  rw [if_pos ⟨h0, by omega, hbound⟩] at h
  cases h
  refine ⟨m.take off.toNat, (m.drop off.toNat).drop len.toNat, ?_, ?_⟩
  · rw [List.take_append_drop, List.take_append_drop]
  · rw [List.length_take]
    omega

/-- A slice of a slice. -/
theorem slice?_slice? {m t u : Bytes} {off len : Int} (h : slice? m off len = some t)
    {off' len' : Int} (h' : slice? t off' len' = some u) : slice? m (off + off') len' = some u := by
  obtain ⟨h0, -, -⟩ := slice?_bounds h
  obtain ⟨h0', -, -⟩ := slice?_bounds h'
  have hoff : ((off'.toNat : Nat) : Int) = off' := Int.toNat_of_nonneg h0'
  rw [← hoff] at h'
  have hinside := (slice?_occurs h).slice?_inside h'
  rwa [Int.toNat_of_nonneg h0, hoff] at hinside

/-- A write before or behind a slice. -/
theorem slice?_poke {m t : Bytes} {off len : Int} (h : slice? m off len = some t) {i : Int}
    (hi : i < off ∨ off + len ≤ i) (b : Byte) : slice? (poke m i b) off len = some t := by
  obtain ⟨h0, hlen, -⟩ := slice?_bounds h
  by_cases hneg : i < 0
  · unfold poke
    rwa [if_neg (by omega)]
  · have hocc := (slice?_occurs h).poke_outside (i := i.toNat) (by omega) b
    have hslice := hocc.slice?_eq
    rwa [Int.toNat_of_nonneg (by omega), Int.toNat_of_nonneg h0, hlen] at hslice

/-- Where a nonempty text can be read there is a byte. -/
theorem peek?_isSome_of_slice? {m u : Bytes} {off len : Int} (h : slice? m off len = some u)
    (hu : u ≠ []) : (peek? m off).isSome := by
  unfold slice? at h
  split at h
  · rename_i hin
    obtain ⟨h0, hlen, hbound⟩ := hin
    have hpos : 0 < len := by
      by_contra hle
      apply hu
      rw [← Option.some.inj h, show len.toNat = 0 by omega, List.take_zero]
    unfold peek?
    rw [if_pos h0, isSome_getElem?]
    omega
  · cases h

/-- In front of a NUL just written there is a string. -/
theorem cstrAt?_poke_isSome {m : Bytes} {i off : Int} (h : (peek? m i).isSome) (h0 : 0 ≤ off)
    (hle : off ≤ i) : (cstrAt? (poke m i 0) off).isSome := by
  have hi : 0 ≤ i := by omega
  unfold peek? at h
  rw [if_pos hi, isSome_getElem?] at h
  have hmem : (0 : Byte) ∈ (poke m i 0).drop off.toNat := by
    unfold poke
    rw [if_pos hi, List.mem_iff_getElem]
    refine ⟨i.toNat - off.toNat, by rw [List.length_drop, List.length_set]; omega, ?_⟩
    rw [List.getElem_drop]
    have : off.toNat + (i.toNat - off.toNat) = i.toNat := by omega
    simp only [this, List.getElem_set_self]
  unfold cstrAt?
  rw [if_pos ⟨h0, hmem⟩]
  rfl

end ByteText
