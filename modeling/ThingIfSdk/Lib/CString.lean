import ThingIfSdk.Lib.Bytes

/-!
# Strings in arrays

The functions of the C library that write a string into an array.  A write that
would leave the array has no defined result, so each of them returns an `Option`.

`HoldsString m s` says that the array `m` holds the string `s` and its NUL; the
lemmas say when a write stays inside and which string the array holds then.
-/

namespace ByteText

/-- A string of C: bytes without a NUL. -/
structure CText where
  bytes : Bytes
  nulFree : (0 : Byte) ∉ bytes

/-- Write bytes from an offset on, when they stay in the array. -/
def storeAt? (m : Bytes) (off : Nat) (t : Bytes) : Option Bytes :=
  if off + t.length ≤ m.length then some (m.take off ++ (t ++ m.drop (off + t.length)))
  else none

/-- `sprintf(m, "%s%s...", ...)`. -/
def sprintf? (m : Bytes) (parts : List Bytes) : Option Bytes :=
  storeAt? m 0 (parts.flatten ++ [0])

/-- `strcat(m, t)`: append behind the string that the array holds. -/
def strcat? (m t : Bytes) : Option Bytes :=
  if (0 : Byte) ∈ m then storeAt? m (cstr m).length (t ++ [0]) else none

/-- `strncat(m, src, n)`: append at most `n` bytes of `src`, up to its NUL. -/
def strncat? (m src : Bytes) (n : Nat) : Option Bytes :=
  strcat? m (cstr (src.take n))

/-- The array holds the string and its NUL. -/
def HoldsString (m s : Bytes) : Prop :=
  ∃ rest, m = s ++ 0 :: rest

/-! ## Stores -/

theorem storeAt?_inside {m : Bytes} {off : Nat} {t : Bytes} (h : off + t.length ≤ m.length) :
    storeAt? m off t = some (m.take off ++ (t ++ m.drop (off + t.length))) :=
  if_pos h

theorem storeAt?_outside {m : Bytes} {off : Nat} {t : Bytes} (h : m.length < off + t.length) :
    storeAt? m off t = none :=
  if_neg (Nat.not_le.mpr h)

/-- A store does not change the size of the array. -/
theorem length_storeAt? {m m' : Bytes} {off : Nat} {t : Bytes} (h : storeAt? m off t = some m') :
    m'.length = m.length := by
  unfold storeAt? at h
  split at h
  · rename_i hle
    obtain rfl := Option.some.inj h
    simp only [List.length_append, List.length_take, List.length_drop]
    omega
  · cases h

/-! ## Strings -/

/-- The string that an array holds is found by its NUL. -/
theorem HoldsString.cstr_eq {m s : Bytes} (h : HoldsString m s) (hs : (0 : Byte) ∉ s) :
    cstr m = s := by
  obtain ⟨rest, rfl⟩ := h
  exact cstr_append_nul hs rest

theorem HoldsString.nul_mem {m s : Bytes} (h : HoldsString m s) : (0 : Byte) ∈ m := by
  obtain ⟨rest, rfl⟩ := h
  exact List.mem_append_right s List.mem_cons_self

/-- `sprintf` fits when the array has room for the string and its NUL. -/
theorem sprintf?_fits {m : Bytes} {parts : List Bytes} (h : parts.flatten.length < m.length) :
    ∃ m', sprintf? m parts = some m' ∧ HoldsString m' parts.flatten ∧ m'.length = m.length := by
  have hle : 0 + (parts.flatten ++ [(0 : Byte)]).length ≤ m.length := by
    rw [List.length_append, List.length_singleton]
    omega
  have hstore := storeAt?_inside hle
  refine ⟨_, hstore, ⟨m.drop (0 + (parts.flatten ++ [(0 : Byte)]).length), ?_⟩,
    length_storeAt? hstore⟩
  rw [List.take_zero, List.nil_append, List.append_assoc]
  rfl

theorem sprintf?_overruns {m : Bytes} {parts : List Bytes}
    (h : m.length ≤ parts.flatten.length) : sprintf? m parts = none := by
  apply storeAt?_outside
  rw [List.length_append, List.length_singleton]
  omega

/-- `strcat` fits when the array has room for both strings and one NUL. -/
theorem strcat?_fits {m s t : Bytes} (hm : HoldsString m s) (hs : (0 : Byte) ∉ s)
    (h : (s ++ t).length < m.length) :
    ∃ m', strcat? m t = some m' ∧ HoldsString m' (s ++ t) ∧ m'.length = m.length := by
  rw [List.length_append] at h
  have hle : (cstr m).length + (t ++ [(0 : Byte)]).length ≤ m.length := by
    rw [hm.cstr_eq hs, List.length_append, List.length_singleton]
    omega
  have hstore := storeAt?_inside hle
  have htake : m.take (cstr m).length = s := by
    obtain ⟨rest, hrest⟩ := id hm
    rw [hm.cstr_eq hs, hrest, List.take_left]
  refine ⟨_, (if_pos hm.nul_mem).trans hstore,
    ⟨m.drop ((cstr m).length + (t ++ [(0 : Byte)]).length), ?_⟩, length_storeAt? hstore⟩
  rw [htake]
  simp only [List.append_assoc, List.singleton_append]

theorem strcat?_overruns {m s t : Bytes} (hm : HoldsString m s) (hs : (0 : Byte) ∉ s)
    (h : m.length ≤ (s ++ t).length) : strcat? m t = none := by
  unfold strcat?
  rw [if_pos hm.nul_mem]
  apply storeAt?_outside
  rw [List.length_append] at h
  rw [hm.cstr_eq hs, List.length_append, List.length_singleton]
  omega

/-! ## Chains of strcat -/

/-- `strcat` the parts one after the other. -/
def strcatAll? (m : Bytes) : List Bytes → Option Bytes
  | [] => some m
  | t :: ts => (strcat? m t).bind fun m' => strcatAll? m' ts

theorem strcatAll?_fits {m s : Bytes} {ts : List Bytes} (hm : HoldsString m s)
    (hs : (0 : Byte) ∉ s) (hts : ∀ t ∈ ts, (0 : Byte) ∉ t)
    (h : (s ++ ts.flatten).length < m.length) :
    ∃ m', strcatAll? m ts = some m' ∧ HoldsString m' (s ++ ts.flatten) ∧
      m'.length = m.length := by
  induction ts generalizing m s with
  | nil => exact ⟨m, rfl, by rwa [List.flatten_nil, List.append_nil], rfl⟩
  | cons t ts ih =>
      rw [List.flatten_cons, ← List.append_assoc] at h ⊢
      have hfront : (s ++ t).length < m.length := by
        rw [List.length_append] at h
        omega
      obtain ⟨m₁, hcat, hholds, hlen⟩ := strcat?_fits hm hs hfront
      have hst : (0 : Byte) ∉ s ++ t := by
        rw [List.mem_append]
        exact not_or.mpr ⟨hs, hts t List.mem_cons_self⟩
      obtain ⟨m₂, hrest, hholds', hlen'⟩ :=
        ih hholds hst (fun u hu => hts u (List.mem_cons_of_mem t hu)) (by rw [hlen]; exact h)
      refine ⟨m₂, ?_, hholds', hlen'.trans hlen⟩
      rw [strcatAll?, hcat]
      exact hrest

/-- A chain whose strings do not fit together overruns the array at one of them. -/
theorem strcatAll?_overruns {m s : Bytes} {ts : List Bytes} (hm : HoldsString m s)
    (hs : (0 : Byte) ∉ s) (hts : ∀ t ∈ ts, (0 : Byte) ∉ t)
    (h : m.length ≤ (s ++ ts.flatten).length) : strcatAll? m ts = none := by
  induction ts generalizing m s with
  | nil =>
      -- the array holds `s` already, so it is longer than `s`
      obtain ⟨rest, rfl⟩ := hm
      rw [List.flatten_nil, List.append_nil, List.length_append, List.length_cons] at h
      omega
  | cons t ts ih =>
      rw [List.flatten_cons, ← List.append_assoc] at h
      rw [strcatAll?]
      by_cases hfront : (s ++ t).length < m.length
      · obtain ⟨m₁, hcat, hholds, hlen⟩ := strcat?_fits hm hs hfront
        have hst : (0 : Byte) ∉ s ++ t := by
          rw [List.mem_append]
          exact not_or.mpr ⟨hs, hts t List.mem_cons_self⟩
        rw [hcat, Option.bind_some]
        exact ih hholds hst (fun u hu => hts u (List.mem_cons_of_mem t hu)) (by rw [hlen]; exact h)
      · rw [strcat?_overruns hm hs (Nat.le_of_not_lt hfront)]
        rfl

end ByteText
