import ThingIfSdk.Command.Reference
import ThingIfSdk.Requests.State

/-!
# The period of the status task

Every round of `prv_update_status` waits once and then tries to send the state,
whatever becomes of it.  The time it waits is a product of type `int`, so it is
the period of the application exactly as long as the product does not overflow.
-/

namespace ThingIfSdk

open ByteText JsonText

variable {σ δ : Type}

/-- A call of `delay_ms_cb`, or the attempt at a request. -/
def Event.isPaced : Event → Bool
  | .delayMs .. => true
  | .callStart .. => true
  | _ => false

/-- The log of one round: a delay of that many milliseconds, then the attempt at
the request, and no other of either. -/
structure IsRound (msec : Int) (es : List Event) : Prop where
  shape : ∃ ms call ret rest, es = .delayMs (some ms) :: .callStart call ret :: rest ∧
    (ms : Int) = msec ∧ ∀ e ∈ rest, e.isPaced = false

/-- A log in which every request attempt belongs to a round that has waited for
the period, in seconds. -/
def KeepsPeriod (period : Int) (log : List Event) : Prop :=
  ∃ (front : List Event) (rounds : List (List Event)), log = front ++ rounds.flatten ∧
    (∀ e ∈ front, e.isPaced = false) ∧ ∀ es ∈ rounds, IsRound (period * 1000) es

/-! ## The argument of the delay -/

theorem unsignedInt_eq_iff {p : Platform} {x : Int} (h : p.isInt x = true) :
    (p.unsignedInt x : Int) = x ↔ 0 ≤ x := by
  constructor
  · intro heq
    rw [← heq]
    exact Int.natCast_nonneg _
  · intro h0
    simp only [Platform.isInt, Bool.and_eq_true, decide_eq_true_eq] at h
    have hle : (2 : Int) ^ (p.intBits - 1) ≤ 2 ^ p.intBits :=
      pow_le_pow_right₀ (by decide) (Nat.sub_le _ _)
    unfold Platform.unsignedInt
    rw [Int.emod_eq_of_lt h0 (by omega), Int.toNat_of_nonneg h0]

/-- The delay is the period exactly when the product is an `int` and not negative. -/
theorem delayArgument_exact_iff (p : Platform) (period : Int) :
    (∃ ms : Nat, delayArgument p period = some ms ∧ (ms : Int) = period * 1000) ↔
      0 ≤ period ∧ p.isInt (period * 1000) = true := by
  unfold delayArgument Platform.intMul?
  by_cases h : p.isInt (period * 1000) = true
  · have hiff := unsignedInt_eq_iff h
    simp only [h, if_true, Option.map_some, Option.some.injEq, exists_eq_left', hiff, and_true]
    omega
  · simp [h]

/-! ## Rounds -/

/-- Behind the delay a round starts one request, and neither waits nor starts again. -/
theorem StateEvents.started {es : List Event} (h : StateEvents es) (hassert : .assertion ∉ es) :
    ∃ call ret rest, es = .callStart call ret :: rest ∧ ∀ e ∈ rest, e.isPaced = false := by
  have hwrites : ∀ {writes : List Event}, (∀ e ∈ writes, e.isWrite = true) →
      ∀ e ∈ writes, e.isPaced = false := by
    intro writes hw e he
    have := hw e he
    cases e with
    | write => rfl
    | _ => cases this
  cases h with
  | refused => exact absurd List.mem_cons_self hassert
  | notStarted call hret => exact ⟨call, _, [], rfl, by simp⟩
  | notWritten call hw =>
      refine ⟨call, 0, _, rfl, ?_⟩
      intro e he
      rcases List.mem_append.mp he with he | he
      · exact hwrites hw e he
      · rw [List.mem_singleton] at he
        rw [he]
        rfl
  | run call hw ret httpError responseCode =>
      refine ⟨call, 0, _, rfl, ?_⟩
      intro e he
      rcases List.mem_append.mp he with he | he
      · exact hwrites hw e he
      · simp only [List.mem_cons, List.not_mem_nil, or_false] at he
        rcases he with rfl | rfl <;> rfl

/-- A log that starts with a delay keeps the period only if that delay does. -/
theorem KeepsPeriod.head {period : Int} {msec : Option Nat} {log : List Event}
    (h : KeepsPeriod period (.delayMs msec :: log)) :
    ∃ ms : Nat, msec = some ms ∧ (ms : Int) = period * 1000 := by
  obtain ⟨front, rounds, hlog, hfront, hrounds⟩ := h
  cases front with
  | cons e front =>
      rw [List.cons_append, List.cons.injEq] at hlog
      have := hfront e List.mem_cons_self
      rw [← hlog.1] at this
      cases this
  | nil =>
      cases rounds with
      | nil => cases hlog
      | cons es rounds =>
          obtain ⟨ms, call, ret, rest, hes, hms, -⟩ := (hrounds es List.mem_cons_self).shape
          rw [List.nil_append, List.flatten_cons, hes, List.cons_append, List.cons.injEq] at hlog
          refine ⟨ms, ?_, hms⟩
          cases hlog.1
          rfl

/-- The rounds keep the period exactly when their delay is the period. -/
theorem rounds_keepPeriod_iff (sdk : Sdk σ) (period : Int) (resourcePath : Bytes)
    (handlers : Handlers σ δ) (devices : Nat → δ) (kii : Kii σ) :
    (∀ rounds, KeepsPeriod period
        (newEvents kii (updateStatusRounds sdk period resourcePath handlers devices kii rounds))) ↔
      0 ≤ period ∧ sdk.platform.isInt (period * 1000) = true := by
  rw [← delayArgument_exact_iff]
  constructor
  · -- the first round tells
    intro h
    obtain ⟨rs, hlen, -, hlog⟩ := updateStatusRounds_log sdk period resourcePath handlers devices
      kii 1
    obtain ⟨es, rfl⟩ := List.length_eq_one_iff.mp hlen
    have hfirst := h 1
    rw [List.flatMap_singleton] at hlog
    simp only [newEvents_eq hlog] at hfirst
    exact hfirst.head
  · rintro ⟨ms, hdelay, hms⟩ rounds
    obtain ⟨rs, -, hrs, hlog⟩ := updateStatusRounds_log sdk period resourcePath handlers devices
      kii rounds
    rw [newEvents_eq hlog, hdelay]
    refine ⟨[], rs.map (.delayMs (some ms) :: ·), List.flatMap_def, by simp, ?_⟩
    intro es' hes'
    obtain ⟨es, hes, rfl⟩ := List.mem_map.mp hes'
    obtain ⟨hstate, hassert⟩ := hrs es hes
    obtain ⟨call, ret, rest, rfl, hrest⟩ := hstate.started hassert
    exact ⟨ms, call, ret, rest, rfl, hms, hrest⟩

/-- Every round of the status task waits for exactly the period, and once, before
its request attempt, however the rounds end, if and only if the period in
milliseconds is an `int` that is not negative, or there are no rounds at all since
the resource path does not fit. -/
theorem updateStatus_keepsPeriod_iff (sdk : Sdk σ) (period : Int) (handlers : Handlers σ δ)
    (devices : Nat → δ) (kii : Kii σ) :
    (∀ rounds, KeepsPeriod period
        (newEvents kii (prvUpdateStatus sdk period handlers devices rounds kii))) ↔
      (0 ≤ period ∧ sdk.platform.isInt (period * 1000) = true) ∨
        prvSetStateResourcePath sdk.platform kii.appId kii.author.authorId 256 = none := by
  unfold prvUpdateStatus
  cases prvSetStateResourcePath sdk.platform kii.appId kii.author.authorId 256 with
  | none =>
      have hlog : kii.refusePath.log = kii.log ++ [.assertion, .pathTooLong] :=
        List.append_assoc _ _ _
      refine iff_of_true (fun rounds => ?_) (.inr rfl)
      simp only [newEvents_eq hlog]
      refine ⟨_, [], (List.append_nil _).symm, ?_, by simp⟩
      intro e he
      simp only [List.mem_cons, List.not_mem_nil, or_false] at he
      rcases he with rfl | rfl <;> rfl
  | some resourcePath =>
      rw [or_iff_left nofun]
      exact rounds_keepPeriod_iff sdk period resourcePath handlers devices kii

/-- A period of 2147484 seconds, about 25 days, overflows an `int` of 32 bits. -/
theorem longPeriod_not_kept :
    ¬ ∀ rounds, KeepsPeriod 2147484 (newEvents referenceKii
      (prvUpdateStatus (referenceSdk 1000 64) 2147484 referenceHandlers (fun _ => 0) rounds
        referenceKii)) := by
  have hpath : ∃ path, prvSetStateResourcePath (referenceSdk 1000 64).platform referenceKii.appId
      referenceKii.author.authorId 256 = some path := ⟨_, rfl⟩
  obtain ⟨path, hpath⟩ := hpath
  unfold prvUpdateStatus
  simp only [hpath]
  rw [rounds_keepPeriod_iff]
  decide

end ThingIfSdk
