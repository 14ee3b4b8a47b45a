/-
**The clock of a slot.**

`GetHeader` and `GetPayload` compute how far the clock is into the slot of a request, in
milliseconds.  A request that comes too late is rejected, and `GetPayload` sleeps until the slot
begins when a request comes too early.  The slot is taken from the request, and four operations of
64 bits lead from it to the time to sleep.

All of these operations are exact modulo `2 ^ 64`, so that what is computed is the remainder of the
exact time.  This module says when the remainder leads to the same decision: when the slot begins
no later than what a `time.Duration` can hold, which is some 292 years from now.

The decisions are written once, over any type of numbers; the code has them over `Int64`, and what
they should be is the same over the integers.

Main definitions:

* `headerTiming`, `payloadTiming` — the decisions;
* `BeaconView.exactMsIntoSlot` — the time in exact arithmetic;
* `TimedExactly` — both decisions are the exact ones.

Main results:

* `headerBid_eq`, `payloadRequestKey_eq` — the decisions in the code;
* `BeaconView.msIntoSlot_eq` — the machine computes the exact time modulo `2 ^ 64`;
* `timedExactly_iff` — **when the decisions are exact**;
* `served_far_ahead` — a slot that begins in 1.7 trillion years is served at once.
-/

import Mathlib.Algebra.Ring.Int.Defs
import Mathlib.Data.UInt
import Dreamboat.GetPayload

set_option autoImplicit false

namespace Dreamboat

/-! ### The decisions -/

/-- What is done about the time of a request; times are numbers of the type `D`. -/
inductive Timing (D : Type) where
  | late
  | now
  /-- `time.Sleep`, in nanoseconds. -/
  | sleep (d : D)
  deriving DecidableEq, Repr

def Timing.map {D E : Type} (f : D → E) : Timing D → Timing E
  | late => late
  | now => now
  | sleep d => sleep (f d)

section

variable {D : Type} [LT D] [DecidableLT D]

/-- The decision of `GetHeader`. -/
def headerTiming (limit msIntoSlot : D) : Timing D := if msIntoSlot > limit then .late else .now

variable [Add D] [Mul D] [Neg D] [OfNat D 0] [OfNat D 1] [OfNat D 1000000]

/-- The decision of `GetPayload`; `jitter` is what `rand.Intn(50)` gives. -/
def payloadTiming (limit msIntoSlot jitter : D) : Timing D :=
  if msIntoSlot > limit then .late
  else if msIntoSlot < 0 then
    let delayMillis := msIntoSlot * -1 + jitter
    .sleep (delayMillis * 1000000)
  else .now

end

theorem headerTiming_eq_late_iff {limit ms : Int64} :
    headerTiming limit ms = .late ↔ ms > limit := by
  unfold headerTiming
  split
  · next h => simp [h]
  · next h => simp [h]

theorem payloadTiming_eq_late_iff {limit ms jitter : Int64} :
    payloadTiming limit ms jitter = .late ↔ ms > limit := by
  unfold payloadTiming
  split
  · next h => simp [h]
  · next h =>
      split
      · simp [h]
      · simp [h]

/-- The configuration without a limit. -/
def RelayConfig.unlimited (cfg : RelayConfig) : RelayConfig :=
  { cfg with getPayloadRequestTimeLimit := Int64.maxValue }

theorem not_gt_unlimited (cfg : RelayConfig) (ms : Int64) :
    ¬ms > cfg.unlimited.getPayloadRequestTimeLimit := by
  have hms := ms.toInt_lt
  have hmax : Int64.maxValue.toInt = 2 ^ 63 - 1 := by decide
  rw [gt_iff_lt, RelayConfig.unlimited, Int64.lt_iff_toInt_lt, hmax]
  omega

/-- `GetHeader` rejects a request as late by its decision, and otherwise goes on. -/
theorem headerBid_eq (cfg : RelayConfig) (v : BeaconView) (a : Auctioneer) {slot : UInt64}
    (hslot : ¬slot < v.minSlot) (parentHash : Hash) (pk : PublicKey) :
    headerBid cfg v a (.of slot parentHash pk) =
      if headerTiming cfg.getPayloadRequestTimeLimit (v.msIntoSlot slot) = .late then
        .error (.sentinel .errLateRequest)
      else headerBid cfg.unlimited v a (.of slot parentHash pk) := by
  simp only [headerBid, HeaderRequest.of, bind, Except.bind, hslot, if_false,
    headerTiming_eq_late_iff, if_neg (not_gt_unlimited cfg _)]
  by_cases hlate : v.msIntoSlot slot > cfg.getPayloadRequestTimeLimit
  · simp only [if_pos hlate]
    rfl
  · simp only [if_neg hlate]

/-- The same for `GetPayload`, which goes on after it has slept. -/
theorem payloadRequestKey_eq (cfg : RelayConfig) (v : PayloadView)
    (request : SignedBlindedBeaconBlock) (jitter : Int64) :
    payloadRequestKey cfg v request =
      if payloadTiming cfg.getPayloadRequestTimeLimit (v.beacon.msIntoSlot request.slot) jitter =
          .late then
        .error (.sentinel .errLateRequest)
      else payloadRequestKey cfg.unlimited v request := by
  unfold payloadRequestKey
  rw [if_neg (not_gt_unlimited cfg _)]
  by_cases hlate : v.beacon.msIntoSlot request.slot > cfg.getPayloadRequestTimeLimit
  · rw [if_pos hlate, if_pos (payloadTiming_eq_late_iff.2 hlate)]
    rfl
  · rw [if_neg hlate, if_neg (mt payloadTiming_eq_late_iff.1 hlate)]

/-! ### Exact times -/

namespace BeaconView

/-- How far the clock is into a slot, in milliseconds. -/
def exactMsIntoSlot (v : BeaconView) (slot : UInt64) : ℤ :=
  v.now.toInt - (v.genesisTime.toNat + 12 * slot.toNat) * 1000

/-- The machine computes the time modulo `2 ^ 64`. -/
theorem msIntoSlot_eq (v : BeaconView) (slot : UInt64) :
    v.msIntoSlot slot = Int64.ofInt (v.exactMsIntoSlot slot) := by
  have hunsigned : ∀ x : UInt64, x.toInt64 = Int64.ofInt x.toNat := by
    intro x
    rw [← Int64.toBitVec_inj]
    simp
  rw [msIntoSlot, exactMsIntoSlot, Int64.ofInt_sub, Int64.ofInt_mul, Int64.ofInt_add,
    Int64.ofInt_mul, Int64.ofInt_toInt, ← hunsigned, ← hunsigned, UInt64.toInt64_add,
    UInt64.toInt64_mul, Int64.mul_comm slot.toInt64]
  rfl

/-- The time is exact if it fits. -/
theorem toInt_msIntoSlot {v : BeaconView} {slot : UInt64}
    (h : -2 ^ 63 ≤ v.exactMsIntoSlot slot) :
    (v.msIntoSlot slot).toInt = v.exactMsIntoSlot slot := by
  have hnow := v.now.toInt_lt
  have hle : v.exactMsIntoSlot slot ≤ v.now.toInt := by
    unfold exactMsIntoSlot
    omega
  rw [msIntoSlot_eq]
  exact Int64.toInt_ofInt_of_le h (by omega)

end BeaconView

/-- Both decisions about a slot are those of exact arithmetic. -/
def TimedExactly (cfg : RelayConfig) (v : BeaconView) (slot : UInt64) (jitter : Fin 50) : Prop :=
  (headerTiming cfg.getPayloadRequestTimeLimit (v.msIntoSlot slot)).map Int64.toInt =
      headerTiming cfg.getPayloadRequestTimeLimit.toInt (v.exactMsIntoSlot slot) ∧
    (payloadTiming cfg.getPayloadRequestTimeLimit (v.msIntoSlot slot)
        (Int64.ofNat jitter)).map Int64.toInt =
      payloadTiming cfg.getPayloadRequestTimeLimit.toInt (v.exactMsIntoSlot slot) jitter

/-- The request is late, or its slot begins before the longest `time.Duration` is over. -/
def BeginsInRange (cfg : RelayConfig) (v : BeaconView) (slot : UInt64) (jitter : Fin 50) : Prop :=
  v.exactMsIntoSlot slot > cfg.getPayloadRequestTimeLimit.toInt ∨
    -v.exactMsIntoSlot slot + jitter ≤ 9223372036854

/-! ### When the decisions are exact -/

section

variable {cfg : RelayConfig} {v : BeaconView} {slot : UInt64} {jitter : Fin 50}

/-- The decision of `GetHeader` is exact when the time fits. -/
theorem headerTiming_exact (h : -2 ^ 63 ≤ v.exactMsIntoSlot slot) :
    (headerTiming cfg.getPayloadRequestTimeLimit (v.msIntoSlot slot)).map Int64.toInt =
      headerTiming cfg.getPayloadRequestTimeLimit.toInt (v.exactMsIntoSlot slot) := by
  simp only [headerTiming, gt_iff_lt, Int64.lt_iff_toInt_lt, BeaconView.toInt_msIntoSlot h]
  split
  · rfl
  · rfl

/-- The time to sleep, modulo `2 ^ 64`. -/
theorem delay_eq (v : BeaconView) (slot : UInt64) (jitter : Fin 50) :
    (v.msIntoSlot slot * -1 + Int64.ofNat jitter) * 1000000 =
      Int64.ofInt ((v.exactMsIntoSlot slot * -1 + jitter) * 1000000) := by
  rw [BeaconView.msIntoSlot_eq, Int64.ofInt_mul, Int64.ofInt_add, Int64.ofInt_mul]
  rfl

/-- The decision of `GetPayload` about a request whose time fits: a time to sleep is exact when
it fits, too. -/
theorem payloadTiming_exact_iff (h : -2 ^ 63 ≤ v.exactMsIntoSlot slot) :
    (payloadTiming cfg.getPayloadRequestTimeLimit (v.msIntoSlot slot)
        (Int64.ofNat jitter)).map Int64.toInt =
      payloadTiming cfg.getPayloadRequestTimeLimit.toInt (v.exactMsIntoSlot slot) jitter ↔
    BeginsInRange cfg v slot jitter := by
  have hjitter : (jitter : ℕ) < 50 := jitter.isLt
  unfold payloadTiming BeginsInRange
  simp only [gt_iff_lt, Int64.lt_iff_toInt_lt, BeaconView.toInt_msIntoSlot h]
  by_cases hlate : cfg.getPayloadRequestTimeLimit.toInt < v.exactMsIntoSlot slot
  · simp [hlate, Timing.map]
  · rw [if_neg hlate, if_neg hlate]
    by_cases hearly : v.exactMsIntoSlot slot < 0
    · have hzero : v.exactMsIntoSlot slot < (0 : Int64).toInt := hearly
      rw [if_pos hzero, if_pos hearly, delay_eq]
      simp only [Timing.map, Timing.sleep.injEq, hlate, false_or]
      constructor
      · intro hdelay
        have hlt := (Int64.ofInt ((v.exactMsIntoSlot slot * -1 + jitter) * 1000000)).toInt_lt
        rw [hdelay] at hlt
        omega
      · intro hrange
        exact Int64.toInt_ofInt_of_le (by omega) (by omega)
    · have hzero : ¬v.exactMsIntoSlot slot < (0 : Int64).toInt := hearly
      rw [if_neg hzero, if_neg hearly]
      simp only [Timing.map, true_iff]
      right
      omega

/-- A time that does not fit is one to sleep that does not fit. -/
theorem not_payloadTiming_exact (h : v.exactMsIntoSlot slot < -2 ^ 63) :
    (payloadTiming cfg.getPayloadRequestTimeLimit (v.msIntoSlot slot)
        (Int64.ofNat jitter)).map Int64.toInt ≠
      payloadTiming cfg.getPayloadRequestTimeLimit.toInt (v.exactMsIntoSlot slot) jitter := by
  have hlimit := cfg.getPayloadRequestTimeLimit.le_toInt
  have hexact : payloadTiming cfg.getPayloadRequestTimeLimit.toInt (v.exactMsIntoSlot slot)
      jitter = .sleep ((v.exactMsIntoSlot slot * -1 + jitter) * 1000000) := by
    unfold payloadTiming
    rw [if_neg (by omega), if_pos (by omega)]
  rw [hexact]
  cases payloadTiming cfg.getPayloadRequestTimeLimit (v.msIntoSlot slot) (Int64.ofNat jitter) with
  | late => simp [Timing.map]
  | now => simp [Timing.map]
  | sleep d =>
      have hd := d.toInt_lt
      simp only [Timing.map, ne_eq, Timing.sleep.injEq]
      omega

end

/-- **The decisions are exact exactly when** the request is late, or its slot begins before the
longest `time.Duration` is over. -/
theorem timedExactly_iff (cfg : RelayConfig) (v : BeaconView) (slot : UInt64) (jitter : Fin 50) :
    TimedExactly cfg v slot jitter ↔ BeginsInRange cfg v slot jitter := by
  by_cases h : -2 ^ 63 ≤ v.exactMsIntoSlot slot
  · unfold TimedExactly
    rw [payloadTiming_exact_iff h]
    exact and_iff_right (headerTiming_exact h)
  · have hlimit := cfg.getPayloadRequestTimeLimit.le_toInt
    constructor
    · rintro ⟨-, hpayload⟩
      exact absurd hpayload (not_payloadTiming_exact (by omega))
    · rintro (hlate | hrange)
      · omega
      · omega

/-- The mainnet at the beginning of slot 7000000. -/
def slotSevenMillion : BeaconView :=
  { (default : BeaconView) with genesisTime := 1606824023, now := 1690824023000 }

/-- A slot that is `2 ^ 62` slots ahead counts as begun: the header is looked for, and the payload
is served without a delay. -/
theorem served_far_ahead :
    headerTiming (4000 : Int64) (slotSevenMillion.msIntoSlot (7000000 + 2 ^ 62)) = .now ∧
      payloadTiming (4000 : Int64) (slotSevenMillion.msIntoSlot (7000000 + 2 ^ 62)) 0 = .now ∧
      ¬TimedExactly { (default : RelayConfig) with getPayloadRequestTimeLimit := 4000 }
        slotSevenMillion (7000000 + 2 ^ 62) 0 := by
  refine ⟨by decide +kernel, by decide +kernel, ?_⟩
  rintro ⟨-, hpayload⟩
  exact not_payloadTiming_exact (by decide +kernel) hpayload

end Dreamboat
