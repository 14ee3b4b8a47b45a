/-
**The latest deliveries.**

Without a filter, `getlatestDelivered` of `src/datastore/evidence/badger/payload.go` goes down from
a slot, slot by slot, and collects the traces of the deliveries it finds.  It gives up when it lags
`maxSlotLagPayloads` slots behind.  After a slot without a delivery the lag of the next slot is
tested, after a slot with a delivery the lag of that slot itself, so that a delivery in the last
slot of the window makes the loop look at one slot more.  Slots are unsigned, and below slot 0 the
loop goes on with the highest ones.

This module has the slots that are looked at, and says when the answer is the one that the window
gives: when the window has as many deliveries as were asked for, or when there are none in the
other slots that are looked at.

Main definitions:

* `Badger.latestDeliveredRound`, `Badger.latestDeliveredEnds` — a round of the loop, and a loop that
  ends;
* `Badger.window`, `Badger.beyond` — the slots that should be looked at, and the others that are;
* `Badger.LatestRight` — the loop ends with the latest deliveries of the window.

Main results:

* `Badger.latestDeliveredEnds_start` — **the loop ends**, and what it returns;
* `Badger.latestRight_iff` — **when it returns the latest deliveries**;
* `Badger.delivered_beyond_window` — a delivery that lags too much.
-/

import Mathlib.Data.UInt
import Dreamboat.DeliveredEvidence

set_option autoImplicit false

namespace Dreamboat

namespace Badger

/-! ### Rounds -/

section

variable (db : DB) (start : UInt64) (limit : ℤ)

/-- A round of the loop of `getlatestDelivered`: there is another one, or the call is over. -/
def latestDeliveredRound (initialSlot : UInt64) (el : List BidTraceExtended) :
    (UInt64 × List BidTraceExtended) ⊕ Call (List BidTraceExtended) :=
  match get db (deliveredKey initialSlot) with
  | .error err =>
      if err = errNotFound then
        let initialSlot := initialSlot - 1
        if start - initialSlot ≥ UInt64.ofNat maxSlotLagPayloads then .inr (return el)
        else .inl (initialSlot, el)
      else .inr (throw err)
  | .ok payload =>
      match payload.toTrace with
      | .error err => .inr (throw err)
      | .ok bte =>
          let el := el ++ [toBidTraceExtended bte]
          if el.length = limit then .inr (return el)
          else if el.length > limit then
            .inr (if 0 ≤ limit then return el.take limit.toNat else ExceptT.mk none)
          else if start - initialSlot ≥ UInt64.ofNat maxSlotLagPayloads then .inr (return el)
          else .inl (initialSlot - 1, el)

/-- What the loop returns, if it ends within a number of rounds. -/
def latestDeliveredEnds :
    ℕ → UInt64 → List BidTraceExtended → Option (Call (List BidTraceExtended))
  | 0, _, _ => none
  | n + 1, initialSlot, el =>
      match latestDeliveredRound db start limit initialSlot el with
      | .inl (initialSlot, el) => latestDeliveredEnds n initialSlot el
      | .inr result => some result

variable {db start limit}

theorem latestDeliveredLoop_succ (n : ℕ) (initialSlot : UInt64) (el : List BidTraceExtended) :
    latestDeliveredLoop db start limit (n + 1) initialSlot el =
      match latestDeliveredRound db start limit initialSlot el with
      | .inl (initialSlot, el) => latestDeliveredLoop db start limit n initialSlot el
      | .inr result => result := by
  rw [latestDeliveredLoop, latestDeliveredRound]
  cases get db (deliveredKey initialSlot) with
  | error err =>
      by_cases herr : err = errNotFound
      · simp only [if_pos herr]
        split
        · rfl
        · rfl
      · simp only [if_neg herr]
  | ok payload =>
      cases htrace : payload.toTrace with
      | error err => simp only [htrace]
      | ok bte =>
          simp only [htrace]
          split
          · rfl
          · split
            · rfl
            · split
              · rfl
              · rfl

/-- The number of rounds that the loop is given matters no more once it ends. -/
theorem latestDeliveredLoop_of_ends {n : ℕ} {initialSlot : UInt64} {el : List BidTraceExtended}
    {result : Call (List BidTraceExtended)}
    (h : latestDeliveredEnds db start limit n initialSlot el = some result) :
    latestDeliveredLoop db start limit n initialSlot el = result := by
  induction n generalizing initialSlot el with
  | zero => cases h
  | succ n ih =>
      rw [latestDeliveredEnds] at h
      rw [latestDeliveredLoop_succ]
      cases hround : latestDeliveredRound db start limit initialSlot el with
      | inl next =>
          rw [hround] at h
          exact ih h
      | inr r =>
          rw [hround] at h
          exact Option.some.inj h

/-- A loop ends in one way only. -/
theorem latestDeliveredEnds_unique {n m : ℕ} {initialSlot : UInt64} {el : List BidTraceExtended}
    {result result' : Call (List BidTraceExtended)}
    (h : latestDeliveredEnds db start limit n initialSlot el = some result)
    (h' : latestDeliveredEnds db start limit m initialSlot el = some result') :
    result = result' := by
  induction n generalizing m initialSlot el with
  | zero => cases h
  | succ n ih =>
      cases m with
      | zero => cases h'
      | succ m =>
          rw [latestDeliveredEnds] at h h'
          cases hround : latestDeliveredRound db start limit initialSlot el with
          | inl next =>
              rw [hround] at h h'
              exact ih h h'
          | inr r =>
              rw [hround] at h h'
              exact Option.some.inj (h.symm.trans h')

end

/-! ### The slots -/

/-- The trace that is returned for a slot. -/
def deliveredAt (ws : List Write) (slot : UInt64) : Option BidTraceExtended :=
  (lastOf ws slot).map fun d => toBidTraceExtended d.trace.trace

/-- The slot that is a number of slots back. -/
def slotsBack (start : UInt64) (k : ℕ) : UInt64 := start - UInt64.ofNat k

/-- How many of the slots of the window there are. -/
def windowLength (start : UInt64) : ℕ := min maxSlotLagPayloads (start.toNat + 1)

/-- The slots from `start` on downwards, `maxSlotLagPayloads` of them or down to slot 0. -/
def window (start : UInt64) : List UInt64 :=
  (List.range (windowLength start)).map (slotsBack start)

/-- One slot too many, if the slot before it has a delivery. -/
def overrun (ws : List Write) (start : UInt64) : List UInt64 :=
  if (deliveredAt ws (slotsBack start (maxSlotLagPayloads - 1))).isSome then
    [slotsBack start maxSlotLagPayloads]
  else []

/-- The other slots that are looked at: those below slot 0, and the one too many. -/
def beyond (ws : List Write) (start : UInt64) : List UInt64 :=
  (List.range' (windowLength start) (maxSlotLagPayloads - windowLength start)).map
      (slotsBack start) ++
    overrun ws start

section

variable (ws : List Write) (start : UInt64)

/-- The traces that are found from a slot of the loop on. -/
def tracesFrom (k : ℕ) : List BidTraceExtended :=
  ((List.range' k (maxSlotLagPayloads - k)).map (slotsBack start) ++ overrun ws start).filterMap
    (deliveredAt ws)

theorem slotsBack_sub_one (k : ℕ) : slotsBack start k - 1 = slotsBack start (k + 1) := by
  unfold slotsBack
  rw [UInt64.ofNat_add]
  grind

theorem lag_slotsBack (k : ℕ) : start - slotsBack start k = UInt64.ofNat k := by
  unfold slotsBack
  grind

theorem lag_ge_iff {k : ℕ} (hk : k ≤ maxSlotLagPayloads + 1) :
    start - slotsBack start k ≥ UInt64.ofNat maxSlotLagPayloads ↔ maxSlotLagPayloads ≤ k := by
  rw [lag_slotsBack, ge_iff_le, UInt64.le_iff_toNat_le]
  simp only [maxSlotLagPayloads, UInt64.toNat_ofNat'] at hk ⊢
  omega

theorem tracesFrom_zero :
    tracesFrom ws start 0 = (window start ++ beyond ws start).filterMap (deliveredAt ws) := by
  have hle : windowLength start ≤ maxSlotLagPayloads := Nat.min_le_left _ _
  have hrange := List.range'_append_1 (s := 0) (m := windowLength start)
    (n := maxSlotLagPayloads - windowLength start)
  rw [Nat.zero_add, Nat.add_sub_cancel' hle, ← List.range_eq_range'] at hrange
  rw [tracesFrom, window, beyond, ← List.append_assoc, ← List.map_append, hrange]
  rfl

theorem tracesFrom_of_lt {k : ℕ} (hk : k + 1 < maxSlotLagPayloads) :
    tracesFrom ws start k =
      (deliveredAt ws (slotsBack start k)).toList ++ tracesFrom ws start (k + 1) := by
  obtain ⟨m, hm⟩ : ∃ m, maxSlotLagPayloads - k = m + 1 := ⟨maxSlotLagPayloads - k - 1, by omega⟩
  have hm' : maxSlotLagPayloads - (k + 1) = m := by omega
  rw [tracesFrom, tracesFrom, hm, hm', List.range'_succ, List.map_cons, List.cons_append,
    List.filterMap_cons]
  cases deliveredAt ws (slotsBack start k) with
  | none => rfl
  | some t => rfl

/-- The last slot of the window, and the one after it. -/
theorem tracesFrom_last :
    tracesFrom ws start (maxSlotLagPayloads - 1) =
      match deliveredAt ws (slotsBack start (maxSlotLagPayloads - 1)) with
      | none => []
      | some t => [t] ++ (deliveredAt ws (slotsBack start maxSlotLagPayloads)).toList := by
  have hone : maxSlotLagPayloads - (maxSlotLagPayloads - 1) = 1 := rfl
  rw [tracesFrom, overrun, hone]
  cases hlast : deliveredAt ws (slotsBack start (maxSlotLagPayloads - 1)) with
  | none => simp [hlast]
  | some t =>
      cases hnext : deliveredAt ws (slotsBack start maxSlotLagPayloads) with
      | none => simp [hlast, hnext]
      | some t' => simp [hlast, hnext]

end

/-! ### The loop -/

section

variable {ws : List Write} {start : UInt64} {limit : ℕ} {k : ℕ} {el : List BidTraceExtended}

theorem get_deliveredKey (ws : List Write) (slot : UInt64) :
    get (history ws) (deliveredKey slot) =
      match lastOf ws slot with
      | none => .error errNotFound
      | some d => .ok (.trace d.trace.trace) := by
  have hlookup : (history ws).lookup (deliveredKey slot) = _ := lookup_delivered ws slot
  rw [get, hlookup, lastOf]
  cases KeyedLog.lastWrite Delivery.slot slot (deliveries ws) with
  | none => rfl
  | some d => rfl

/-- A round at a slot without a delivery. -/
theorem round_of_none (hk : k ≤ maxSlotLagPayloads)
    (h : deliveredAt ws (slotsBack start k) = none) :
    latestDeliveredRound (history ws) start limit (slotsBack start k) el =
      if maxSlotLagPayloads ≤ k + 1 then .inr (return el)
      else .inl (slotsBack start (k + 1), el) := by
  have hlast : lastOf ws (slotsBack start k) = none := Option.map_eq_none_iff.1 h
  rw [latestDeliveredRound, get_deliveredKey, hlast]
  simp only [if_true, slotsBack_sub_one, lag_ge_iff start (Nat.succ_le_succ hk)]

/-- A round at a slot with a delivery. -/
theorem round_of_some (hk : k ≤ maxSlotLagPayloads) {t : BidTraceExtended}
    (h : deliveredAt ws (slotsBack start k) = some t) (hel : el.length < limit) :
    latestDeliveredRound (history ws) start limit (slotsBack start k) el =
      if el.length + 1 = limit ∨ maxSlotLagPayloads ≤ k then .inr (return el ++ [t])
      else .inl (slotsBack start (k + 1), el ++ [t]) := by
  obtain ⟨d, hlast, rfl⟩ := Option.map_eq_some_iff.1 h
  rw [latestDeliveredRound, get_deliveredKey, hlast]
  simp only [Value.toTrace, slotsBack_sub_one, lag_ge_iff start (Nat.le_succ_of_le hk),
    List.length_append, List.length_singleton]
  by_cases hfull : el.length + 1 = limit
  · rw [if_pos (by exact_mod_cast hfull), if_pos (.inl hfull)]
  · rw [if_neg (by exact_mod_cast hfull), if_neg (by push_cast; omega)]
    by_cases hlag : maxSlotLagPayloads ≤ k
    · rw [if_pos hlag, if_pos (.inr hlag)]
    · rw [if_neg hlag, if_neg (by tauto)]

/-- The loop at the slot after the window. -/
theorem latestDeliveredEnds_overrun (hel : el.length < limit) :
    latestDeliveredEnds (history ws) start limit 1 (slotsBack start maxSlotLagPayloads) el =
      some (return el ++ (deliveredAt ws (slotsBack start maxSlotLagPayloads)).toList) := by
  rw [latestDeliveredEnds]
  cases hdel : deliveredAt ws (slotsBack start maxSlotLagPayloads) with
  | none =>
      rw [round_of_none le_rfl hdel, if_pos (Nat.le_succ _), Option.toList_none, List.append_nil]
  | some t => rw [round_of_some le_rfl hdel hel, if_pos (.inr le_rfl), Option.toList_some]

/-- The loop at the last slot of the window. -/
theorem latestDeliveredEnds_last (hel : el.length < limit) :
    latestDeliveredEnds (history ws) start limit 2 (slotsBack start (maxSlotLagPayloads - 1)) el =
      some (return (el ++ tracesFrom ws start (maxSlotLagPayloads - 1)).take limit) := by
  have hk : maxSlotLagPayloads - 1 ≤ maxSlotLagPayloads := Nat.sub_le _ _
  have hnext : maxSlotLagPayloads - 1 + 1 = maxSlotLagPayloads := rfl
  rw [tracesFrom_last, latestDeliveredEnds]
  cases hdel : deliveredAt ws (slotsBack start (maxSlotLagPayloads - 1)) with
  | none =>
      rw [round_of_none hk hdel, if_pos hnext.ge, List.append_nil, List.take_of_length_le hel.le]
  | some t =>
      rw [round_of_some hk hdel hel]
      by_cases hfull : el.length + 1 = limit
      · rw [if_pos (.inl hfull), ← List.append_assoc, List.take_left' (by simpa using hfull)]
      · have hel' : (el ++ [t]).length < limit := by
          rw [List.length_append, List.length_singleton]
          omega
        rw [if_neg (by omega), hnext]
        dsimp only
        rw [latestDeliveredEnds_overrun hel', ← List.append_assoc, List.take_of_length_le]
        rw [List.length_append]
        have hone :=
          Option.length_toList_le (o := deliveredAt ws (slotsBack start maxSlotLagPayloads))
        omega

/-- **The loop from a slot of the window on.**  The induction is on the number of slots that are
left of the window. -/
theorem latestDeliveredEnds_slotsBack {j : ℕ} (hk : k + j + 1 = maxSlotLagPayloads)
    (hel : el.length < limit) :
    latestDeliveredEnds (history ws) start limit (j + 2) (slotsBack start k) el =
      some (return (el ++ tracesFrom ws start k).take limit) := by
  induction j generalizing k el with
  | zero =>
      obtain rfl : k = maxSlotLagPayloads - 1 := by omega
      exact latestDeliveredEnds_last hel
  | succ j ih =>
      rw [tracesFrom_of_lt ws start (by omega), latestDeliveredEnds]
      cases hdel : deliveredAt ws (slotsBack start k) with
      | none =>
          rw [round_of_none (by omega) hdel, if_neg (by omega)]
          exact ih (by omega) hel
      | some t =>
          rw [round_of_some (by omega) hdel hel]
          by_cases hfull : el.length + 1 = limit
          · rw [if_pos (.inl hfull), Option.toList_some, ← List.append_assoc,
              List.take_left' (by simpa using hfull)]
          · rw [if_neg (by omega), Option.toList_some, ← List.append_assoc]
            exact ih (by omega) (by simp; omega)

/-- **The loop ends** after at most one round more than the window has slots, with the traces of
the slots that are looked at. -/
theorem latestDeliveredEnds_start (hlimit : 1 ≤ limit) :
    latestDeliveredEnds (history ws) start limit (maxSlotLagPayloads + 1) start [] =
      some (return ((window start ++ beyond ws start).filterMap (deliveredAt ws)).take limit) := by
  have hstart : slotsBack start 0 = start := UInt64.sub_zero start
  have hends : latestDeliveredEnds (history ws) start limit (maxSlotLagPayloads - 1 + 2)
      (slotsBack start 0) [] = _ := latestDeliveredEnds_slotsBack rfl hlimit
  rw [hstart, tracesFrom_zero, List.nil_append] at hends
  exact hends

theorem getlatestDelivered_eq (hlimit : 1 ≤ limit) :
    getlatestDelivered (history ws) start limit =
      return ((window start ++ beyond ws start).filterMap (deliveredAt ws)).take limit :=
  latestDeliveredLoop_of_ends (latestDeliveredEnds_start hlimit)

end

/-! ### The latest deliveries -/

/-- The latest deliveries of the window, at most `limit` of them. -/
def latestIn (ws : List Write) (start : UInt64) (limit : ℕ) : List BidTraceExtended :=
  ((window start).filterMap (deliveredAt ws)).take limit

/-- The loop ends and returns the latest deliveries of the window, from the latest one on. -/
def LatestRight (ws : List Write) (start : UInt64) (limit : ℕ) : Prop :=
  ∃ rounds, latestDeliveredEnds (history ws) start limit rounds start [] =
    some (return latestIn ws start limit)

theorem call_pure_inj {α : Type} {a b : α} : (pure a : Call α) = pure b ↔ a = b := by
  constructor
  · intro h
    exact Except.ok.inj (Option.some.inj h)
  · intro h
    rw [h]

theorem take_append_eq_take_iff {α : Type} {l l' : List α} {n : ℕ} :
    (l ++ l').take n = l.take n ↔ n ≤ l.length ∨ l' = [] := by
  rw [List.take_append, List.append_right_eq_self, List.take_eq_nil_iff, Nat.sub_eq_zero_iff_le]

theorem latestRight_iff_take {ws : List Write} {start : UInt64} {limit : ℕ} (hlimit : 1 ≤ limit) :
    LatestRight ws start limit ↔
      ((window start ++ beyond ws start).filterMap (deliveredAt ws)).take limit =
        latestIn ws start limit := by
  have hends : latestDeliveredEnds (history ws) start limit (maxSlotLagPayloads + 1) start [] = _ :=
    latestDeliveredEnds_start hlimit
  constructor
  · rintro ⟨rounds, h⟩
    exact call_pure_inj.1 (latestDeliveredEnds_unique hends h)
  · intro h
    refine ⟨maxSlotLagPayloads + 1, ?_⟩
    rw [hends, h]

/-- **The latest deliveries are returned exactly when** the window has as many as were asked for,
or there are no deliveries in the other slots that are looked at. -/
theorem latestRight_iff (ws : List Write) (start : UInt64) (limit : ℕ) (hlimit : 1 ≤ limit) :
    LatestRight ws start limit ↔
      limit ≤ ((window start).filterMap (deliveredAt ws)).length ∨
        ∀ slot ∈ beyond ws start, deliveredAt ws slot = none := by
  rw [latestRight_iff_take hlimit, latestIn, List.filterMap_append, take_append_eq_take_iff,
    List.filterMap_eq_nil_iff]

/-- A delivery for each of some slots. -/
def deliveriesFor (slots : List UInt64) : List Write :=
  slots.map fun slot => .delivery (sampleDelivery slot (Vector.replicate 32 1))

/-- The latest delivery is returned, although there is one below slot 0. -/
theorem latestRight_iff_one : LatestRight (deliveriesFor [5, 2 ^ 64 - 1]) 7 1 :=
  (latestRight_iff (deliveriesFor [5, 2 ^ 64 - 1]) 7 1 le_rfl).2 (.inl (by decide +kernel))

/-- **A delivery that lags too much**: slot 651 is the last one of the window, and since it has a
delivery, the one of slot 650 is returned, too. -/
theorem delivered_beyond_window :
    getlatestDelivered (history (deliveriesFor [650, 651])) 1000 10 =
        (return [651, 650].filterMap (deliveredAt (deliveriesFor [650, 651]))) ∧
      ¬LatestRight (deliveriesFor [650, 651]) 1000 10 := by
  have hlimit : 1 ≤ 10 := by decide
  refine ⟨?_, ?_⟩
  · exact (getlatestDelivered_eq hlimit).trans (congrArg pure (by decide +kernel))
  · rw [latestRight_iff_take hlimit]
    decide +kernel

end Badger

end Dreamboat
