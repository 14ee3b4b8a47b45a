/-
**The head slot over the life of the manager.**

`Init` consumes events until one of them brings the first duties, withdrawals and randao, and then
`Run` consumes the rest.  Both raise the head slot to the slot before the proposal.  `Run` skips an
event without a proposal slot; `Init` does not, and there the slot before wraps around to the
highest one there is, which no later event can raise.

This module shows that the head slot is the highest slot announced, in every state of a run, exactly
when `Init` consumes no such event; and that it never goes back in any case.

Main definitions:

* `initEvent`, `runEvent` — one round of the loops of `Init` and `Run`;
* `Manager`, `Manager.step` — the manager, consuming one event after another;
* `maxSlot` — the highest slot announced.

Main results:

* `Manager.headSlot_step` — what one event makes of the head slot;
* `Manager.headSlot_eq_max_iff` — **when the head slot is the highest slot announced**.
-/

import Dreamboat.BeaconManager

set_option autoImplicit false

namespace Dreamboat

/-! ### The loops -/

/-- An event, with what the calls to the outside are answered while it is processed. -/
structure Received where
  event : PayloadAttributesEvent
  answers : Answers
  /-- The error of `updateKnownValidators`. -/
  knownValidators : Option GoError

/-- Where the manager is. -/
inductive Phase where
  | init
  | run
  /-- `Init` has returned an error. -/
  | failed (err : GoError)
  deriving DecidableEq

variable (P : Primitives)

/-- One round of the loop of `Init`; `none` is a panic. -/
def initEvent (s : MultiSlotState) (a : Received) : Option (MultiSlotState × Phase) :=
  let headSlot := a.event.receivedSlot
  let s := (s.setHeadSlotIfHigher headSlot).1
  match a.knownValidators with
  | some _ => some (s, .init)
  | none =>
      match getProposerDuties a.answers headSlot with
      | .error err => some (s, .failed err)
      | .ok entries =>
          let s := storeProposerDuties a.answers s headSlot entries
          match a.event.parentBlockHash with
          | .error err => some (s, .failed (.wrap ("failed to unmarshal parentBlockHash: " ++
              err.error) err))
          | .ok receivedParentBlockHash =>
              match updateWithdrawalsAndRandao P s a.event receivedParentBlockHash with
              | none => none
              | some (s, some err) => some (s, .failed err)
              | some (s, none) => some (s, .run)

/-- One round of the loop of `Run`; `none` is a panic. -/
def runEvent (s : MultiSlotState) (a : Received) : Option MultiSlotState :=
  if a.event.proposalSlot = 0 then some s
  else do
    let (s, _) ← processNewSlot P s a.answers a.event
    -- the log reads what is recorded for the head slot
    let _ ← s.randao s.getHeadSlot s.getParentBlockHash
    let _ ← s.withdrawals s.getHeadSlot s.getParentBlockHash
    return s

/-- The manager; `consumed` are the proposal slots of the events so far, the last one first. -/
structure Manager where
  state : MultiSlotState
  phase : Phase
  consumed : List UInt64

namespace Manager

/-- The manager when `Init` has subscribed to the events. -/
def new (fork : ForkState) : Manager := ⟨.new fork, .init, []⟩

/-- The manager consumes an event. -/
def step (m : Manager) (a : Received) : Option Manager :=
  match m.phase with
  | .init => do
      let (state, phase) ← initEvent P m.state a
      return ⟨state, phase, a.event.proposalSlot :: m.consumed⟩
  | .run => do
      let state ← runEvent P m.state a
      return ⟨state, .run, a.event.proposalSlot :: m.consumed⟩
  | .failed _ => none

end Manager

/-- The highest of the slots before the proposal slots, without wrap-around; a proposal slot of zero
has none. -/
def maxSlot (consumed : List UInt64) : ℕ :=
  ((consumed.filter fun p => 1 ≤ p).map fun p => p.toNat - 1).foldr max 0

/-! ### What one event makes of the head slot -/

variable {P} {s s' : MultiSlotState} {a : Received}

theorem headSlot_of_update {e : PayloadAttributesEvent} {p : Hash} {err : Option GoError}
    (h : updateWithdrawalsAndRandao P s e p = some (s', err)) : s'.headSlot = s.headSlot := by
  rcases updateWithdrawalsAndRandao_eq_some h with ⟨-, rfl, -⟩ | ⟨-, hrec⟩
  · rfl
  · rw [hrec.same]

/-- A call of `processNewSlot` raises the head slot first, and then leaves it alone. -/
theorem headSlot_of_processNewSlot {c : Answers} {e : PayloadAttributesEvent}
    {err : Option GoError} (h : processNewSlot P s c e = some (s', err)) :
    s'.headSlot = (s.raised e.receivedSlot).headSlot := by
  -- an event that is not above the head slot does not raise it
  have hsame : ∀ hd, s.headSlot = some hd → e.receivedSlot ≤ hd →
      s.headSlot = (s.raised e.receivedSlot).headSlot := by
    intro hd hhead hle
    rw [raised_of_not_raises fun hraises => UInt64.not_lt.2 hle (hraises hd hhead)]
  cases processNewSlot_cases h with
  | malformed err hparent => rfl
  | old hd hhead hlt => exact hsame hd hhead (UInt64.le_of_lt hlt)
  | duplicate hhead hparent => exact hsame _ hhead (UInt64.le_refl _)
  | otherParent p s' err hhead hne hparent hupdate =>
      rw [headSlot_of_update hupdate]
      exact hsame _ hhead (UInt64.le_refl _)
  | unknownFork err hv => rfl
  | dutiesFail p err hnew hparent hduties => rfl
  | dutiesOnly p entries hnew hab => rfl
  | processed p entries s' err hraises hparent hupdate =>
      have hkept := headSlot_of_update hupdate
      exact hkept

theorem headSlot_of_initEvent {phase : Phase} (h : initEvent P s a = some (s', phase)) :
    s'.headSlot = (s.raised a.event.receivedSlot).headSlot := by
  unfold initEvent at h
  dsimp only at h
  split at h
  · cases h
    rfl
  · split at h
    · cases h
      rfl
    · split at h
      · cases h
        rfl
      · split at h
        · cases h
        · next hupdate =>
            cases h
            have hkept := headSlot_of_update hupdate
            exact hkept
        · next hupdate =>
            cases h
            have hkept := headSlot_of_update hupdate
            exact hkept

/-- The head slot that is raised is the higher one. -/
theorem getHeadSlot_raised (s : MultiSlotState) (slot : UInt64) :
    (s.raised slot).getHeadSlot.toNat = max s.getHeadSlot.toNat slot.toNat := by
  unfold MultiSlotState.raised MultiSlotState.getHeadSlot
  rcases setHeadSlotIfHigher_cases s slot with ⟨hraises, hset⟩ | ⟨hd, hhead, hle, hset⟩
  · rw [hset]
    cases hhead : s.headSlot with
    | none => simp
    | some hd =>
        have hlt := UInt64.lt_iff_toNat_lt.1 (hraises hd hhead)
        simp only [Option.getD_some]
        omega
  · have hle := UInt64.le_iff_toNat_le.1 hle
    rw [hset, hhead]
    simp only [Option.getD_some]
    omega

theorem maxSlot_cons_zero (consumed : List UInt64) :
    maxSlot (0 :: consumed) = maxSlot consumed := by
  unfold maxSlot
  rw [List.filter_cons_of_neg (by decide)]

theorem maxSlot_cons_of_ne {p : UInt64} (hp : p ≠ 0) (consumed : List UInt64) :
    maxSlot (p :: consumed) = max (p.toNat - 1) (maxSlot consumed) := by
  have hpos : 1 ≤ p := by
    rw [UInt64.le_iff_toNat_le, UInt64.toNat_one]
    have := mt UInt64.toNat_inj.1 hp
    rw [UInt64.toNat_zero] at this
    omega
  unfold maxSlot
  rw [List.filter_cons_of_pos (by simpa using hpos), List.map_cons, List.foldr_cons]

/-- The highest slot announced is below the one that the wrap-around leads to. -/
theorem maxSlot_lt (consumed : List UInt64) : maxSlot consumed < 2 ^ 64 - 1 := by
  induction consumed with
  | nil => decide
  | cons p consumed ih =>
      by_cases hp : p = 0
      · rw [hp, maxSlot_cons_zero]
        exact ih
      · rw [maxSlot_cons_of_ne hp]
        have := p.toNat_lt
        omega

/-- The slot before a proposal slot. -/
theorem toNat_receivedSlot {e : PayloadAttributesEvent} (h : e.proposalSlot ≠ 0) :
    e.receivedSlot.toNat = e.proposalSlot.toNat - 1 := by
  have hpos := mt UInt64.toNat_inj.1 h
  rw [UInt64.toNat_zero] at hpos
  rw [PayloadAttributesEvent.receivedSlot, UInt64.toNat_sub_of_le, UInt64.toNat_one]
  rw [UInt64.le_iff_toNat_le, UInt64.toNat_one]
  omega

/-- The slot before the proposal slot zero: the wrap-around. -/
theorem toNat_receivedSlot_zero {e : PayloadAttributesEvent} (h : e.proposalSlot = 0) :
    e.receivedSlot.toNat = 2 ^ 64 - 1 := by
  rw [PayloadAttributesEvent.receivedSlot, h]
  rfl

namespace Manager

variable {m m' : Manager}

/-- **What one event makes of the head slot.** -/
theorem headSlot_step (h : m.step P a = some m') :
    m'.consumed = a.event.proposalSlot :: m.consumed ∧
    ((m.phase = .run ∧ a.event.proposalSlot = 0 ∧
        m'.state.getHeadSlot.toNat = m.state.getHeadSlot.toNat) ∨
      ((m.phase = .init ∨ a.event.proposalSlot ≠ 0) ∧
        m'.state.getHeadSlot.toNat =
          max m.state.getHeadSlot.toNat a.event.receivedSlot.toNat)) := by
  unfold Manager.step at h
  split at h
  · next hphase =>
      obtain ⟨⟨state, phase⟩, hinit, h⟩ := Option.bind_eq_some_iff.1 h
      cases h
      refine ⟨rfl, Or.inr ⟨Or.inl hphase, ?_⟩⟩
      rw [← getHeadSlot_raised, MultiSlotState.getHeadSlot, headSlot_of_initEvent hinit]
      rfl
  · next hphase =>
      obtain ⟨state, hrun, h⟩ := Option.bind_eq_some_iff.1 h
      cases h
      refine ⟨rfl, ?_⟩
      unfold runEvent at hrun
      split at hrun
      · next hzero =>
          cases hrun
          exact Or.inl ⟨hphase, hzero, rfl⟩
      · next hne =>
          obtain ⟨⟨s, err⟩, hnew, hrun⟩ := Option.bind_eq_some_iff.1 hrun
          obtain ⟨r, -, hrun⟩ := Option.bind_eq_some_iff.1 hrun
          obtain ⟨w, -, hrun⟩ := Option.bind_eq_some_iff.1 hrun
          cases hrun
          refine Or.inr ⟨Or.inr hne, ?_⟩
          rw [← getHeadSlot_raised, MultiSlotState.getHeadSlot, headSlot_of_processNewSlot hnew]
          rfl
  · cases h

/-! ### The head slot over a run -/

/-- The head slot is the highest slot announced. -/
def HeadIsMax (m : Manager) : Prop := m.state.getHeadSlot.toNat = maxSlot m.consumed

instance (m : Manager) : Decidable m.HeadIsMax := inferInstanceAs (Decidable (_ = _))

/-- The condition: `Init` does not consume an event without a proposal slot. -/
def InitGetsSlot (m : Manager) (a : Received) : Prop :=
  m.phase = .init → a.event.proposalSlot ≠ 0

instance (m : Manager) (a : Received) : Decidable (m.InitGetsSlot a) :=
  inferInstanceAs (Decidable (_ → ¬_))

/-- One event keeps the head slot the highest one announced exactly under the condition. -/
theorem headIsMax_step (h : m.HeadIsMax) (hs : m.step P a = some m') :
    m'.HeadIsMax ↔ m.InitGetsSlot a := by
  unfold HeadIsMax at h ⊢
  obtain ⟨hcons, ⟨hphase, hzero, hhead⟩ | ⟨hcase, hhead⟩⟩ := headSlot_step hs
  · rw [hcons, hhead, hzero, maxSlot_cons_zero]
    refine iff_of_true h fun hinit => ?_
    rw [hphase] at hinit
    cases hinit
  · rw [hcons, hhead]
    by_cases hzero : a.event.proposalSlot = 0
    · -- the wrap-around leads above all that is announced
      have hlt := maxSlot_lt m.consumed
      rw [toNat_receivedSlot_zero hzero, hzero, maxSlot_cons_zero]
      refine iff_of_false (by omega) fun hC => ?_
      exact hC (hcase.resolve_right fun hne => hne hzero) hzero
    · rw [toNat_receivedSlot hzero, maxSlot_cons_of_ne hzero]
      exact iff_of_true (by omega) fun _ => hzero

/-- The head slot never goes back, from one state of a run to a later one. -/
def NeverDecreases (P : Primitives) (m₀ : Manager) (as : List Received) : Prop :=
  ∀ pre mid post m m', as = pre ++ (mid ++ post) → Runs.run (step P) m₀ pre = some m →
    Runs.run (step P) m mid = some m' → m.state.getHeadSlot ≤ m'.state.getHeadSlot

theorem getHeadSlot_le_step (hs : m.step P a = some m') :
    m.state.getHeadSlot ≤ m'.state.getHeadSlot := by
  rw [UInt64.le_iff_toNat_le]
  obtain ⟨-, ⟨-, -, hhead⟩ | ⟨-, hhead⟩⟩ := headSlot_step hs
  · omega
  · omega

theorem neverDecreases (P : Primitives) (m₀ : Manager) (as : List Received) :
    NeverDecreases P m₀ as := by
  rintro pre mid post m m' - - hmid
  refine Runs.run_invariant (step P) (I := fun u => m.state.getHeadSlot ≤ u.state.getHeadSlot)
    ?_ (UInt64.le_refl _) hmid
  intro u a u' hle hs
  exact UInt64.le_trans hle (getHeadSlot_le_step hs)

/-- **The head slot is the highest slot announced, in every state of a run, and never goes back,
exactly when `Init` consumes no event without a proposal slot.** -/
theorem headSlot_eq_max_iff (P : Primitives) (fork : ForkState) (as : List Received) (t : Manager)
    (hrun : Runs.run (step P) (new fork) as = some t) :
    ((∀ m, Runs.Visits (step P) (new fork) as m → m.HeadIsMax) ∧
      NeverDecreases P (new fork) as) ↔ Runs.Meets (step P) InitGetsSlot (new fork) as := by
  have hnew : (new fork).HeadIsMax := rfl
  rw [and_iff_left (neverDecreases P (new fork) as)]
  exact Runs.forall_visits_iff_meets (step P) (fun _ _ _ h hs => headIsMax_step h hs) hnew hrun

/-- An event with a proposal slot, whose calls to the outside succeed. -/
def received (proposalSlot : UInt64) : Received where
  event := ⟨proposalSlot, .ok default, ⟨"0x01", []⟩⟩
  answers := answering (.ok [])
  knownValidators := none

/-- The last event is skipped. -/
theorem headSlot_eq_max_iff_skipped :
    ∃ t, Runs.run (step default) (new ⟨0, 1, 2⟩) [received 65, received 66, received 0] = some t ∧
      t.HeadIsMax ∧ t.state.getHeadSlot = 65 := by
  refine ⟨_, rfl, ?_, rfl⟩
  have h := headSlot_eq_max_iff default ⟨0, 1, 2⟩ [received 65, received 66, received 0] _ rfl
  exact (h.2 (by decide +kernel)).1 _ (Runs.visits_last _ rfl)

/-- The first event has no proposal slot, and the later ones are taken for old ones. -/
theorem headSlot_wraps_around :
    ∃ t, Runs.run (step default) (new ⟨0, 1, 2⟩) [received 0, received 66] = some t ∧
      t.state.getHeadSlot = 18446744073709551615 ∧ maxSlot t.consumed = 65 :=
  ⟨_, rfl, rfl, rfl⟩

end Manager

end Dreamboat
