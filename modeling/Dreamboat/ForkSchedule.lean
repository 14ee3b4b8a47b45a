/-
**The fork schedule: which fork a slot belongs to.**

At the start the manager asks its beacon node for the fork schedule and keeps, for each of the
three forks it has a version configured for, the epoch at which that fork begins.  From then on the
fork of a slot is read off these three numbers (`ForkState.version`); it selects how a
request is decoded, under which domain it is signed and in which format it is stored.

What the schedule itself says is simpler: a slot belongs to the fork of the last entry that has
begun by then.  The three numbers do not always say the same.  An epoch of zero stands for a fork
that is not scheduled, so that a fork that begins at genesis is lost; and the question whether a
slot is one of Altair asks neither whether Altair is scheduled nor what it means that Bellatrix is
not.  This module says exactly where the two agree.

Main definitions:

* `initForkEpoch` — the schedule is fetched and reduced to a `ForkState`;
* `activeFork` — the fork of the last entry that has begun;
* `ScheduledAt`, `Begun`, `Ahead` — where a fork stands in the schedule at an epoch;
* `Told` — the three epochs tell the active fork.

Main results:

* `epochOf_forkStateOf` — the loop keeps the epoch of the last entry of each fork;
* `ScheduledAt.epochOf_eq` — with distinct versions this is the only one;
* `forkVersion_iff` — **the fork of a slot is the active one exactly if the epochs tell it**;
* `forkVersion_wrong` — three schedules for which they do not.
-/

import Mathlib.Data.List.Induction
import Mathlib.Data.List.Nodup
import Dreamboat.BeaconState
import Dreamboat.KeyedLog

set_option autoImplicit false

namespace Dreamboat

/-! ### The model -/

/-- An entry of the schedule, as far as it is read. -/
structure ScheduledFork where
  currentVersion : String
  epoch : UInt64
  deriving DecidableEq, Repr

/-- The fork versions of the configuration of the manager. -/
structure ForkConfig where
  altairForkVersion : String
  bellatrixForkVersion : String
  capellaForkVersion : String
  deriving DecidableEq, Repr

/-- The case of the `switch` that a version takes. -/
def ForkConfig.forkOf (cfg : ForkConfig) (version : String) : ForkVersion :=
  if version = cfg.altairForkVersion then .altair
  else if version = cfg.bellatrixForkVersion then .bellatrix
  else if version = cfg.capellaForkVersion then .capella
  else .unknown

/-- The body of the loop over the schedule. -/
def ForkState.schedule (cfg : ForkConfig) (fs : ForkState) (fork : ScheduledFork) : ForkState :=
  match cfg.forkOf fork.currentVersion with
  | .altair => { fs with altairEpoch := fork.epoch }
  | .bellatrix => { fs with bellatrixEpoch := fork.epoch }
  | .capella => { fs with capellaEpoch := fork.epoch }
  | .unknown => fs

/-- The loop over the schedule. -/
def forkStateOf (cfg : ForkConfig) (data : List ScheduledFork) : ForkState :=
  data.foldl (ForkState.schedule cfg) ⟨0, 0, 0⟩

/-- `SetFork`. -/
def MultiSlotState.setFork (s : MultiSlotState) (fork : ForkState) : MultiSlotState :=
  { s with fork }

/-- `ForkVersion`. -/
def MultiSlotState.forkVersion (s : MultiSlotState) (slot : UInt64) : ForkVersion :=
  s.fork.version slot

/-- The state after the answer of the beacon node, and the error that is returned. -/
def initForkEpoch (cfg : ForkConfig) (s : MultiSlotState)
    (getForkSchedule : Except GoError (List ScheduledFork)) : MultiSlotState × Option GoError :=
  match getForkSchedule with
  | .error err => (s, some (.wrap ("failed to get fork: " ++ err.error) err))
  | .ok data => (s.setFork (forkStateOf cfg data), none)

/-! ### What the schedule says -/

section Spec

variable (cfg : ForkConfig) (data : List ScheduledFork)

/-- **The active fork at an epoch**: that of the last entry with a configured version that has
begun by then. -/
def activeFork (epoch : ℕ) : ForkVersion :=
  match (data.filter fun f =>
      cfg.forkOf f.currentVersion ≠ .unknown ∧ f.epoch.toNat ≤ epoch).getLast? with
  | some f => cfg.forkOf f.currentVersion
  | none => .unknown

/-- The schedule has the fork `v` begin at `start`. -/
def ScheduledAt (v : ForkVersion) (start : UInt64) : Prop :=
  ∃ f ∈ data, cfg.forkOf f.currentVersion = v ∧ f.epoch = start

/-- The fork has begun, and not at genesis. -/
def Begun (epoch : ℕ) (v : ForkVersion) : Prop :=
  ∃ start, ScheduledAt cfg data v start ∧ start ≠ 0 ∧ start.toNat ≤ epoch

/-- The fork is scheduled for later. -/
def Ahead (epoch : ℕ) (v : ForkVersion) : Prop :=
  ∃ start, ScheduledAt cfg data v start ∧ epoch < start.toNat

/-- **The three epochs tell the active fork.**  A slot of Capella or Bellatrix needs a beginning
after genesis, and one of Altair that Bellatrix is still to come; Capella, once begun, hides the
other two; and Altair is scheduled if Bellatrix is to come while no fork is active. -/
def Told (epoch : ℕ) : Prop :=
  match activeFork cfg data epoch with
  | .capella => Begun cfg data epoch .capella
  | .bellatrix => Begun cfg data epoch .bellatrix ∧ ¬Begun cfg data epoch .capella
  | .altair => Ahead cfg data epoch .bellatrix ∧ ¬Begun cfg data epoch .capella
  | .unknown => Ahead cfg data epoch .bellatrix → Ahead cfg data epoch .altair

end Spec

/-! ### The loop -/

/-- The epoch that is kept for a fork. -/
def ForkState.epochOf (fs : ForkState) : ForkVersion → UInt64
  | .altair => fs.altairEpoch
  | .bellatrix => fs.bellatrixEpoch
  | .capella => fs.capellaEpoch
  | .unknown => 0

section Loop

variable {cfg : ForkConfig} {data : List ScheduledFork} {v : ForkVersion}

theorem epochOf_schedule (fs : ForkState) (f : ScheduledFork) (hv : v ≠ .unknown) :
    (fs.schedule cfg f).epochOf v =
      if cfg.forkOf f.currentVersion = v then f.epoch else fs.epochOf v := by
  unfold ForkState.schedule
  cases hf : cfg.forkOf f.currentVersion <;> cases v <;> simp [ForkState.epochOf] at hv ⊢

/-- **The loop keeps the epoch of the last entry of each fork**, and zero without one. -/
theorem epochOf_forkStateOf (hv : v ≠ .unknown) :
    (forkStateOf cfg data).epochOf v =
      (KeyedLog.lastWrite (fun f => cfg.forkOf f.currentVersion) v data).elim 0
        ScheduledFork.epoch := by
  induction data using List.reverseRecOn with
  | nil => cases v <;> rfl
  | append_singleton data f ih =>
      have hstep : forkStateOf cfg (data ++ [f]) = (forkStateOf cfg data).schedule cfg f := by
        simp only [forkStateOf, List.foldl_append, List.foldl_cons, List.foldl_nil]
      rw [hstep, epochOf_schedule _ _ hv, KeyedLog.lastWrite_concat]
      split
      · rfl
      · exact ih

/-- A version takes the case of one fork only. -/
theorem ForkConfig.forkOf_inj {w w' : String} (hv : v ≠ .unknown) (h : cfg.forkOf w = v)
    (h' : cfg.forkOf w' = v) : w = w' := by
  subst h
  unfold forkOf at h' hv
  grind

/-- **With distinct versions each fork has one entry**, whose epoch is the one kept. -/
theorem ScheduledAt.epochOf_eq {start : UInt64} (hdistinct : (data.map (·.currentVersion)).Nodup)
    (hv : v ≠ .unknown) (h : ScheduledAt cfg data v start) :
    (forkStateOf cfg data).epochOf v = start := by
  obtain ⟨f, hf, hfork, rfl⟩ := h
  obtain ⟨g, hg⟩ := KeyedLog.exists_lastWrite (fun f => cfg.forkOf f.currentVersion) hf hfork
  obtain ⟨hmem, hgfork⟩ := KeyedLog.mem_of_lastWrite _ hg
  have hgf : g = f := List.inj_on_of_nodup_map hdistinct hmem hf
    (ForkConfig.forkOf_inj hv hgfork hfork)
  rw [epochOf_forkStateOf hv, hg, hgf]
  rfl

/-- An epoch that is not zero comes from the schedule. -/
theorem scheduledAt_of_ne_zero (hv : v ≠ .unknown) (h : (forkStateOf cfg data).epochOf v ≠ 0) :
    ScheduledAt cfg data v ((forkStateOf cfg data).epochOf v) := by
  rw [epochOf_forkStateOf hv] at h ⊢
  cases hw : KeyedLog.lastWrite (fun f => cfg.forkOf f.currentVersion) v data with
  | none =>
      rw [hw] at h
      exact absurd rfl h
  | some f =>
      obtain ⟨hmem, hfork⟩ := KeyedLog.mem_of_lastWrite _ hw
      exact ⟨f, hmem, hfork, rfl⟩

end Loop

/-! ### The active fork -/

section Active

variable {cfg : ForkConfig} {data : List ScheduledFork} {v : ForkVersion} {e : ℕ}

theorem scheduledAt_of_activeFork (h : activeFork cfg data e = v) (hv : v ≠ .unknown) :
    ∃ start, ScheduledAt cfg data v start ∧ start.toNat ≤ e := by
  unfold activeFork at h
  split at h
  · next f hf =>
      have hmem := List.mem_of_getLast? hf
      rw [List.mem_filter, decide_eq_true_iff] at hmem
      exact ⟨f.epoch, ⟨f, hmem.1, h, rfl⟩, hmem.2.2⟩
  · exact absurd h.symm hv

/-- Without an active fork every fork is still to come. -/
theorem lt_of_activeFork_unknown {start : UInt64} (h : activeFork cfg data e = .unknown)
    (hv : v ≠ .unknown) (hstart : ScheduledAt cfg data v start) : e < start.toNat := by
  obtain ⟨f, hf, hfork, rfl⟩ := hstart
  by_contra hle
  unfold activeFork at h
  split at h
  · next g hg =>
      have hmem := List.mem_of_getLast? hg
      rw [List.mem_filter, decide_eq_true_iff] at hmem
      exact hmem.2.1 h
  · next hnone =>
      rw [List.getLast?_eq_none_iff, List.filter_eq_nil_iff] at hnone
      exact hnone f hf (by simpa [hfork, hv] using Nat.le_of_not_lt hle)

variable (cfg e) (hdistinct : (data.map (·.currentVersion)).Nodup) (hv : v ≠ .unknown)
include hdistinct hv

theorem begun_iff : Begun cfg data e v ↔
    0 < ((forkStateOf cfg data).epochOf v).toNat ∧
      ((forkStateOf cfg data).epochOf v).toNat ≤ e := by
  rw [← UInt64.toNat_zero, ← UInt64.lt_iff_toNat_lt, UInt64.pos_iff_ne_zero]
  constructor
  · rintro ⟨start, hat, hne, hle⟩
    rw [hat.epochOf_eq hdistinct hv]
    exact ⟨hne, hle⟩
  · rintro ⟨hne, hle⟩
    exact ⟨_, scheduledAt_of_ne_zero hv hne, hne, hle⟩

theorem ahead_iff : Ahead cfg data e v ↔
    e < ((forkStateOf cfg data).epochOf v).toNat := by
  constructor
  · rintro ⟨start, hat, hlt⟩
    rwa [hat.epochOf_eq hdistinct hv]
  · intro hlt
    refine ⟨_, scheduledAt_of_ne_zero hv fun hzero => ?_, hlt⟩
    rw [hzero] at hlt
    exact absurd hlt (Nat.not_lt_zero e)

end Active

/-! ### The fork of a slot -/

/-- **The fork of a slot.**  After `initForkEpoch` with a schedule of distinct versions, the fork
of a slot is the active one exactly if the three epochs tell it. -/
theorem forkVersion_iff (cfg : ForkConfig) (s : MultiSlotState) (data : List ScheduledFork)
    (hdistinct : (data.map (·.currentVersion)).Nodup) (slot : UInt64) :
    (initForkEpoch cfg s (.ok data)).1.forkVersion slot = activeFork cfg data (slot.toNat / 32) ↔
      Told cfg data (slot.toNat / 32) := by
  have hversion : (initForkEpoch cfg s (.ok data)).1.forkVersion slot =
      (forkStateOf cfg data).version slot := rfl
  have hcap := begun_iff cfg (slot.toNat / 32) hdistinct (v := .capella) (by simp)
  have hbel := begun_iff cfg (slot.toNat / 32) hdistinct (v := .bellatrix) (by simp)
  have hbel' := ahead_iff cfg (slot.toNat / 32) hdistinct (v := .bellatrix) (by simp)
  have halt' := ahead_iff cfg (slot.toNat / 32) hdistinct (v := .altair) (by simp)
  simp only [ForkState.epochOf] at hcap hbel hbel' halt'
  rw [hversion, Told]
  cases hactive : activeFork cfg data (slot.toNat / 32) with
  | capella =>
      dsimp only
      rw [ForkState.version_eq_capella_iff, hcap]
  | bellatrix =>
      dsimp only
      rw [ForkState.version_eq_bellatrix_iff, hcap, hbel]
      omega
  | altair =>
      obtain ⟨start, hat, hle⟩ := scheduledAt_of_activeFork hactive (by simp)
      have hstart : (forkStateOf cfg data).altairEpoch = start :=
        hat.epochOf_eq hdistinct (by simp)
      dsimp only
      rw [ForkState.version_eq_altair_iff, hcap, hbel', hstart]
      omega
  | unknown =>
      have hnone : ∀ v ≠ .unknown, ¬Begun cfg data (slot.toNat / 32) v := by
        rintro v hv ⟨start, hat, -, hle⟩
        exact absurd (lt_of_activeFork_unknown hactive hv hat) (Nat.not_lt.2 hle)
      have hnocap := mt hcap.2 (hnone .capella (by simp))
      have hnobel := mt hbel.2 (hnone .bellatrix (by simp))
      have hother : (forkStateOf cfg data).version slot = .unknown ↔
          (forkStateOf cfg data).version slot ≠ .capella ∧
          (forkStateOf cfg data).version slot ≠ .bellatrix ∧
          (forkStateOf cfg data).version slot ≠ .altair := by
        cases (forkStateOf cfg data).version slot <;> simp
      dsimp only
      rw [hother, ne_eq, ne_eq, ne_eq, ForkState.version_eq_capella_iff,
        ForkState.version_eq_bellatrix_iff, ForkState.version_eq_altair_iff, hbel', halt']
      omega

/-- Mainnet: Altair, Bellatrix and Capella begin one after the other. -/
def mainnet : List ScheduledFork :=
  [⟨"0x00000000", 0⟩, ⟨"0x01000000", 74240⟩, ⟨"0x02000000", 144896⟩, ⟨"0x03000000", 194048⟩]

/-- With all three versions configured, the first slot of Capella on mainnet is one of Capella. -/
theorem forkVersion_mainnet :
    (mainnet.map (·.currentVersion)).Nodup ∧
    Told ⟨"0x01000000", "0x02000000", "0x03000000"⟩ mainnet 194048 ∧
    (initForkEpoch ⟨"0x01000000", "0x02000000", "0x03000000"⟩ (.new default)
      (.ok mainnet)).1.forkVersion 6209536 = .capella :=
  ⟨by decide +kernel,
    (forkVersion_iff ⟨"0x01000000", "0x02000000", "0x03000000"⟩ (.new default) mainnet
      (by decide +kernel) 6209536).1 (by decide +kernel),
    by decide +kernel⟩

/-- **Three schedules whose epochs do not tell the active fork**: all forks begin at genesis, and
the first slot has no fork; Altair is the only fork, and none of its slots is one of Altair; and
the configuration that is built at the start, which has no version of Altair, takes the slots
before Bellatrix for slots of Altair. -/
theorem forkVersion_wrong :
    let s := MultiSlotState.new default
    let cfg : ForkConfig := ⟨"0x01000000", "0x02000000", "0x03000000"⟩
    let genesis : List ScheduledFork :=
      [⟨"0x01000000", 0⟩, ⟨"0x02000000", 0⟩, ⟨"0x03000000", 0⟩]
    let altair : List ScheduledFork := [⟨"0x00000000", 0⟩, ⟨"0x01000000", 5⟩]
    (∀ data ∈ [genesis, altair, mainnet],
      (data.map (·.currentVersion)).Nodup ∧ data.Pairwise fun f g => f.epoch ≤ g.epoch) ∧
    (activeFork cfg genesis 0 = .capella ∧
      (initForkEpoch cfg s (.ok genesis)).1.forkVersion 0 = .unknown) ∧
    (activeFork cfg altair 5 = .altair ∧
      (initForkEpoch cfg s (.ok altair)).1.forkVersion 160 = .unknown) ∧
    (activeFork { cfg with altairForkVersion := "" } mainnet 0 = .unknown ∧
      (initForkEpoch { cfg with altairForkVersion := "" } s
        (.ok mainnet)).1.forkVersion 0 = .altair) := by
  decide +kernel

end Dreamboat
