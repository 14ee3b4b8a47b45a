/-
**The registration behind a submission.**

`checkRegistration` looks for the registration of the proposer of a submission, compares the fee
recipients and hands the gas limit on.  It asks the cache first.  An entry that has lasted too long
is removed from the cache, where *too long* is a random time between one and two times the limit of
the configuration; but the call that removes it still goes by it.  Only the next call asks the
store.

So an entry may be used at any age, once.  This module says exactly when the registration a call
goes by is one that it may go by, and connects the call with the system of `RegistrationCache`, in
which other calls and the workers run in between.

Main definitions:

* `Registrations.checkRegistration` — the call, with the registration it goes by;
* `Registrations.Source.Fresh` — the registration was stored a moment ago, or is a cached one of
  less than twice the limit.

Main results:

* `Registrations.checkRegistration_cases` — what a call that succeeds goes by;
* `Registrations.exists_run_of_checkRegistration` — the call is a run of the system;
* `Registrations.goesByFresh_iff` — **a call that succeeds goes by a fresh registration exactly if
  no older entry with the right fee recipient is cached**.
-/

import Mathlib.Algebra.Group.Nat.Defs
import Dreamboat.RegistrationCache

set_option autoImplicit false

namespace Dreamboat

namespace Registrations

/-! ### The call -/

/-- The registration that a call takes the gas limit from. -/
inductive Source where
  | cache (v : ValidatorCacheEntry)
  | store (reg : SignedValidatorRegistration)
  deriving DecidableEq

def Source.registration : Source → SignedValidatorRegistration
  | .cache v => v.entry
  | .store reg => reg

/-- What is around a call: the limit, the cache, the answer of the store, the time at which the
cache is asked and the one at which it is filled. -/
structure Surroundings where
  ttl : ℕ
  cache : Go.Map PublicKey ValidatorCacheEntry
  getRegistration : PublicKey → Except GoError SignedValidatorRegistration
  now : ℤ
  later : ℤ

variable (env : Surroundings) (pubkey : PublicKey) (proposerFeeRecipient : Address)

/-- The second half of the call, which goes by the answer of the store and fills the cache. -/
def checkStored (cache : Go.Map PublicKey ValidatorCacheEntry) (later : ℤ) :
    Except GoError SignedValidatorRegistration →
      Go.Map PublicKey ValidatorCacheEntry × Except GoError (UInt64 × Source)
  | .error err => (cache, .error (.wrap ("fail to check registration: " ++ err.error) err))
  | .ok reg =>
      if reg.message.feeRecipient ≠ proposerFeeRecipient then
        (cache, .error (.sentinel .errWrongFeeRecipient))
      else (cache.insert pubkey ⟨later, reg⟩, .ok (reg.message.gasLimit, .store reg))

/-- `checkRegistration`: the cache after the call, and the gas limit together with the registration
it is taken from.  `none` stands for a number that `rand.Intn` does not draw; without a limit it
draws none and panics. -/
def checkRegistration (draw : ℕ) :
    Option (Go.Map PublicKey ValidatorCacheEntry × Except GoError (UInt64 × Source)) :=
  match env.cache.lookup pubkey with
  | none => some (checkStored pubkey proposerFeeRecipient env.cache env.later
      (env.getRegistration pubkey))
  | some v =>
      if draw < env.ttl then
        let cache := if expired env.ttl env.now draw v then env.cache.erase pubkey else env.cache
        if v.entry.message.feeRecipient = proposerFeeRecipient then
          some (cache, .ok (v.entry.message.gasLimit, .cache v))
        else some (checkStored pubkey proposerFeeRecipient cache env.later
          (env.getRegistration pubkey))
      else none

/-! ### What a call goes by -/

/-- The registration is the one that the store has returned, or a cached one that is younger than
twice the limit. -/
def Source.Fresh : Source → Prop
  | .store reg => env.getRegistration pubkey = .ok reg
  | .cache v => env.cache.lookup pubkey = some v ∧ env.now - v.time < 2 * env.ttl

/-- What a call that succeeds goes by. -/
structure GoesByFresh (gasLimit : UInt64) (source : Source) : Prop where
  feeRecipient : source.registration.message.feeRecipient = proposerFeeRecipient
  gasLimit : source.registration.message.gasLimit = gasLimit
  fresh : source.Fresh env pubkey

variable {env pubkey proposerFeeRecipient} {draw : ℕ}
  {cache cache' : Go.Map PublicKey ValidatorCacheEntry} {gasLimit : UInt64} {source : Source}

theorem goesByFresh_of_checkStored
    (h : checkStored pubkey proposerFeeRecipient cache env.later (env.getRegistration pubkey) =
      (cache', .ok (gasLimit, source))) :
    GoesByFresh env pubkey proposerFeeRecipient gasLimit source := by
  cases hanswer : env.getRegistration pubkey with
  | error err =>
      rw [hanswer] at h
      cases h
  | ok reg =>
      rw [hanswer, checkStored] at h
      split at h
      · cases h
      · next hfee =>
          cases h
          exact ⟨not_not.1 hfee, rfl, hanswer⟩

/-- **What a call that succeeds goes by**: a cached entry with the right fee recipient, of any age,
or what the store has. -/
theorem checkRegistration_cases
    (h : checkRegistration env pubkey proposerFeeRecipient draw =
      some (cache', .ok (gasLimit, source))) :
    (∃ v, source = .cache v ∧ draw < env.ttl ∧ env.cache.lookup pubkey = some v ∧
      v.entry.message.feeRecipient = proposerFeeRecipient ∧ v.entry.message.gasLimit = gasLimit) ∨
    GoesByFresh env pubkey proposerFeeRecipient gasLimit source := by
  unfold checkRegistration at h
  split at h
  · exact Or.inr (goesByFresh_of_checkStored (Option.some_inj.1 h))
  · next v hv =>
      split at h
      · next hdraw =>
          dsimp only at h
          split at h
          · next hfee =>
              cases h
              exact Or.inl ⟨v, rfl, hdraw, hv, hfee, rfl⟩
          · exact Or.inr (goesByFresh_of_checkStored (Option.some_inj.1 h))
      · cases h

/-- **The registration behind a submission.**  Whatever `rand.Intn` draws, a call that succeeds
goes by a registration with the right fee recipient that the store has returned or that has been in
the cache for less than twice the limit, exactly if the cache has no older entry with this fee
recipient. -/
theorem goesByFresh_iff (env : Surroundings) (pubkey : PublicKey)
    (proposerFeeRecipient : Address) :
    (∀ draw cache' gasLimit source,
      checkRegistration env pubkey proposerFeeRecipient draw =
        some (cache', .ok (gasLimit, source)) →
      GoesByFresh env pubkey proposerFeeRecipient gasLimit source) ↔
    ∀ v, env.cache.lookup pubkey = some v →
      v.entry.message.feeRecipient = proposerFeeRecipient → 0 < env.ttl →
      env.now - v.time < 2 * env.ttl := by
  constructor
  · intro h v hv hfee httl
    have hcall : checkRegistration env pubkey proposerFeeRecipient 0 =
        some (if expired env.ttl env.now 0 v then env.cache.erase pubkey else env.cache,
          .ok (v.entry.message.gasLimit, .cache v)) := by
      simp only [checkRegistration, hv, if_pos httl, if_pos hfee]
    exact (h 0 _ _ _ hcall).fresh.2
  · intro h draw cache' gasLimit source hcall
    rcases checkRegistration_cases hcall with ⟨v, rfl, hdraw, hv, hfee, hgas⟩ | hfresh
    · exact ⟨hfee, hgas, hv, h v hv hfee (Nat.zero_lt_of_lt hdraw)⟩
    · exact hfresh

/-- **An old registration is used once more.**  The entry has been in the cache for ten times the
limit, an hour, and the proposer has registered another fee recipient since.  Whatever is drawn,
the call removes the entry and still succeeds by it. -/
theorem checkRegistration_old_entry :
    let hour : ℕ := 3600 * 10 ^ 9
    let old : SignedValidatorRegistration := ⟨⟨default, 30000000, 1, default⟩, default⟩
    let new : SignedValidatorRegistration :=
      ⟨⟨Vector.replicate 20 1, 30000000, 2, default⟩, default⟩
    let env : Surroundings := ⟨hour, (∅ : Go.Map _ _).insert default ⟨0, old⟩, fun _ => .ok new,
      10 * hour, 10 * hour⟩
    ∀ draw < hour, checkRegistration env default default draw =
      some (env.cache.erase default, .ok (30000000, .cache ⟨0, old⟩)) := by
  intro hour old new env draw hdraw
  have hexpired : expired env.ttl env.now draw ⟨0, old⟩ = true := by
    simp only [expired, env, hour, decide_eq_true_eq]
    omega
  have hlookup : env.cache.lookup default = some ⟨0, old⟩ := AList.lookup_insert _
  simp only [checkRegistration, hlookup, hexpired, if_true, if_pos (show draw < env.ttl from hdraw)]
  rfl

/-! ### The call in the system -/

section Run

variable {ttl : ℕ} {s : State} {now later : ℤ} {pk : PublicKey} {fee : Address}

/-- The state with one more call of `checkRegistration`. -/
def State.withCheck (s : State) (pk : PublicKey) (fee : Address) (stage : CheckStage) : State :=
  { s with checks := s.checks ++ [⟨pk, fee, stage⟩] }

/-- From the question to the store on. -/
theorem exists_run_of_checkStored {result : Except GoError (UInt64 × Source)}
    (h : checkStored pk fee s.cache later (s.store.getRegistration pk) = (cache', result)) :
    ∃ actions, Runs.run (step ttl) (s.withCheck pk fee .missed) actions =
      some ({ s with cache := cache' }.withCheck pk fee (.done (result.map Prod.fst))) := by
  have hstore : step ttl (s.withCheck pk fee .missed) (.checkStore s.checks.length) =
      some { s with checks := s.checks ++
        [Check.afterStore ⟨pk, fee, .missed⟩ (s.store.getRegistration pk)] } := by
    simp [step, State.withCheck]
  cases hanswer : s.store.getRegistration pk with
  | error err =>
      rw [hanswer] at h hstore
      cases h
      exact ⟨[.checkStore s.checks.length], Runs.run_cons_of_step _ hstore _⟩
  | ok reg =>
      rw [hanswer] at h hstore
      by_cases hfee : reg.message.feeRecipient = fee
      · rw [checkStored, if_neg (not_not.2 hfee)] at h
        cases h
        refine ⟨[.checkStore s.checks.length, .checkAdd s.checks.length later], ?_⟩
        rw [Runs.run_cons_of_step _ hstore]
        simp [Runs.run_cons, step, Check.afterStore, hfee, State.withCheck, Except.map]
      · rw [checkStored, if_pos hfee] at h
        cases h
        refine ⟨[.checkStore s.checks.length], ?_⟩
        rw [Runs.run_cons_of_step _ hstore]
        simp [Check.afterStore, hfee, State.withCheck, Except.map]

/-- **The call is a run of the system**, in which no other step comes in between. -/
theorem exists_run_of_checkRegistration {result : Except GoError (UInt64 × Source)}
    (h : checkRegistration ⟨ttl, s.cache, s.store.getRegistration, now, later⟩ pk fee draw =
      some (cache', result)) :
    ∃ actions, Runs.run (step ttl) s actions =
      some ({ s with cache := cache' }.withCheck pk fee (.done (result.map Prod.fst))) := by
  have hcheck : step ttl s (.check pk fee) = some (s.withCheck pk fee .called) := rfl
  simp only [checkRegistration] at h
  split at h
  · next hnone =>
      have hcache : step ttl (s.withCheck pk fee .called) (.checkCache s.checks.length now draw) =
          some (s.withCheck pk fee .missed) := by
        simp [step, State.withCheck, Check.afterCache, hnone]
      obtain ⟨actions, hrun⟩ := exists_run_of_checkStored (Option.some_inj.1 h)
      refine ⟨.check pk fee :: .checkCache s.checks.length now draw :: actions, ?_⟩
      rw [Runs.run_cons_of_step _ hcheck, Runs.run_cons_of_step _ hcache, hrun]
  · next v hv =>
      by_cases hdraw : draw < ttl
      · have hcache : step ttl (s.withCheck pk fee .called)
            (.checkCache s.checks.length now draw) =
              some (s.withCheck pk fee (.hit v (expired ttl now draw v))) := by
          simp [step, State.withCheck, Check.afterCache, hv, hdraw]
        -- the entry is removed if it has lasted too long, and then compared
        let s' : State := { s with
          cache := if expired ttl now draw v then s.cache.erase pk else s.cache }
        let c : Check := ⟨pk, fee, .hit v (expired ttl now draw v)⟩
        have hhit : step ttl (s.withCheck pk fee c.stage) (.checkHit s.checks.length) =
            some { s' with checks := s.checks ++ [c.afterHit v] } := by
          simp [step, State.withCheck, s', c]
        rw [if_pos hdraw] at h
        by_cases hfee : v.entry.message.feeRecipient = fee
        · rw [if_pos hfee] at h
          cases h
          refine ⟨[.check pk fee, .checkCache s.checks.length now draw,
            .checkHit s.checks.length], ?_⟩
          rw [Runs.run_cons_of_step _ hcheck, Runs.run_cons_of_step _ hcache,
            Runs.run_cons_of_step _ hhit]
          simp [Check.afterHit, hfee, State.withCheck, s', c, Except.map]
        · rw [if_neg hfee] at h
          obtain ⟨actions, hrun⟩ := exists_run_of_checkStored (s := s') (Option.some_inj.1 h)
          refine ⟨.check pk fee :: .checkCache s.checks.length now draw ::
            .checkHit s.checks.length :: actions, ?_⟩
          rw [Runs.run_cons_of_step _ hcheck, Runs.run_cons_of_step _ hcache,
            Runs.run_cons_of_step _ hhit, Check.afterHit, if_neg hfee]
          exact hrun
      · rw [if_neg hdraw] at h
        cases h

end Run

end Registrations

end Dreamboat
