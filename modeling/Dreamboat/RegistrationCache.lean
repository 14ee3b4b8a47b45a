/-
**The cache in front of the registrations.**

Workers hand registrations to the store and then, in a second step, to the cache.  The store keeps
a newer registration that it has; the cache takes whatever comes.  Readers trust the cache first:
`checkRegistration`, which also fills it from the store, and the proposer duties.  So an old
registration that is sent again leaves the store as it is and goes into the cache.

This module says exactly when the cache stays behind the store: the cache is never older than the
store, in all the states of a run, if and only if no step stores a registration that is newer than
the cached one and no step caches a registration that is older than the stored one.  The first part
concerns only the moment between the two steps of a worker: in the states in which no worker is
between them, the second part is enough.

Main definitions:

* `Registrations.State`, `Registrations.Action`, `Registrations.step` — the store, the cache, the
  workers and the calls of `checkRegistration`;
* `Registrations.NotOlder` — the cache is not older than the store;
* `Registrations.StoresCached`, `Registrations.CachesCurrent` — the two conditions.

Main results:

* `Registrations.notOlder_iff` — **when the cache is never older than the store**.
-/

import Dreamboat.Runs
import Dreamboat.ValidatorStore

set_option autoImplicit false

namespace Dreamboat

namespace Registrations

/-! ### The system -/

/-- A worker with the registrations it is to store; or it has stored one, and the entry goes into
the cache next. -/
inductive Worker where
  | running (items : List SignedValidatorRegistration)
  | adding (v : ValidatorCacheEntry) (items : List SignedValidatorRegistration)

/-- The registration that is stored and not yet cached. -/
def Worker.stored : Worker → Option SignedValidatorRegistration
  | .running _ => none
  | .adding v _ => some v.entry

/-- How far a call of `checkRegistration` is. -/
inductive CheckStage where
  | called
  /-- The cache has an entry. -/
  | hit (v : ValidatorCacheEntry) (expired : Bool)
  /-- The store is asked next. -/
  | missed
  /-- The store has a registration with the right fee recipient. -/
  | found (reg : SignedValidatorRegistration)
  | done (result : Except GoError UInt64)
  deriving DecidableEq

structure Check where
  pubkey : PublicKey
  feeRecipient : Address
  stage : CheckStage

structure State where
  store : Datastore
  cache : Go.Map PublicKey ValidatorCacheEntry
  workers : List Worker
  checks : List Check

/-- The store may have registrations from before; the cache is empty. -/
def State.init (store : Datastore) (workers : ℕ) : State :=
  ⟨store, ∅, List.replicate workers (.running []), []⟩

inductive Action where
  /-- An idle worker takes a batch. -/
  | storeRegistration (w : ℕ) (items : List SignedValidatorRegistration)
  /-- It hands the next registration to the store. -/
  | put (w : ℕ) (now : ℤ)
  /-- It hands that registration to the cache. -/
  | add (w : ℕ)
  /-- The cache drops an entry to make room. -/
  | evict (pk : PublicKey)
  /-- The store drops a key. -/
  | expireTime (pk : PublicKey)
  | expireRegistration (pk : PublicKey)
  /-- `checkRegistration` is called. -/
  | check (pk : PublicKey) (feeRecipient : Address)
  /-- It asks the cache; `draw` is the random part of the time an entry lasts. -/
  | checkCache (k : ℕ) (now : ℤ) (draw : ℕ)
  /-- It removes an entry that has lasted too long, and compares the fee recipients. -/
  | checkHit (k : ℕ)
  /-- It asks the store. -/
  | checkStore (k : ℕ)
  /-- It fills the cache. -/
  | checkAdd (k : ℕ) (now : ℤ)

variable (ttl : ℕ)

/-- The entry has lasted too long. -/
def expired (now : ℤ) (draw : ℕ) (v : ValidatorCacheEntry) : Bool := draw + ttl < now - v.time

/-- A call of `checkRegistration` after the question to the cache. -/
def Check.afterCache (c : Check) (now : ℤ) (draw : ℕ) (cached : Option ValidatorCacheEntry) :
    Option Check :=
  match cached with
  | none => some { c with stage := .missed }
  | some v =>
      -- `rand.Intn` draws below its argument
      if draw < ttl then some { c with stage := .hit v (expired ttl now draw v) } else none

/-- A call of `checkRegistration` after the comparison with the cached entry. -/
def Check.afterHit (c : Check) (v : ValidatorCacheEntry) : Check :=
  if v.entry.message.feeRecipient = c.feeRecipient then
    { c with stage := .done (.ok v.entry.message.gasLimit) }
  else { c with stage := .missed }

/-- A call of `checkRegistration` after the question to the store. -/
def Check.afterStore (c : Check) : Except GoError SignedValidatorRegistration → Check
  | .error err =>
      { c with stage := .done (.error (.wrap ("fail to check registration: " ++ err.error) err)) }
  | .ok reg =>
      if reg.message.feeRecipient = c.feeRecipient then { c with stage := .found reg }
      else { c with stage := .done (.error (.sentinel .errWrongFeeRecipient)) }

def step (s : State) : Action → Option State
  | .storeRegistration w items =>
      match s.workers[w]? with
      | some (.running []) => some { s with workers := s.workers.set w (.running items) }
      | _ => none
  | .put w now =>
      match s.workers[w]? with
      | some (.running (reg :: items)) =>
          some { s with
            store := s.store.putNewerRegistration reg.pubkey reg
            workers := s.workers.set w (.adding ⟨now, reg⟩ items) }
      | _ => none
  | .add w =>
      match s.workers[w]? with
      | some (.adding v items) =>
          some { s with
            cache := s.cache.insert v.entry.pubkey v
            workers := s.workers.set w (.running items) }
      | _ => none
  | .evict pk => some { s with cache := s.cache.erase pk }
  | .expireTime pk => some { s with store := s.store.expireTime pk }
  | .expireRegistration pk => some { s with store := s.store.expireRegistration pk }
  | .check pk feeRecipient => some { s with checks := s.checks ++ [⟨pk, feeRecipient, .called⟩] }
  | .checkCache k now draw => do
      let c ← s.checks[k]?
      match c.stage with
      | .called => do
          let c' ← c.afterCache ttl now draw (s.cache.lookup c.pubkey)
          return { s with checks := s.checks.set k c' }
      | _ => none
  | .checkHit k => do
      let c ← s.checks[k]?
      match c.stage with
      | .hit v expired =>
          return { s with
            cache := if expired then s.cache.erase c.pubkey else s.cache
            checks := s.checks.set k (c.afterHit v) }
      | _ => none
  | .checkStore k => do
      let c ← s.checks[k]?
      match c.stage with
      | .missed =>
          return { s with
            checks := s.checks.set k (c.afterStore (s.store.getRegistration c.pubkey)) }
      | _ => none
  | .checkAdd k now => do
      let c ← s.checks[k]?
      match c.stage with
      | .found reg =>
          return { s with
            cache := s.cache.insert c.pubkey ⟨now, reg⟩
            checks := s.checks.set k { c with stage := .done (.ok reg.message.gasLimit) } }
      | _ => none

/-- The registration of a proposer that `storeProposerDuties` publishes. -/
def State.dutyRegistration (s : State) (pk : PublicKey) :
    Except GoError SignedValidatorRegistration :=
  match s.cache.lookup pk with
  | some v => .ok v.entry
  | none => s.store.getRegistration pk

/-! ### The property and the conditions -/

/-- The cache is not older than the store: neither the entry that `checkRegistration` finds in it,
nor the registration that goes into the proposer duties. -/
structure NotOlder (s : State) : Prop where
  cached : ∀ pk v reg, s.cache.lookup pk = some v → s.store.registrations.lookup pk = some reg →
    reg.timestamp ≤ v.entry.timestamp
  duty : ∀ pk used reg, s.dutyRegistration pk = .ok used →
    s.store.registrations.lookup pk = some reg → reg.timestamp ≤ used.timestamp

theorem notOlder_of_cached {s : State} (h : ∀ pk v reg, s.cache.lookup pk = some v →
    s.store.registrations.lookup pk = some reg → reg.timestamp ≤ v.entry.timestamp) :
    NotOlder s := by
  refine ⟨h, fun pk used reg hused hreg => ?_⟩
  unfold State.dutyRegistration at hused
  split at hused
  · next v hv =>
      cases hused
      exact h pk v reg hv hreg
  · -- without an entry the registration is the stored one
    rw [Datastore.getRegistration_eq_ok_iff, hreg, Option.some_inj] at hused
    rw [hused]
    exact UInt64.le_refl _

/-- The registration that a step stores. -/
def State.puts (s : State) : Action → Option SignedValidatorRegistration
  | .put w _ =>
      match s.workers[w]? with
      | some (.running (reg :: _)) => if s.store.hasNewer reg.pubkey reg then none else some reg
      | _ => none
  | _ => none

/-- The registration that a step caches, and for whom. -/
def State.caches (s : State) : Action → Option (PublicKey × SignedValidatorRegistration)
  | .add w =>
      match s.workers[w]? with
      | some (.adding v _) => some (v.entry.pubkey, v.entry)
      | _ => none
  | .checkAdd k _ =>
      match s.checks[k]? with
      | some ⟨pk, _, .found reg⟩ => some (pk, reg)
      | _ => none
  | _ => none

/-- The first condition: what is stored is not newer than what is cached. -/
def StoresCached (s : State) (a : Action) : Prop :=
  ∀ reg ∈ s.puts a, ∀ v ∈ s.cache.lookup reg.pubkey, reg.timestamp ≤ v.entry.timestamp

/-- The second condition: what is cached is not older than what is stored. -/
def CachesCurrent (s : State) (a : Action) : Prop :=
  ∀ e ∈ s.caches a, ∀ reg ∈ s.store.registrations.lookup e.1, reg.timestamp ≤ e.2.timestamp

instance (s : State) (a : Action) : Decidable (StoresCached s a) :=
  inferInstanceAs (Decidable (∀ reg ∈ s.puts a, _))

instance (s : State) (a : Action) : Decidable (CachesCurrent s a) :=
  inferInstanceAs (Decidable (∀ e ∈ s.caches a, _))

/-- The registrations that are stored and not yet cached. -/
def State.adding (s : State) : List SignedValidatorRegistration := s.workers.filterMap Worker.stored

/-- No worker is between its two steps. -/
def Settled (s : State) : Prop := s.adding = []

instance (s : State) : Decidable (Settled s) := inferInstanceAs (Decidable (s.adding = []))

/-! ### What a step can do -/

variable {ttl} {s s' : State}

theorem mem_adding_set {w : ℕ} {worker worker' : Worker} {r : SignedValidatorRegistration}
    (hw : s.workers[w]? = some worker) (hr : r ∈ s.adding) (hne : worker.stored ≠ some r) :
    r ∈ (s.workers.set w worker').filterMap Worker.stored := by
  obtain ⟨d, hd, hdr⟩ := List.mem_filterMap.1 hr
  refine List.mem_filterMap.2 ⟨d, Runs.mem_set_of_ne hw hd ?_ worker', hdr⟩
  rintro rfl
  exact hne hdr

/-- **Everything one step can do** to the store and the cache: it stores a registration, it caches
one, or both lose entries at most. -/
theorem step_cases {a : Action} (hs : step ttl s a = some s') :
    (∃ reg, s.puts a = some reg ∧ s.caches a = none ∧ s'.cache = s.cache ∧
      (∀ pk, s'.store.registrations.lookup pk =
        if pk = reg.pubkey then some reg else s.store.registrations.lookup pk) ∧
      reg ∈ s'.adding ∧ s.adding ⊆ s'.adding) ∨
    (∃ pk v, s.puts a = none ∧ s.caches a = some (pk, v.entry) ∧ s'.store = s.store ∧
      s'.cache = s.cache.insert pk v ∧ ∀ r ∈ s.adding, r.pubkey ≠ pk → r ∈ s'.adding) ∨
    (s.puts a = none ∧ s.caches a = none ∧
      (∀ pk v, s'.cache.lookup pk = some v → s.cache.lookup pk = some v) ∧
      (∀ pk reg, s'.store.registrations.lookup pk = some reg →
        s.store.registrations.lookup pk = some reg) ∧ s.adding ⊆ s'.adding) := by
  cases a with
  | storeRegistration w items =>
      simp only [step] at hs
      split at hs
      · next hw =>
          cases hs
          refine Or.inr (Or.inr ⟨rfl, rfl, fun _ _ h => h, fun _ _ h => h, fun r hr => ?_⟩)
          exact mem_adding_set hw hr fun h => by cases h
      · cases hs
  | put w now =>
      simp only [step] at hs
      split at hs
      · next reg items hw =>
          cases hs
          have hsub : s.adding ⊆ (s.workers.set w (.adding ⟨now, reg⟩ items)).filterMap
              Worker.stored := fun r hr => mem_adding_set hw hr fun h => by cases h
          cases hnewer : s.store.hasNewer reg.pubkey reg with
          | true =>
              refine Or.inr (Or.inr ⟨?_, rfl, fun _ _ h => h, fun pk r h => ?_, hsub⟩)
              · simp [State.puts, hw, hnewer]
              · simpa [Datastore.lookup_putNewerRegistration, hnewer] using h
          | false =>
              refine Or.inl ⟨reg, ?_, rfl, rfl, fun pk => ?_, ?_, hsub⟩
              · simp [State.puts, hw, hnewer]
              · simp [Datastore.lookup_putNewerRegistration, hnewer]
              · obtain ⟨hlt, -⟩ := List.getElem?_eq_some_iff.1 hw
                exact List.mem_filterMap.2 ⟨_, List.mem_set hlt _, rfl⟩
      · cases hs
  | add w =>
      simp only [step] at hs
      split at hs
      · next v items hw =>
          cases hs
          refine Or.inr (Or.inl ⟨v.entry.pubkey, v, rfl, ?_, rfl, rfl, fun r hr hne => ?_⟩)
          · simp [State.caches, hw]
          · refine mem_adding_set hw hr fun h => hne ?_
            rw [← Option.some_inj.1 h]
      · cases hs
  | evict pk =>
      cases hs
      exact Or.inr (Or.inr ⟨rfl, rfl, fun pk' v h => (Go.lookup_erase_eq_some_iff.1 h).2,
        fun _ _ h => h, fun _ h => h⟩)
  | expireTime pk =>
      cases hs
      exact Or.inr (Or.inr ⟨rfl, rfl, fun _ _ h => h, fun _ _ h => h, fun _ h => h⟩)
  | expireRegistration pk =>
      cases hs
      exact Or.inr (Or.inr ⟨rfl, rfl, fun _ _ h => h,
        fun pk' reg h => (Go.lookup_erase_eq_some_iff.1 h).2, fun _ h => h⟩)
  | check pk feeRecipient =>
      cases hs
      exact Or.inr (Or.inr ⟨rfl, rfl, fun _ _ h => h, fun _ _ h => h, fun _ h => h⟩)
  | checkCache k now draw =>
      obtain ⟨c, -, hs⟩ := Option.bind_eq_some_iff.1 hs
      split at hs
      · obtain ⟨c', -, hs⟩ := Option.bind_eq_some_iff.1 hs
        cases hs
        exact Or.inr (Or.inr ⟨rfl, rfl, fun _ _ h => h, fun _ _ h => h, fun _ h => h⟩)
      · cases hs
  | checkHit k =>
      obtain ⟨c, -, hs⟩ := Option.bind_eq_some_iff.1 hs
      split at hs
      · next v expired hstage =>
          cases hs
          refine Or.inr (Or.inr ⟨rfl, rfl, fun pk' v' h => ?_, fun _ _ h => h, fun _ h => h⟩)
          dsimp only at h
          split at h
          · exact (Go.lookup_erase_eq_some_iff.1 h).2
          · exact h
      · cases hs
  | checkStore k =>
      obtain ⟨c, -, hs⟩ := Option.bind_eq_some_iff.1 hs
      split at hs
      · cases hs
        exact Or.inr (Or.inr ⟨rfl, rfl, fun _ _ h => h, fun _ _ h => h, fun _ h => h⟩)
      · cases hs
  | checkAdd k now =>
      obtain ⟨c, hc, hs⟩ := Option.bind_eq_some_iff.1 hs
      split at hs
      · next reg hstage =>
          cases hs
          refine Or.inr (Or.inl ⟨c.pubkey, ⟨now, reg⟩, rfl, ?_, rfl, rfl, fun r hr _ => hr⟩)
          obtain ⟨pk, feeRecipient, stage⟩ := c
          cases hstage
          simp [State.caches, hc]
      · cases hs

/-! ### Runs -/

theorem notOlder_init (store : Datastore) (workers : ℕ) : NotOlder (State.init store workers) :=
  notOlder_of_cached fun pk v reg hv => by cases hv

/-- A step makes the cache older than the store exactly if it breaks one of the conditions. -/
theorem notOlder_step_iff {a : Action} (h : NotOlder s) (hs : step ttl s a = some s') :
    NotOlder s' ↔ StoresCached s a ∧ CachesCurrent s a := by
  rcases step_cases hs with ⟨reg, hputs, hcaches, hcache, hstore, -, -⟩ |
    ⟨pk, v, hputs, hcaches, hstore, hcache, -⟩ | ⟨hputs, hcaches, hcache, hstore, -⟩
  · have htrivial : CachesCurrent s a := by
      intro e he
      rw [hcaches] at he
      cases he
    constructor
    · refine fun h' => ⟨fun reg' hreg' v hv => ?_, htrivial⟩
      rw [hputs] at hreg'
      cases hreg'
      exact h'.cached reg.pubkey v reg (hcache ▸ hv) (by rw [hstore, if_pos rfl])
    · rintro ⟨hC, -⟩
      refine notOlder_of_cached fun pk v reg' hv hreg' => ?_
      rw [hcache] at hv
      rw [hstore] at hreg'
      split at hreg'
      · next hpk =>
          cases hreg'
          exact hC reg hputs v (hpk ▸ hv)
      · exact h.cached pk v reg' hv hreg'
  · have htrivial : StoresCached s a := by
      intro reg hreg
      rw [hputs] at hreg
      cases hreg
    constructor
    · refine fun h' => ⟨htrivial, fun e he reg hreg => ?_⟩
      rw [hcaches] at he
      cases he
      refine h'.cached pk v reg ?_ (hstore ▸ hreg)
      rw [hcache, Go.lookup_insert_eq, if_pos rfl]
    · rintro ⟨-, hC⟩
      refine notOlder_of_cached fun pk' v' reg hv' hreg => ?_
      rw [hstore] at hreg
      rw [hcache, Go.lookup_insert_eq] at hv'
      split at hv'
      · next hpk =>
          cases hv'
          exact hC (pk, v.entry) hcaches reg (hpk ▸ hreg)
      · exact h.cached pk' v' reg hv' hreg
  · refine ⟨fun _ => ⟨fun reg hreg => ?_, fun e he => ?_⟩, fun _ => ?_⟩
    · rw [hputs] at hreg
      cases hreg
    · rw [hcaches] at he
      cases he
    · exact notOlder_of_cached fun pk v reg hv hreg =>
        h.cached pk v reg (hcache pk v hv) (hstore pk reg hreg)

/-- A cached entry is not older than the stored registration, or a worker is about to replace it. -/
def Covered (s : State) : Prop :=
  ∀ pk v reg, s.cache.lookup pk = some v → s.store.registrations.lookup pk = some reg →
    reg.timestamp ≤ v.entry.timestamp ∨ ∃ r ∈ s.adding, r.pubkey = pk

theorem Covered.step {a : Action} (h : Covered s) (hC : CachesCurrent s a)
    (hs : step ttl s a = some s') : Covered s' := by
  intro pk' v' reg' hv' hreg'
  rcases step_cases hs with ⟨reg, -, -, hcache, hstore, hadding, hsub⟩ |
    ⟨pk, v, -, hcaches, hstore, hcache, hsub⟩ | ⟨-, -, hcache, hstore, hsub⟩
  · rw [hcache] at hv'
    rw [hstore] at hreg'
    split at hreg'
    · next hpk => exact Or.inr ⟨reg, hadding, hpk.symm⟩
    · rcases h pk' v' reg' hv' hreg' with hle | ⟨r, hr, hpk⟩
      · exact Or.inl hle
      · exact Or.inr ⟨r, hsub hr, hpk⟩
  · rw [hstore] at hreg'
    rw [hcache, Go.lookup_insert_eq] at hv'
    split at hv'
    · next hpk =>
        cases hv'
        exact Or.inl (hC (pk, v'.entry) hcaches reg' (hpk ▸ hreg'))
    · next hne =>
        rcases h pk' v' reg' hv' hreg' with hle | ⟨r, hr, hpk⟩
        · exact Or.inl hle
        · exact Or.inr ⟨r, hsub r hr (hpk ▸ hne), hpk⟩
  · rcases h pk' v' reg' (hcache pk' v' hv') (hstore pk' reg' hreg') with hle | ⟨r, hr, hpk⟩
    · exact Or.inl hle
    · exact Or.inr ⟨r, hsub hr, hpk⟩

theorem Covered.notOlder (h : Covered s) (hsettled : Settled s) : NotOlder s := by
  refine notOlder_of_cached fun pk v reg hv hreg => ?_
  rcases h pk v reg hv hreg with hle | ⟨r, hr, -⟩
  · exact hle
  · rw [hsettled] at hr
    cases hr

/-- **When the cache is never older than the store.**  In all the states of a run it is not, if and
only if what is stored is never newer than what is cached and what is cached is never older than
what is stored.  In the states in which no worker is between its two steps, the second is enough. -/
theorem notOlder_iff (ttl : ℕ) (store : Datastore) (workers : ℕ) (as : List Action) (t : State)
    (hrun : Runs.run (step ttl) (State.init store workers) as = some t) :
    ((∀ u, Runs.Visits (step ttl) (State.init store workers) as u → NotOlder u) ↔
      Runs.Meets (step ttl) (fun s a => StoresCached s a ∧ CachesCurrent s a)
        (State.init store workers) as) ∧
    (Runs.Meets (step ttl) CachesCurrent (State.init store workers) as →
      ∀ u, Runs.Visits (step ttl) (State.init store workers) as u → Settled u → NotOlder u) := by
  constructor
  · exact Runs.forall_visits_iff_meets (step ttl) (fun _ _ _ h hs => notOlder_step_iff h hs)
      (notOlder_init store workers) hrun
  · intro hC u hu hsettled
    have hinit : Covered (State.init store workers) := fun pk v reg hv => by cases hv
    exact (Runs.visits_invariant_of_meets (step ttl) (fun _ _ _ h hC hs => h.step hC hs) hinit hC
      hu).notOlder hsettled

/-! ### An old registration, sent again -/

/-- A registration of the validator with the zero key. -/
def registration (timestamp : UInt64) (feeRecipient : Address) (gasLimit : UInt64) :
    SignedValidatorRegistration :=
  ⟨⟨feeRecipient, gasLimit, timestamp, default⟩, default⟩

/-- A worker stores and caches a registration. -/
def stores (reg : SignedValidatorRegistration) : List Action :=
  [.storeRegistration 0 [reg], .put 0 0, .add 0]

def oldRegistration : SignedValidatorRegistration := registration 1 (Vector.replicate 20 1) 30

def newRegistration : SignedValidatorRegistration := registration 2 (Vector.replicate 20 2) 40

/-- A registration that is sent again is in the cache as it is in the store. -/
theorem notOlder_iff_storedTwice :
    ∃ t, Runs.run (step 1) (State.init Datastore.empty 1)
        (stores newRegistration ++ stores newRegistration) = some t ∧
      t.dutyRegistration default = .ok newRegistration ∧ NotOlder t := by
  obtain ⟨t, ht, hduty⟩ : ∃ t, Runs.run (step 1) (State.init Datastore.empty 1)
      (stores newRegistration ++ stores newRegistration) = some t ∧
      t.dutyRegistration default = .ok newRegistration :=
    Runs.exists_run_of_any _ (by decide +kernel)
  refine ⟨t, ht, hduty, ?_⟩
  exact (notOlder_iff 1 Datastore.empty 1 _ t ht).1.2 (by decide +kernel) t
    (Runs.visits_last _ ht)

/-- A new registration is stored and the old one sent again; then `checkRegistration` is called with
the old fee recipient. -/
def replayed : List Action :=
  stores newRegistration ++ stores oldRegistration ++
    [.check default (Vector.replicate 20 1), .checkCache 0 0 0, .checkHit 0]

/-- The old registration is in the cache, in front of the new one in the store: `checkRegistration`
accepts the old fee recipient, and the duties publish it. -/
theorem older_replayed :
    ∃ t, Runs.run (step 1) (State.init Datastore.empty 1) replayed = some t ∧ Settled t ∧
      t.store.getRegistration default = .ok newRegistration ∧
      t.dutyRegistration default = .ok oldRegistration ∧
      oldRegistration.timestamp < newRegistration.timestamp ∧
      t.checks.map Check.stage = [.done (.ok 30)] :=
  Runs.exists_run_of_any _ (by decide +kernel)

end Registrations

end Dreamboat
