/-
**Waiting for tasks to finish.**

`TimeoutWaitGroup` of `src/structs/waitgroup.go` counts running tasks.  `Add` looks whether the
channel is closed and then adds to the counter, `Done` subtracts from it and closes the channel if
the counter is zero; these are separate steps.  `Close` of the relay and of the warehouse waits for
the channel, or for its context.

The counter is zero whenever all tasks that were started have finished, which may be long before
`Close` is called.  The channel is closed then, and later tasks are not counted.  A task that is
about to be counted when the counter becomes zero is counted, and closes the channel again.  The
relay starts a goroutine that calls `Add` itself (`go func` in `GetPayload`), and the warehouse
starts its workers so: a task that was started and has not called `Add` yet counts for nothing.

Main definitions:

* `TimeoutWaitGroup.Stage` — how far a task is;
* `TimeoutWaitGroup.State`, `TimeoutWaitGroup.Action`, `TimeoutWaitGroup.step` — the tasks, the
  counter and the calls of `Close`;
* `TimeoutWaitGroup.Waits` — what the group is for;
* `TimeoutWaitGroup.OneRound` — no task gets between the last `Done` and the closing, and `Close` is
  not called for tasks that are not counted.

Main results:

* `TimeoutWaitGroup.Inv.step` — what a step preserves;
* `TimeoutWaitGroup.waits_of_oneRound` — **`Close` waits for the tasks**, in every run of such
  steps;
* `TimeoutWaitGroup.closed_too_early` — runs in which it does not.
-/

import Mathlib.Data.Int.Notation
import Dreamboat.Runs

set_option autoImplicit false

namespace Dreamboat

namespace TimeoutWaitGroup

/-! ### Tasks -/

/-- How far a task is.  A task is counted unless `Add` found the channel closed. -/
inductive Stage where
  /-- The task was started and has not called `Add`. -/
  | started
  /-- `Add` has found the channel open. -/
  | adding
  /-- `Add` has returned. -/
  | running (counted : Bool)
  /-- `Done` has brought the counter to zero and is about to close the channel. -/
  | closing
  /-- `Done` has returned. -/
  | done (counted : Bool)
  deriving DecidableEq, Repr

/-- The task has called `Done`, as far as the counter. -/
def Stage.calledDone : Stage → Bool
  | .started | .adding | .running _ => false
  | .closing | .done _ => true

/-- A call of `Close`: how many tasks had been started, and whether it has returned through the
channel. -/
structure Closer where
  before : ℕ
  returned : Bool
  deriving DecidableEq, Repr

structure State where
  /-- The counter. -/
  running : ℤ
  /-- The channel `done` is closed. -/
  closed : Bool
  /-- The channel was closed a second time. -/
  panicked : Bool
  tasks : List Stage
  closers : List Closer
  deriving DecidableEq, Repr

def new : State := ⟨0, false, false, [], []⟩

inductive Action where
  /-- A task is started. -/
  | start
  /-- A task calls `Add(1)`, which looks whether the channel is closed. -/
  | add (k : ℕ)
  /-- `atomic.AddInt64(&wg.running, 1)`. -/
  | count (k : ℕ)
  /-- A task calls `Done`: `atomic.AddInt64(&wg.running, -1)`, and whether that is zero. -/
  | done (k : ℕ)
  /-- `close(wg.done)`. -/
  | close (k : ℕ)
  /-- `Close` of the relay or of the warehouse is called. -/
  | callClose
  /-- It returns through the channel. -/
  | returnClose (k : ℕ)
  deriving DecidableEq, Repr

/-- One step.  A task calls `Done` after its `Add` has returned; after a panic there is no step. -/
def step (s : State) (a : Action) : Option State :=
  if s.panicked then none
  else
    match a with
    | .start => some { s with tasks := s.tasks ++ [.started] }
    | .add k =>
        match s.tasks[k]? with
        | some .started =>
            some { s with
              tasks := s.tasks.set k (if s.closed then .running false else .adding) }
        | _ => none
    | .count k =>
        match s.tasks[k]? with
        | some .adding =>
            some { s with running := s.running + 1, tasks := s.tasks.set k (.running true) }
        | _ => none
    | .done k =>
        match s.tasks[k]? with
        | some (.running counted) =>
            let running := s.running - 1
            some { s with
              running, tasks := s.tasks.set k (if running = 0 then .closing else .done counted) }
        | _ => none
    | .close k =>
        match s.tasks[k]? with
        | some .closing =>
            if s.closed then some { s with panicked := true }
            else some { s with closed := true, tasks := s.tasks.set k (.done true) }
        | _ => none
    | .callClose => some { s with closers := s.closers ++ [⟨s.tasks.length, false⟩] }
    | .returnClose k =>
        match s.closers[k]? with
        | some closer =>
            if s.closed then
              some { s with closers := s.closers.set k { closer with returned := true } }
            else none
        | none => none

/-! ### The property and the condition -/

/-- Every task that was started has called `Done`. -/
def AllDone (tasks : List Stage) : Prop := ∀ t ∈ tasks, t.calledDone = true

instance (tasks : List Stage) : Decidable (AllDone tasks) :=
  inferInstanceAs (Decidable (∀ t ∈ tasks, _))

/-- The channel is not closed twice, it is closed only when every task that was started has called
`Done`, and `Close` returns through it only when the tasks that were started before have. -/
def Waits (s : State) : Prop :=
  s.panicked = false ∧ (Stage.closing ∈ s.tasks → AllDone s.tasks) ∧
    ∀ closer ∈ s.closers, closer.returned = true → AllDone (s.tasks.take closer.before)

instance (s : State) : Decidable (Waits s) := inferInstanceAs (Decidable (_ ∧ _ ∧ _))

/-- No task is between its start and its count when a `Done` brings the counter to zero, none is
started before the channel is closed then, and `Close` is not called while a task runs that was
started after that. -/
def OneRound (s : State) : Action → Prop
  | .start => Stage.closing ∉ s.tasks
  | .done _ => s.running = 1 → Stage.started ∉ s.tasks ∧ Stage.adding ∉ s.tasks
  | .callClose => s.closed = true → AllDone s.tasks
  | .add _ | .count _ | .close _ | .returnClose _ => True

instance (s : State) (a : Action) : Decidable (OneRound s a) :=
  match a with
  | .start => inferInstanceAs (Decidable (Stage.closing ∉ s.tasks))
  | .done _ => inferInstanceAs (Decidable (s.running = 1 → _ ∧ Stage.adding ∉ s.tasks))
  | .callClose => inferInstanceAs (Decidable (s.closed = true → AllDone s.tasks))
  | .add _ | .count _ | .close _ | .returnClose _ => isTrue trivial

/-! ### The invariant -/

/-- The task counts for the counter. -/
def Stage.counts : Stage → Bool
  | .running true => true
  | _ => false

/-- The task was not counted, and has subtracted from the counter. -/
def Stage.owes : Stage → Bool
  | .done false => true
  | _ => false

/-- What the task has added to the counter. -/
def Stage.weight (t : Stage) : ℤ := (if t.counts then 1 else 0) - if t.owes then 1 else 0

/-- A stage of a task while the channel is open. -/
def Stage.isOpen : Stage → Bool
  | .running false | .done false => false
  | _ => true

/-- A stage of a task once the channel is closed. -/
def Stage.isLate : Stage → Bool
  | .started | .running false | .done _ => true
  | _ => false

structure Inv (s : State) : Prop where
  counter : s.running = (s.tasks.countP Stage.counts : ℤ) - s.tasks.countP Stage.owes
  opened : s.closed = false → ∀ t ∈ s.tasks, t.isOpen = true
  late : s.closed = true → ∀ t ∈ s.tasks, t.isLate = true
  /-- The task that closes the channel is the only one, and the last one. -/
  closing : .closing ∈ s.tasks → s.tasks.count .closing = 1 ∧ AllDone s.tasks
  fine : s.panicked = false
  started : ∀ closer ∈ s.closers, closer.before ≤ s.tasks.length
  returned : ∀ closer ∈ s.closers, closer.returned = true → s.closed = true
  waits : ∀ closer ∈ s.closers, s.closed = true → AllDone (s.tasks.take closer.before)

theorem inv_new : Inv new := by
  constructor
  all_goals simp [new]

/-- The invariant has the property. -/
theorem Inv.toWaits {s : State} (h : Inv s) : Waits s :=
  ⟨h.fine, fun hclosing => (h.closing hclosing).2,
    fun closer hcloser hreturned => h.waits closer hcloser (h.returned closer hcloser hreturned)⟩

section

variable {s s' : State} {k : ℕ} {t t' : Stage}

theorem AllDone.take {tasks : List Stage} (h : AllDone tasks) (n : ℕ) : AllDone (tasks.take n) :=
  fun t ht => h t (List.mem_of_mem_take ht)

/-- A task that goes on, and does not take back its `Done`, leaves the tasks done that are. -/
theorem AllDone.take_set {tasks : List Stage} {n : ℕ} (h : AllDone (tasks.take n))
    (hk : tasks[k]? = some t) (hdone : t.calledDone = true → t'.calledDone = true) :
    AllDone ((tasks.set k t').take n) := by
  intro t'' ht''
  rw [List.take_set] at ht''
  rcases List.mem_or_eq_of_mem_set ht'' with hmem | rfl
  · exact h t'' hmem
  · by_cases hlt : k < n
    · exact hdone (h t (List.mem_of_getElem? ((List.getElem?_take_of_lt hlt).trans hk)))
    · have hle : (tasks.take n).length ≤ k :=
        Nat.le_trans (List.length_take_le n tasks) (Nat.le_of_not_lt hlt)
      rw [List.set_eq_of_length_le hle] at ht''
      exact h _ ht''

/-- While a task has not called `Done` no task is about to close the channel. -/
theorem Inv.not_closing (h : Inv s) (hk : s.tasks[k]? = some t) (ht : t.calledDone = false) :
    .closing ∉ s.tasks := by
  intro hclosing
  have hdone := (h.closing hclosing).2 t (List.mem_of_getElem? hk)
  rw [ht] at hdone
  exact Bool.false_ne_true hdone

/-- The counter when one task goes on. -/
theorem Inv.counter_set (h : Inv s) (hk : s.tasks[k]? = some t) {running : ℤ}
    (hrunning : running = s.running + (t'.weight - t.weight)) :
    running = ((s.tasks.set k t').countP Stage.counts : ℤ) -
      (s.tasks.set k t').countP Stage.owes := by
  have hcounts := Runs.countP_set_of_getElem? hk t' Stage.counts
  have howes := Runs.countP_set_of_getElem? hk t' Stage.owes
  have hcounter := h.counter
  simp only [Stage.weight] at hrunning
  split_ifs at hrunning hcounts howes <;> omega

/-- A task goes on while the channel stays as it is. -/
theorem Inv.set (h : Inv s) (hk : s.tasks[k]? = some t) {running : ℤ}
    (hrunning : running = s.running + (t'.weight - t.weight))
    (hopen : s.closed = false → t'.isOpen = true) (hlate : s.closed = true → t'.isLate = true)
    (hdone : t.calledDone = true → t'.calledDone = true)
    (hclosing : .closing ∈ s.tasks.set k t' →
      (s.tasks.set k t').count .closing = 1 ∧ AllDone (s.tasks.set k t')) :
    Inv { s with running, panicked := false, tasks := s.tasks.set k t' } := by
  constructor
  case counter => exact h.counter_set hk hrunning
  case opened =>
    intro hclosed t'' ht''
    rcases List.mem_or_eq_of_mem_set ht'' with hold | rfl
    · exact h.opened hclosed t'' hold
    · exact hopen hclosed
  case late =>
    intro hclosed t'' ht''
    rcases List.mem_or_eq_of_mem_set ht'' with hold | rfl
    · exact h.late hclosed t'' hold
    · exact hlate hclosed
  case closing => exact hclosing
  case fine => rfl
  case started => simpa using h.started
  case returned => exact h.returned
  case waits =>
    intro closer hcloser hclosed
    exact (h.waits closer hcloser hclosed).take_set hk hdone

/-- A task that has not called `Done` goes on to one that does not close the channel. -/
theorem Inv.not_closing_set (h : Inv s) (hk : s.tasks[k]? = some t) (ht : t.calledDone = false)
    (ht' : .closing ≠ t') : .closing ∉ s.tasks.set k t' := by
  intro hclosing
  rcases List.mem_or_eq_of_mem_set hclosing with hold | heq
  · exact h.not_closing hk ht hold
  · exact ht' heq

/-- No task is counted once the channel is closed. -/
theorem Inv.running_nonpos (h : Inv s) (hclosed : s.closed = true) : s.running ≤ 0 := by
  have hnone : s.tasks.countP Stage.counts = 0 := by
    rw [List.countP_eq_zero]
    intro t ht hcounts
    have hlate := h.late hclosed t ht
    cases t with
    | started | adding | closing => cases hcounts
    | done counted => cases hcounts
    | running counted =>
        cases counted with
        | false => cases hcounts
        | true => cases hlate
  have hcounter := h.counter
  omega

theorem Inv.start (h : Inv s) (hC : OneRound s .start) (hs : step s .start = some s') :
    Inv s' := by
  rw [step, h.fine, if_neg Bool.false_ne_true] at hs
  cases hs
  have hmem : ∀ t ∈ s.tasks ++ [.started], t ∈ s.tasks ∨ t = .started := by
    intro t ht
    simpa using ht
  constructor
  case counter => simpa [Stage.counts, Stage.owes] using h.counter
  case opened =>
    intro hclosed t ht
    rcases hmem t ht with hold | rfl
    · exact h.opened hclosed t hold
    · rfl
  case late =>
    intro hclosed t ht
    rcases hmem t ht with hold | rfl
    · exact h.late hclosed t hold
    · rfl
  case closing =>
    intro hclosing
    rcases hmem _ hclosing with hold | heq
    · exact absurd hold hC
    · cases heq
  case fine => rfl
  case started =>
    intro closer hcloser
    have hle := h.started closer hcloser
    simp only [List.length_append, List.length_singleton]
    omega
  case returned => exact h.returned
  case waits =>
    intro closer hcloser hclosed
    rw [List.take_append_of_le_length (h.started closer hcloser)]
    exact h.waits closer hcloser hclosed

theorem Inv.add (h : Inv s) (hs : step s (.add k) = some s') : Inv s' := by
  rw [step, h.fine, if_neg Bool.false_ne_true] at hs
  split at hs
  case h_2 => cases hs
  case h_1 hk =>
    cases hs
    -- the task is not counted yet, whatever the channel is
    refine h.set hk ?weight ?opened ?late nofun ?closing
    case weight => cases s.closed <;> exact (Int.add_zero _).symm
    case opened =>
      intro hclosed
      rw [hclosed]
      rfl
    case late =>
      intro hclosed
      rw [hclosed]
      rfl
    case closing =>
      intro hclosing
      refine absurd hclosing (h.not_closing_set hk rfl ?_)
      cases s.closed <;> exact nofun

theorem Inv.count (h : Inv s) (hs : step s (.count k) = some s') : Inv s' := by
  rw [step, h.fine, if_neg Bool.false_ne_true] at hs
  split at hs
  case h_2 => cases hs
  case h_1 hk =>
    cases hs
    -- a task that is about to be counted has found the channel open, and it still is
    have hlate : s.closed = true → Stage.isLate .adding = true :=
      fun hclosed => h.late hclosed _ (List.mem_of_getElem? hk)
    exact h.set hk rfl (fun _ => rfl) (fun hclosed => nomatch hlate hclosed) nofun
      fun hclosing => absurd hclosing (h.not_closing_set hk rfl nofun)

/-- The last `Done` of the counted tasks: every other task has called `Done` before. -/
theorem Inv.allDone_set (h : Inv s) (hopen : s.closed = false)
    (hk : s.tasks[k]? = some (.running true)) (hrunning : s.running = 1)
    (hC : Stage.started ∉ s.tasks ∧ Stage.adding ∉ s.tasks) : AllDone (s.tasks.set k .closing) := by
  have hcounts := Runs.countP_set_of_getElem? hk .closing Stage.counts
  simp only [Stage.counts, if_true, Bool.false_eq_true, if_false] at hcounts
  have hcounter := h.counter
  have howes : s.tasks.countP Stage.owes = 0 := by
    rw [List.countP_eq_zero]
    intro t ht howes
    have hisOpen := h.opened hopen t ht
    cases t with
    | started | adding | closing => cases howes
    | running counted => cases howes
    | done counted =>
        cases counted with
        | false => cases hisOpen
        | true => cases howes
  have hnone : (s.tasks.set k .closing).countP Stage.counts = 0 := by omega
  intro t ht
  rcases List.mem_or_eq_of_mem_set ht with hold | rfl
  · cases t with
    | started => exact absurd hold hC.1
    | adding => exact absurd hold hC.2
    | closing | done _ => rfl
    | running counted =>
        cases counted with
        | false => exact absurd (h.opened hopen _ hold) Bool.false_ne_true
        | true => exact absurd rfl (List.countP_eq_zero.1 hnone _ ht)
  · rfl

theorem Inv.done (h : Inv s) (hC : OneRound s (.done k)) (hs : step s (.done k) = some s') :
    Inv s' := by
  rw [step, h.fine, if_neg Bool.false_ne_true] at hs
  split at hs
  case h_2 => cases hs
  case h_1 counted hk =>
    cases hs
    have hnone : Stage.closing ∉ s.tasks := h.not_closing hk rfl
    -- a task that was not counted finds the counter below zero
    have hcounted : counted = !s.closed := by
      cases hclosed : s.closed with
      | false =>
          have hisOpen := h.opened hclosed _ (List.mem_of_getElem? hk)
          cases counted with
          | false => cases hisOpen
          | true => rfl
      | true =>
          have hlate := h.late hclosed _ (List.mem_of_getElem? hk)
          cases counted with
          | false => rfl
          | true => cases hlate
    have hzero : s.running - 1 = 0 → s.closed = false := by
      intro hzero
      rw [← Bool.not_eq_true]
      intro hclosed
      have hle := h.running_nonpos hclosed
      omega
    generalize ht : (if s.running - 1 = 0 then Stage.closing else .done counted) = t
    refine h.set hk ?weight ?opened ?late ?done ?closing
    case weight =>
      have hweight : t.weight - (Stage.running counted).weight = -1 := by
        rw [← ht]
        split
        case isTrue h0 =>
          rw [hcounted, hzero h0]
          rfl
        case isFalse => cases counted <;> rfl
      rw [hweight]
      rfl
    case opened =>
      intro hclosed
      rw [← ht, hcounted, hclosed]
      split <;> rfl
    case late =>
      intro hclosed
      rw [← ht, if_neg fun h0 => absurd ((hzero h0).symm.trans hclosed) Bool.false_ne_true]
      rfl
    case done => exact nofun
    case closing =>
      intro hclosing
      rcases List.mem_or_eq_of_mem_set hclosing with hold | rfl
      · exact absurd hold hnone
      · split at ht
        case isFalse => cases ht
        case isTrue h0 =>
          have hrunning : s.running = 1 := by omega
          rw [hcounted, hzero h0] at hk
          have hcount : (s.tasks.set k .closing).count .closing + 0 = s.tasks.count .closing + 1 :=
            Runs.countP_set_of_getElem? hk .closing (· == Stage.closing)
          rw [List.count_eq_zero.2 hnone] at hcount
          exact ⟨hcount, h.allDone_set (hzero h0) hk hrunning (hC hrunning)⟩

theorem Inv.close (h : Inv s) (hs : step s (.close k) = some s') : Inv s' := by
  rw [step, h.fine, if_neg Bool.false_ne_true] at hs
  split at hs
  case h_2 => cases hs
  case h_1 hk =>
    have hmem := List.mem_of_getElem? hk
    obtain ⟨hone, hall⟩ := h.closing hmem
    have hopen : s.closed = false := by
      rw [← Bool.not_eq_true]
      intro hclosed
      exact absurd (h.late hclosed _ hmem) (by decide)
    rw [hopen, if_neg Bool.false_ne_true] at hs
    cases hs
    have hnone : Stage.closing ∉ s.tasks.set k (.done true) := by
      have hcount : (s.tasks.set k (.done true)).count .closing + 1 = s.tasks.count .closing + 0 :=
        Runs.countP_set_of_getElem? hk (.done true) (· == Stage.closing)
      rw [hone] at hcount
      exact List.count_eq_zero.1 (Nat.succ.inj hcount)
    have hdone : AllDone (s.tasks.set k (.done true)) := by
      intro t ht
      rcases List.mem_or_eq_of_mem_set ht with hold | rfl
      · exact hall t hold
      · rfl
    constructor
    case counter => exact h.counter_set hk (Int.add_zero _).symm
    case opened =>
      intro hclosed
      cases hclosed
    case late =>
      intro _ t ht
      have hcalled := hdone t ht
      cases t with
      | started | adding | running _ => cases hcalled
      | closing => exact absurd ht hnone
      | done _ => rfl
    case closing => exact fun hclosing => absurd hclosing hnone
    case fine => rfl
    case started => simpa using h.started
    case returned => exact fun _ _ _ => rfl
    case waits => exact fun closer _ _ => hdone.take closer.before

theorem Inv.callClose (h : Inv s) (hC : OneRound s .callClose) (hs : step s .callClose = some s') :
    Inv s' := by
  rw [step, h.fine, if_neg Bool.false_ne_true] at hs
  cases hs
  have hmem : ∀ closer ∈ s.closers ++ [⟨s.tasks.length, false⟩],
      closer ∈ s.closers ∨ closer = ⟨s.tasks.length, false⟩ := by
    intro closer hcloser
    simpa using hcloser
  refine ⟨h.counter, h.opened, h.late, h.closing, rfl, ?_, ?_, ?_⟩
  · intro closer hcloser
    rcases hmem closer hcloser with hold | rfl
    · exact h.started closer hold
    · exact Nat.le_refl _
  · intro closer hcloser hreturned
    rcases hmem closer hcloser with hold | rfl
    · exact h.returned closer hold hreturned
    · cases hreturned
  · intro closer hcloser hclosed
    exact (hC hclosed).take closer.before

theorem Inv.returnClose (h : Inv s) (hs : step s (.returnClose k) = some s') : Inv s' := by
  rw [step, h.fine, if_neg Bool.false_ne_true] at hs
  split at hs
  case h_2 => cases hs
  case h_1 closer hk =>
    split at hs
    case isFalse => cases hs
    case isTrue hclosed =>
      cases hs
      -- a call that returns waits for the tasks it waited for
      have hmem : ∀ closer' ∈ s.closers.set k { closer with returned := true },
          ∃ c ∈ s.closers, c.before = closer'.before := by
        intro closer' hcloser'
        rcases List.mem_or_eq_of_mem_set hcloser' with hold | rfl
        · exact ⟨closer', hold, rfl⟩
        · exact ⟨closer, List.mem_of_getElem? hk, rfl⟩
      refine ⟨h.counter, h.opened, h.late, h.closing, rfl, ?_, fun _ _ _ => hclosed, ?_⟩
      · intro closer' hcloser'
        obtain ⟨old, hold, hbefore⟩ := hmem closer' hcloser'
        exact hbefore ▸ h.started old hold
      · intro closer' hcloser' _
        obtain ⟨old, hold, hbefore⟩ := hmem closer' hcloser'
        exact hbefore ▸ h.waits old hold hclosed

/-- What a step preserves. -/
theorem Inv.step {a : Action} (h : Inv s) (hC : OneRound s a)
    (hs : TimeoutWaitGroup.step s a = some s') : Inv s' := by
  cases a with
  | start => exact h.start hC hs
  | add k => exact h.add hs
  | count k => exact h.count hs
  | done k => exact h.done hC hs
  | close k => exact h.close hs
  | callClose => exact h.callClose hC hs
  | returnClose k => exact h.returnClose hs

end

/-! ### Runs -/

/-- **`Close` waits for the tasks**: in every run in which the tasks are counted in one round, the
channel is closed at most once and only when every task that was started has called `Done`, and
`Close` returns through it only when the tasks that were started before have. -/
theorem waits_of_oneRound {as : List Action} {s : State} (h : Runs.Meets step OneRound new as)
    (hs : Runs.Visits step new as s) : Waits s :=
  (Runs.visits_invariant_of_meets step (fun _ _ _ hI hC hstep => hI.step hC hstep) inv_new h
    hs).toWaits

/-- Two tasks that overlap, and a call of `Close` while the second one runs. -/
def overlapping : List Action :=
  [.start, .add 0, .count 0, .start, .add 1, .count 1, .done 0, .callClose, .done 1, .close 1,
    .returnClose 0]

theorem waits_overlapping :
    Runs.run step new overlapping =
        some ⟨0, true, false, [.done true, .done true], [⟨2, true⟩]⟩ ∧
      Waits ⟨0, true, false, [.done true, .done true], [⟨2, true⟩]⟩ :=
  have hrun : Runs.run step new overlapping =
      some ⟨0, true, false, [.done true, .done true], [⟨2, true⟩]⟩ := by decide
  ⟨hrun, waits_of_oneRound (by decide) (Runs.visits_last step hrun)⟩

/-- **`Close` returns while a task runs**: one task comes and goes, a second one is started after
that, and `Close` returns through the channel the first one has closed.  So it does when both
tasks are started first and the second one has not called `Add` yet.  **The channel is closed
twice**: a task is counted after the last `Done` has found the counter at zero; the channel is
closed while the task runs, and again when it is done. -/
theorem closed_too_early :
    (∃ s, Runs.run step new
        [.start, .add 0, .count 0, .done 0, .close 0, .start, .add 1, .callClose,
          .returnClose 0] = some s ∧
      s.closers = [⟨2, true⟩] ∧ s.tasks = [.done true, .running false] ∧ ¬ Waits s) ∧
    (∃ s, Runs.run step new
        [.start, .start, .add 0, .count 0, .callClose, .done 0, .close 0, .returnClose 0] =
          some s ∧
      s.closers = [⟨2, true⟩] ∧ s.tasks = [.done true, .started] ∧ ¬ Waits s) ∧
    (∃ s, Runs.run step new
        [.start, .start, .add 0, .count 0, .add 1, .done 0, .count 1] = some s ∧
      s.tasks = [.closing, .running true] ∧ ¬ Waits s) ∧
    ∃ s, Runs.run step new
        [.start, .start, .add 0, .count 0, .add 1, .done 0, .count 1, .close 0, .done 1,
          .close 1] = some s ∧
      s.panicked = true ∧ ¬ Waits s :=
  ⟨⟨_, rfl, by decide⟩, ⟨_, rfl, by decide⟩, ⟨_, rfl, by decide⟩, ⟨_, rfl, by decide⟩⟩

end TimeoutWaitGroup

end Dreamboat
