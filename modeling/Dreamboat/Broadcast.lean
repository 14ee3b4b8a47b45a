/-
**Values that are broadcast over a topic.**

Several nodes publish values on a topic and read what the others publish.  A value waits until a
publisher has turned it into a message; the message is put into the inbox of every node, its own
one included.  A reader takes the messages of its inbox one after another.  It skips a message, or
it holds a value until there is room for it in a channel, from which workers take it.  A worker is
done with its value before or after the others.

A publication may fail, and then the value is not sent at all; and a message may get lost on its way
to a node.

Nothing is said here about the messages and what they are turned into.  If every other node makes
of the message the value that was published, up to a change `arrives` on the way, then what waits
for a node is changed by publishing, by the workers, and by what gets lost.

Main definitions:

* `Broadcast.Wire` — how values are written and read;
* `Broadcast.Net`, `Broadcast.Net.publish`, `Broadcast.Net.fail`, `Broadcast.Net.lose`, … — the
  nodes, and everything that can happen to them;
* `Broadcast.Net.pending` — what waits for a node;
* `Broadcast.Wire.Carries` — a value arrives at the other nodes, and at no node of its own.

Main results:

* `Broadcast.Net.pending_internal` — readers and channels change nothing;
* `Broadcast.Net.pending_publish`, `Broadcast.Net.pending_done` — a value that is published waits
  for the other nodes, until a worker is done with it;
* `Broadcast.Net.todo_of_not_quiescent` — **nothing gets stuck**;
* `Broadcast.Log.conserved_run` — **nothing is doubled, and what is missing has failed to be sent or
  got lost**.
-/

import Dreamboat.Runs
import Mathlib.Algebra.BigOperators.Fin
import Mathlib.Algebra.Order.BigOperators.Group.Finset

set_option autoImplicit false

namespace Broadcast

/-- How values are written and read by the nodes, and how much room there is. -/
structure Wire (n : ℕ) (M V : Type) where
  /-- The message of a value, or `none` if it is not sent. -/
  write : Fin n → V → Option M
  /-- The value of a message: `some none` if the message is skipped, `none` if the node stops. -/
  read : Fin n → M → Option (Option V)
  queueSize : ℕ
  workers : ℕ

/-- The nodes of a topic. -/
structure Net (n : ℕ) (M V : Type) where
  /-- The values that are still to be published, with the node that publishes. -/
  publishing : List (Fin n × V)
  inbox : Fin n → List M
  /-- The value that a reader has not put into the channel yet. -/
  holding : Fin n → Option V
  channel : Fin n → List V
  /-- The values that workers have taken and are not done with. -/
  hands : Fin n → List V

/-- What happens on its own. -/
inductive Internal (n : ℕ) (M : Type) where
  /-- A message that is no value to anyone. -/
  | noise (m : M)
  | next (i : Fin n)
  | send (i : Fin n)
  | handOff (i : Fin n)
  | take (i : Fin n)

variable {n : ℕ} {M V : Type}

/-- What messages are to a node. -/
def Wire.values (w : Wire n M V) (j : Fin n) (ms : List M) : List V :=
  ms.filterMap fun m => (w.read j m).join

/-- What does not come from outside. -/
def Internal.isOwn : Internal n M → Prop
  | .noise _ => False
  | _ => True

namespace Net

def empty : Net n M V := ⟨[], fun _ => [], fun _ => none, fun _ => [], fun _ => []⟩

/-- A value is to be published. -/
def start (s : Net n M V) (i : Fin n) (v : V) : Net n M V :=
  { s with publishing := (i, v) :: s.publishing }

/-- A message is sent to all nodes. -/
def deliver (s : Net n M V) (m : M) : Net n M V := { s with inbox := fun j => s.inbox j ++ [m] }

/-- A publisher writes a value and sends it, or drops it. -/
def publish (w : Wire n M V) (s : Net n M V) (k : ℕ) : Option (Net n M V) :=
  (Runs.pick s.publishing k).map fun ((i, v), publishing) =>
    match w.write i v with
    | none => { s with publishing }
    | some m => deliver { s with publishing } m

/-- A publication fails. -/
def fail (s : Net n M V) (k : ℕ) : Option ((Fin n × V) × Net n M V) :=
  (Runs.pick s.publishing k).map fun (m, publishing) => (m, { s with publishing })

/-- A message gets lost on its way to a node. -/
def lose (s : Net n M V) (i : Fin n) (k : ℕ) : Option (M × Net n M V) :=
  (Runs.pick (s.inbox i) k).map fun (m, inbox) =>
    (m, { s with inbox := Function.update s.inbox i inbox })

/-- A reader takes a message. -/
def next (w : Wire n M V) (s : Net n M V) (i : Fin n) : Option (Net n M V) :=
  match s.holding i, s.inbox i with
  | none, m :: rest => (w.read i m).map fun v => { s with
      inbox := Function.update s.inbox i rest
      holding := Function.update s.holding i v }
  | _, _ => none

/-- The value goes into the channel if there is room for it. -/
def send (w : Wire n M V) (s : Net n M V) (i : Fin n) : Option (Net n M V) :=
  match s.holding i with
  | none => none
  | some v =>
      if (s.channel i).length < w.queueSize then some { s with
        holding := Function.update s.holding i none
        channel := Function.update s.channel i (s.channel i ++ [v]) }
      else none

/-- A worker that waits at an empty channel gets the value at once. -/
def handOff (w : Wire n M V) (s : Net n M V) (i : Fin n) : Option (Net n M V) :=
  match s.holding i, s.channel i with
  | some v, [] =>
      if (s.hands i).length < w.workers then some { s with
        holding := Function.update s.holding i none
        hands := Function.update s.hands i (s.hands i ++ [v]) }
      else none
  | _, _ => none

/-- A worker takes a value from the channel. -/
def take (w : Wire n M V) (s : Net n M V) (i : Fin n) : Option (Net n M V) :=
  match s.channel i with
  | [] => none
  | v :: rest =>
      if (s.hands i).length < w.workers then some { s with
        channel := Function.update s.channel i rest
        hands := Function.update s.hands i (s.hands i ++ [v]) }
      else none

/-- A worker is done with its value. -/
def done (s : Net n M V) (i : Fin n) (k : ℕ) : Option (V × Net n M V) :=
  (Runs.pick (s.hands i) k).map fun (v, hands) =>
    (v, { s with hands := Function.update s.hands i hands })

def internal (w : Wire n M V) (s : Net n M V) : Internal n M → Option (Net n M V)
  | .noise m => some (s.deliver m)
  | .next i => s.next w i
  | .send i => s.send w i
  | .handOff i => s.handOff w i
  | .take i => s.take w i

/-! ### What waits for a node -/

/-- What waits for a node, the next one to be done with first. -/
def pending (w : Wire n M V) (s : Net n M V) (j : Fin n) : List V :=
  s.hands j ++ (s.channel j ++ ((s.holding j).toList ++ w.values j (s.inbox j)))

/-- How many steps what is at a node needs at most. -/
def weight (s : Net n M V) (j : Fin n) : ℕ :=
  4 * (s.inbox j).length + 3 * (s.holding j).toList.length + 2 * (s.channel j).length +
    (s.hands j).length

/-- How many steps are needed at most. -/
def work (s : Net n M V) : ℕ := s.publishing.length * (4 * n + 1) + ∑ j, s.weight j

/-- Nothing is to be published, and nothing waits. -/
def Quiescent (s : Net n M V) : Prop :=
  s.publishing = [] ∧ ∀ j, s.inbox j = [] ∧ s.holding j = none ∧ s.channel j = [] ∧ s.hands j = []

end Net

/-- Every other node reads the value, up to what becomes of it on the way, and its own node skips
the message. -/
def Wire.Carries (w : Wire n M V) (arrives : V → V) (i : Fin n) (v : V) : Prop :=
  ∃ m, w.write i v = some m ∧
    ∀ j, w.read j m = some (if j = i then none else some (arrives v))

/-- A message that every node skips. -/
def Wire.Skips (w : Wire n M V) (m : M) : Prop := ∀ j, w.read j m = some none

/-- Messages that are no values come from outside only if they are skipped. -/
def Wire.Harmless (w : Wire n M V) : Internal n M → Prop
  | .noise m => w.Skips m
  | _ => True

namespace Net

variable {w : Wire n M V} {s s' : Net n M V} {arrives : V → V}

theorem pending_of_quiescent (h : s.Quiescent) (j : Fin n) : s.pending w j = [] := by
  obtain ⟨hinbox, hholding, hchannel, hhands⟩ := h.2 j
  rw [pending, hinbox, hholding, hchannel, hhands]
  rfl

theorem pending_start (i : Fin n) (v : V) (j : Fin n) :
    (s.start i v).pending w j = s.pending w j := rfl

theorem pending_deliver (m : M) (j : Fin n) :
    (s.deliver m).pending w j = s.pending w j ++ ((w.read j m).join).toList := by
  simp only [pending, Wire.values, deliver, List.filterMap_append, List.append_assoc]
  cases h : (w.read j m).join with
  | none => simp [h]
  | some v => simp [h]

/-- A reader or a channel at a node goes on: what waits there still does, and there is less to do;
the other nodes stay as they are. -/
structure Advances (w : Wire n M V) (s s' : Net n M V) (i : Fin n) : Prop where
  publishing : s'.publishing = s.publishing
  pending : s'.pending w i = s.pending w i
  weight : s'.weight i < s.weight i
  inbox : ∀ m ∈ s'.inbox i, m ∈ s.inbox i
  other : ∀ j, j ≠ i → s'.pending w j = s.pending w j ∧ s'.weight j = s.weight j ∧
    s'.inbox j = s.inbox j

theorem advances_of_internal {a : Internal n M} (h : s.internal w a = some s') (ha : a.isOwn) :
    ∃ i, Advances w s s' i := by
  cases a with
  | noise m => exact ha.elim
  | next i =>
      simp only [internal, next] at h
      split at h
      · next m rest hholding hinbox =>
          obtain ⟨v, hread, rfl⟩ := Option.map_eq_some_iff.1 h
          refine ⟨i, rfl, ?_, ?_, ?_, fun j hj => by simp [pending, weight, hj]⟩
          · cases v with
            | none => simp [pending, Wire.values, hholding, hinbox, hread]
            | some v => simp [pending, Wire.values, hholding, hinbox, hread]
          · have hv : v.toList.length ≤ 1 := by cases v <;> simp
            simp only [weight, Function.update_self, hholding, hinbox, List.length_cons,
              Option.toList_none, List.length_nil]
            omega
          · simp only [Function.update_self, hinbox]
            exact fun _ => List.mem_cons_of_mem m
      · cases h
  | send i =>
      simp only [internal, send] at h
      split at h
      · cases h
      · next v hholding =>
          split at h
          · obtain rfl := Option.some_inj.1 h
            refine ⟨i, rfl, ?_, ?_, fun _ hm => hm, fun j hj => by simp [pending, weight, hj]⟩
            · simp [pending, hholding]
            · simp only [weight, Function.update_self, hholding, List.length_append,
                Option.toList_some, Option.toList_none, List.length_nil, List.length_singleton]
              omega
          · cases h
  | handOff i =>
      simp only [internal, handOff] at h
      split at h
      · next v hholding hchannel =>
          split at h
          · obtain rfl := Option.some_inj.1 h
            refine ⟨i, rfl, ?_, ?_, fun _ hm => hm, fun j hj => by simp [pending, weight, hj]⟩
            · simp [pending, hholding, hchannel]
            · simp only [weight, Function.update_self, hholding, List.length_append,
                Option.toList_some, Option.toList_none, List.length_nil, List.length_singleton]
              omega
          · cases h
      · cases h
  | take i =>
      simp only [internal, take] at h
      split at h
      · cases h
      · next v rest hchannel =>
          split at h
          · obtain rfl := Option.some_inj.1 h
            refine ⟨i, rfl, ?_, ?_, fun _ hm => hm, fun j hj => by simp [pending, weight, hj]⟩
            · simp [pending, hchannel]
            · simp only [weight, Function.update_self, hchannel, List.length_append,
                List.length_cons, List.length_nil]
              omega
          · cases h

/-- Readers and channels change nothing. -/
theorem pending_internal {a : Internal n M} (h : s.internal w a = some s') (ha : w.Harmless a) :
    s'.publishing = s.publishing ∧ (∀ j, s'.pending w j = s.pending w j) ∧
      ∀ j, ∀ m ∈ s'.inbox j, m ∈ s.inbox j ∨ w.Skips m := by
  by_cases hown : a.isOwn
  · obtain ⟨i, hadv⟩ := advances_of_internal h hown
    refine ⟨hadv.publishing, fun j => ?_, fun j m hm => .inl ?_⟩
    · by_cases hj : j = i
      · exact hj ▸ hadv.pending
      · exact (hadv.other j hj).1
    · by_cases hj : j = i
      · subst hj
        exact hadv.inbox m hm
      · exact (hadv.other j hj).2.2 ▸ hm
  · cases a with
    | noise m =>
        obtain rfl := Option.some_inj.1 h
        refine ⟨rfl, fun j => ?_, fun j m' hm' => ?_⟩
        · rw [pending_deliver, ha j]
          exact List.append_nil _
        · rcases List.mem_append.1 hm' with hm' | hm'
          · exact .inl hm'
          · exact .inr (List.mem_singleton.1 hm' ▸ ha)
    | next | send | handOff | take => exact absurd trivial hown

/-- A value that is published waits for every other node. -/
theorem pending_publish {k : ℕ} (h : s.publish w k = some s')
    (hcarries : ∀ m ∈ s.publishing, w.Carries arrives m.1 m.2) :
    ∃ i v rest, Runs.pick s.publishing k = some ((i, v), rest) ∧ s'.publishing = rest ∧
      ∀ j, s'.pending w j = s.pending w j ++ if j = i then [] else [arrives v] := by
  obtain ⟨⟨⟨i, v⟩, rest⟩, hpick, rfl⟩ := Option.map_eq_some_iff.1 h
  obtain ⟨m, hwrite, hread⟩ := hcarries (i, v) (Runs.mem_of_pick hpick)
  refine ⟨i, v, rest, hpick, ?_, fun j => ?_⟩
  · simp only [hwrite]
    rfl
  · simp only [hwrite]
    rw [pending_deliver, hread j, Option.join_some]
    by_cases hj : j = i
    · rw [if_pos hj, if_pos hj]
      rfl
    · rw [if_neg hj, if_neg hj]
      rfl

/-- A publication that fails changes nothing at the nodes. -/
theorem pending_fail {k : ℕ} {m : Fin n × V} (h : s.fail k = some (m, s')) :
    s.publishing.Perm (m :: s'.publishing) ∧ ∀ j, s'.pending w j = s.pending w j := by
  obtain ⟨⟨m', publishing⟩, hpick, hpair⟩ := Option.map_eq_some_iff.1 h
  obtain ⟨rfl, rfl⟩ := Prod.mk.inj hpair
  exact ⟨Runs.perm_of_pick hpick, fun _ => rfl⟩

/-- A message that gets lost no longer waits for its node. -/
theorem pending_lose {i : Fin n} {k : ℕ} {m : M} (h : s.lose i k = some (m, s')) :
    s'.publishing = s.publishing ∧ (s.pending w i).Perm (w.values i [m] ++ s'.pending w i) ∧
      (∀ j, j ≠ i → s'.pending w j = s.pending w j) ∧ ∀ j, ∀ m' ∈ s'.inbox j, m' ∈ s.inbox j := by
  obtain ⟨⟨m', inbox⟩, hpick, hpair⟩ := Option.map_eq_some_iff.1 h
  obtain ⟨rfl, rfl⟩ := Prod.mk.inj hpair
  refine ⟨rfl, ?_, fun j hj => ?_, fun j m₀ hm₀ => ?_⟩
  · have hinbox : (w.values i (s.inbox i)).Perm (w.values i [m'] ++ w.values i inbox) := by
      rw [Wire.values, Wire.values, Wire.values, ← List.filterMap_append]
      exact (Runs.perm_of_pick hpick).filterMap _
    simp only [pending, Function.update_self]
    refine (((hinbox.append_left _).append_left _).append_left _).trans ?_
    simp only [← List.append_assoc]
    exact (List.perm_append_comm.append_right _).trans (by simp)
  · simp only [pending, Function.update_of_ne hj]
  · by_cases hj : j = i
    · subst hj
      simp only [Function.update_self] at hm₀
      exact Runs.mem_of_mem_rest hpick hm₀
    · simpa only [Function.update_of_ne hj] using hm₀

/-- What a worker is done with no longer waits for its node. -/
theorem pending_done {i : Fin n} {k : ℕ} {v : V} (h : s.done i k = some (v, s')) :
    s'.publishing = s.publishing ∧ (s.pending w i).Perm (v :: s'.pending w i) ∧
      ∀ j, j ≠ i → s'.pending w j = s.pending w j := by
  obtain ⟨⟨v', hands⟩, hpick, hpair⟩ := Option.map_eq_some_iff.1 h
  obtain ⟨rfl, rfl⟩ := Prod.mk.inj hpair
  refine ⟨rfl, ?_, fun j hj => ?_⟩
  · simp only [pending, Function.update_self]
    exact (Runs.perm_of_pick hpick).append_right _
  · simp only [pending, Function.update_of_ne hj]

end Net

/-! ### Nothing gets stuck -/

namespace Net

variable {w : Wire n M V} {s s' : Net n M V}

/-- No message makes its node stop. -/
def Readable (w : Wire n M V) (s : Net n M V) : Prop := ∀ j, ∀ m ∈ s.inbox j, w.read j m ≠ none

theorem readable_empty (w : Wire n M V) : (empty : Net n M V).Readable w := fun _ _ h => nomatch h

theorem Readable.internal (h : s.Readable w) {a : Internal n M} (ha : w.Harmless a)
    (hs : s.internal w a = some s') : s'.Readable w := by
  intro j m hm
  rcases (pending_internal hs ha).2.2 j m hm with hm | hm
  · exact h j m hm
  · rw [hm j]
    exact Option.some_ne_none _

theorem Readable.publish {arrives : V → V} (h : s.Readable w)
    (hcarries : ∀ m ∈ s.publishing, w.Carries arrives m.1 m.2) {k : ℕ}
    (hs : s.publish w k = some s') : s'.Readable w := by
  obtain ⟨⟨⟨i, v⟩, rest⟩, hpick, rfl⟩ := Option.map_eq_some_iff.1 hs
  obtain ⟨m, hwrite, hread⟩ := hcarries (i, v) (Runs.mem_of_pick hpick)
  simp only [hwrite]
  intro j m' hm'
  rcases List.mem_append.1 hm' with hm' | hm'
  · exact h j m' hm'
  · rw [List.mem_singleton.1 hm', hread j]
    exact Option.some_ne_none _

theorem Readable.done (h : s.Readable w) {i : Fin n} {k : ℕ} {v : V}
    (hs : s.done i k = some (v, s')) : s'.Readable w := by
  obtain ⟨p, -, hpair⟩ := Option.map_eq_some_iff.1 hs
  obtain ⟨-, rfl⟩ := Prod.mk.inj hpair
  exact h

theorem Readable.fail (h : s.Readable w) {k : ℕ} {m : Fin n × V} (hs : s.fail k = some (m, s')) :
    s'.Readable w := by
  obtain ⟨p, -, hpair⟩ := Option.map_eq_some_iff.1 hs
  obtain ⟨-, rfl⟩ := Prod.mk.inj hpair
  exact h

theorem Readable.lose (h : s.Readable w) {i : Fin n} {k : ℕ} {m : M}
    (hs : s.lose i k = some (m, s')) : s'.Readable w :=
  fun j m' hm' => h j m' ((pending_lose (w := w) hs).2.2.2 j m' hm')

/-- What is done at one node makes less work there, and none elsewhere. -/
theorem work_lt_of_weight_lt {i : Fin n} (hpublishing : s'.publishing = s.publishing)
    (hi : s'.weight i < s.weight i) (hother : ∀ j, j ≠ i → s'.weight j = s.weight j) :
    s'.work < s.work := by
  rw [work, work, hpublishing]
  refine Nat.add_lt_add_left (Finset.sum_lt_sum (fun j _ => ?_) ⟨i, Finset.mem_univ i, hi⟩) _
  by_cases hj : j = i
  · subst hj
    exact Nat.le_of_lt hi
  · exact (hother j hj).le

theorem work_deliver (s : Net n M V) (m : M) : (s.deliver m).work = s.work + 4 * n := by
  have hweight : ∀ j, (s.deliver m).weight j = s.weight j + 4 := by
    intro j
    simp only [weight, deliver, List.length_append, List.length_singleton]
    omega
  simp only [work, hweight, Finset.sum_add_distrib, Finset.sum_const, Finset.card_univ,
    Fintype.card_fin, smul_eq_mul]
  rw [show (s.deliver m).publishing = s.publishing from rfl]
  omega

theorem work_publish {k : ℕ} (h : s.publish w k = some s') : s'.work < s.work := by
  obtain ⟨⟨⟨i, v⟩, rest⟩, hpick, rfl⟩ := Option.map_eq_some_iff.1 h
  have hlen : s.publishing.length = rest.length + 1 := (Runs.perm_of_pick hpick).length_eq
  have hrest : ({ s with publishing := rest } : Net n M V).work + (4 * n + 1) = s.work := by
    simp only [work, hlen, Nat.add_mul]
    rw [show (∑ j, ({ s with publishing := rest } : Net n M V).weight j) = ∑ j, s.weight j from rfl]
    omega
  cases hwrite : w.write i v with
  | none =>
      simp only [hwrite]
      omega
  | some m =>
      simp only [hwrite]
      rw [work_deliver]
      omega

theorem work_internal {a : Internal n M} (h : s.internal w a = some s') (ha : a.isOwn) :
    s'.work < s.work := by
  obtain ⟨i, hadv⟩ := advances_of_internal h ha
  exact work_lt_of_weight_lt hadv.publishing hadv.weight fun j hj => (hadv.other j hj).2.1

theorem work_done {i : Fin n} {k : ℕ} {v : V} (h : s.done i k = some (v, s')) :
    s'.work < s.work := by
  obtain ⟨⟨v', hands⟩, hpick, hpair⟩ := Option.map_eq_some_iff.1 h
  obtain ⟨rfl, rfl⟩ := Prod.mk.inj hpair
  refine work_lt_of_weight_lt (i := i) rfl ?_ fun j hj => by simp [weight, hj]
  have hlen : (s.hands i).length = hands.length + 1 := (Runs.perm_of_pick hpick).length_eq
  simp only [weight, Function.update_self, hlen]
  omega

/-- What can be done next, if there is something to do. -/
inductive Todo (w : Wire n M V) (s : Net n M V) : Prop where
  | publish {k : ℕ} {s' : Net n M V} (h : s.publish w k = some s')
  | internal {a : Internal n M} {s' : Net n M V} (ha : a.isOwn)
      (h : s.internal w a = some s') (hwork : s'.work < s.work)
  | done {i : Fin n} {k : ℕ} {v : V} {s' : Net n M V} (h : s.done i k = some (v, s'))

/-- **Nothing gets stuck**: as long as something is under way and there is a worker, something can
be done that makes less work. -/
theorem todo_of_not_quiescent (hworkers : 0 < w.workers) (hread : s.Readable w)
    (h : ¬s.Quiescent) : Todo w s := by
  rcases hpublishing : s.publishing with _ | ⟨m, rest⟩
  · -- the last thing that can be done at a node where something waits
    obtain ⟨j, hj⟩ : ∃ j, ¬(s.inbox j = [] ∧ s.holding j = none ∧ s.channel j = [] ∧
        s.hands j = []) := by
      by_contra hcontra
      exact h ⟨hpublishing, fun j => not_not.1 (not_exists.1 hcontra j)⟩
    rcases hhands : s.hands j with _ | ⟨v, hands⟩
    · rcases hchannel : s.channel j with _ | ⟨v, channel⟩
      · rcases hholding : s.holding j with _ | v
        · rcases hinbox : s.inbox j with _ | ⟨m, inbox⟩
          · exact absurd ⟨hinbox, hholding, hchannel, hhands⟩ hj
          · obtain ⟨v, hv⟩ := Option.ne_none_iff_exists'.1
              (hread j m (by rw [hinbox]; exact List.mem_cons_self))
            have hstep : s.internal w (.next j) = some { s with
                inbox := Function.update s.inbox j inbox
                holding := Function.update s.holding j v } := by
              simp only [internal, next, hholding, hinbox, hv, Option.map_some]
            exact .internal (a := .next j) trivial hstep (work_internal hstep trivial)
        · have hstep : s.internal w (.handOff j) = some { s with
              holding := Function.update s.holding j none
              hands := Function.update s.hands j (s.hands j ++ [v]) } := by
            simp only [internal, handOff, hholding, hchannel, hhands]
            exact if_pos hworkers
          exact .internal (a := .handOff j) trivial hstep (work_internal hstep trivial)
      · have hstep : s.internal w (.take j) = some { s with
            channel := Function.update s.channel j channel
            hands := Function.update s.hands j (s.hands j ++ [v]) } := by
          simp only [internal, take, hchannel, hhands]
          exact if_pos hworkers
        exact .internal (a := .take j) trivial hstep (work_internal hstep trivial)
    · have hpick : Runs.pick (s.hands j) 0 = some (v, hands) := by
        rw [hhands]
        rfl
      exact .done (i := j) (k := 0) (Option.map_eq_some_iff.2 ⟨_, hpick, rfl⟩)
  · have hpick : Runs.pick s.publishing 0 = some (m, rest) := by
      rw [hpublishing]
      rfl
    exact .publish (k := 0) (Option.map_eq_some_iff.2 ⟨_, hpick, rfl⟩)

end Net

/-! ### What becomes of the values -/

/-- The nodes, with what has been given to them, what their workers are done with, and what went
wrong. -/
structure Log (n : ℕ) (M V : Type) where
  net : Net n M V
  given : List (Fin n × V)
  received : Fin n → List V
  /-- The values whose publication has failed. -/
  failed : List (Fin n × V)
  /-- The messages that have got lost on the way to a node. -/
  lost : Fin n → List M

inductive Action (n : ℕ) (M V : Type) where
  | give (i : Fin n) (v : V)
  | publish (k : ℕ)
  | internal (a : Internal n M)
  | done (i : Fin n) (k : ℕ)
  | fail (k : ℕ)
  | lose (i : Fin n) (k : ℕ)

namespace Log

def empty : Log n M V := ⟨.empty, [], fun _ => [], [], fun _ => []⟩

def step (w : Wire n M V) (s : Log n M V) : Action n M V → Option (Log n M V)
  | .give i v => some { s with net := s.net.start i v, given := (i, v) :: s.given }
  | .publish k => (s.net.publish w k).map fun net => { s with net }
  | .internal a => (s.net.internal w a).map fun net => { s with net }
  | .done i k => (s.net.done i k).map fun (v, net) =>
      { s with net, received := Function.update s.received i (s.received i ++ [v]) }
  | .fail k => (s.net.fail k).map fun (m, net) => { s with net, failed := m :: s.failed }
  | .lose i k => (s.net.lose i k).map fun (m, net) =>
      { s with net, lost := Function.update s.lost i (m :: s.lost i) }

/-- What others than a node have in a list, as it arrives there. -/
def fromOthers (arrives : V → V) (j : Fin n) (l : List (Fin n × V)) : List V :=
  (l.filter fun m => m.1 ≠ j).map fun m => arrives m.2

/-- What a node has not received: it waits, it is still to be published, its publication has failed,
or its message got lost. -/
def missing (w : Wire n M V) (arrives : V → V) (s : Log n M V) (j : Fin n) : List V :=
  s.net.pending w j ++ (fromOthers arrives j s.net.publishing ++
    (fromOthers arrives j s.failed ++ w.values j (s.lost j)))

/-- Every node has received what the others were given, but for what is missing. -/
structure Conserved (w : Wire n M V) (arrives : V → V) (s : Log n M V) : Prop where
  carries : ∀ m ∈ s.net.publishing, w.Carries arrives m.1 m.2
  perm : ∀ j, (s.received j ++ s.missing w arrives j).Perm (fromOthers arrives j s.given)

variable {w : Wire n M V} {arrives : V → V}

/-- The values that are given are carried, and what comes from outside is skipped. -/
def Allowed (w : Wire n M V) (arrives : V → V) : Action n M V → Prop
  | .give i v => w.Carries arrives i v
  | .internal a => w.Harmless a
  | _ => True

theorem fromOthers_cons (i j : Fin n) (v : V) (l : List (Fin n × V)) :
    fromOthers arrives j ((i, v) :: l) =
      (if j = i then [] else [arrives v]) ++ fromOthers arrives j l := by
  by_cases h : j = i
  · simp [fromOthers, h]
  · have h' : i ≠ j := fun heq => h heq.symm
    simp [fromOthers, h, h']

theorem conserved_empty : Conserved w arrives (empty : Log n M V) where
  carries _ h := nomatch h
  perm _ := List.Perm.refl _

theorem fromOthers_perm (arrives : V → V) {l l' : List (Fin n × V)} (h : l.Perm l') (j : Fin n) :
    (fromOthers arrives j l).Perm (fromOthers arrives j l') := (h.filter _).map _

/-- What was missing is missing still, but for what is given and received in a step. -/
theorem Conserved.of_missing {s s' : Log n M V} (h : s.Conserved w arrives)
    (hcarries : ∀ m ∈ s'.net.publishing, w.Carries arrives m.1 m.2)
    (hgiven : s'.given = s.given) (hreceived : s'.received = s.received)
    (hmissing : ∀ j, (s'.missing w arrives j).Perm (s.missing w arrives j)) :
    s'.Conserved w arrives := by
  refine ⟨hcarries, fun j => ?_⟩
  rw [hgiven, hreceived]
  exact ((hmissing j).append_left _).trans (h.perm j)

theorem Conserved.step {s s' : Log n M V} {a : Action n M V} (h : s.Conserved w arrives)
    (ha : Allowed w arrives a) (hs : s.step w a = some s') : s'.Conserved w arrives := by
  cases a with
  | give i v =>
      obtain rfl := Option.some_inj.1 hs
      refine ⟨fun m hm => ?_, fun j => ?_⟩
      · rcases List.mem_cons.1 hm with rfl | hm
        · exact ha
        · exact h.carries m hm
      · have hpublishing : (s.net.start i v).publishing = (i, v) :: s.net.publishing := rfl
        simp only [missing, Net.pending_start, hpublishing, fromOthers_cons, List.append_assoc]
        exact (((List.perm_append_comm_assoc _ _ _).append_left _).trans
          (List.perm_append_comm_assoc _ _ _)).trans ((h.perm j).append_left _)
  | publish k =>
      obtain ⟨net, hnet, rfl⟩ := Option.map_eq_some_iff.1 hs
      obtain ⟨i, v, rest, hpick, hrest, hpending⟩ := Net.pending_publish hnet h.carries
      refine h.of_missing (fun m hm => ?_) rfl rfl fun j => ?_
      · rw [hrest] at hm
        exact h.carries m (Runs.mem_of_mem_rest hpick hm)
      · have hothers := fromOthers_perm arrives (Runs.perm_of_pick hpick) j
        rw [fromOthers_cons] at hothers
        simp only [missing, hpending, hrest, List.append_assoc]
        refine List.Perm.append_left _ ?_
        rw [← List.append_assoc]
        exact hothers.symm.append_right _
  | internal a =>
      obtain ⟨net, hnet, rfl⟩ := Option.map_eq_some_iff.1 hs
      obtain ⟨hpublishing, hpending, -⟩ := Net.pending_internal hnet ha
      refine h.of_missing (fun m hm => h.carries m (hpublishing ▸ hm)) rfl rfl fun j => ?_
      simp only [missing, hpending, hpublishing]
      exact List.Perm.refl _
  | done i k =>
      obtain ⟨⟨v, net⟩, hnet, rfl⟩ := Option.map_eq_some_iff.1 hs
      obtain ⟨hpublishing, hown, hother⟩ := Net.pending_done (w := w) hnet
      refine ⟨fun m hm => h.carries m (hpublishing ▸ hm), fun j => ?_⟩
      by_cases hj : j = i
      · subst hj
        refine List.Perm.trans ?_ (h.perm j)
        simp only [missing, hpublishing, Function.update_self, List.append_assoc,
          List.singleton_append]
        rw [← List.cons_append]
        exact (hown.symm.append_right _).append_left _
      · simp only [missing, hpublishing, Function.update_of_ne hj, hother j hj]
        exact h.perm j
  | fail k =>
      obtain ⟨⟨⟨i, v⟩, net⟩, hnet, rfl⟩ := Option.map_eq_some_iff.1 hs
      obtain ⟨hperm, hpending⟩ := Net.pending_fail (w := w) hnet
      refine h.of_missing (fun m' hm' => h.carries m' (hperm.mem_iff.2
        (List.mem_cons_of_mem _ hm'))) rfl rfl fun j => ?_
      have hothers := fromOthers_perm arrives hperm j
      rw [fromOthers_cons] at hothers
      simp only [missing, hpending, fromOthers_cons, List.append_assoc]
      refine List.Perm.append_left _ ((List.perm_append_comm_assoc _ _ _).trans ?_)
      rw [← List.append_assoc]
      exact hothers.symm.append_right _
  | lose i k =>
      obtain ⟨⟨m, net⟩, hnet, rfl⟩ := Option.map_eq_some_iff.1 hs
      obtain ⟨hpublishing, hown, hother, -⟩ := Net.pending_lose (w := w) hnet
      refine h.of_missing (fun m' hm' => h.carries m' (hpublishing ▸ hm')) rfl rfl fun j => ?_
      by_cases hj : j = i
      · subst hj
        have hlost : w.values j (m :: s.lost j) = w.values j [m] ++ w.values j (s.lost j) :=
          List.filterMap_append (l := [m])
        simp only [missing, hpublishing, Function.update_self, hlost]
        refine List.Perm.trans ?_ (hown.symm.append_right _)
        rw [List.append_assoc]
        refine ((List.Perm.append_left _ ?_).trans (List.perm_append_comm_assoc _ _ _))
        exact ((List.perm_append_comm_assoc _ _ _).append_left _).trans
          (List.perm_append_comm_assoc _ _ _)
      · simp only [missing, hpublishing, Function.update_of_ne hj, hother j hj]
        exact List.Perm.refl _

/-- **Nothing is doubled, and what is missing is accounted for**, in every run. -/
theorem conserved_run {s : Log n M V} {as : List (Action n M V)}
    (hallowed : ∀ a ∈ as, Allowed w arrives a)
    (hrun : Runs.run (Log.step w) empty as = some s) : s.Conserved w arrives :=
  Runs.run_invariant_of_meets (Log.step w) (fun _ _ _ h ha hs => h.step ha hs) conserved_empty
    (Runs.meets_of_invariant (Log.step w) (I := fun _ => True)
      (fun _ _ _ _ ha _ => ⟨trivial, ha⟩) trivial hallowed hrun) hrun

/-- No node receives more than the others were given. -/
theorem Conserved.subperm {s : Log n M V} (h : s.Conserved w arrives) (j : Fin n) :
    (s.received j).Subperm (fromOthers arrives j s.given) :=
  (List.sublist_append_left _ _).subperm.trans (h.perm j).subperm

/-- Once nothing is under way, and if nothing went wrong, every node has received what the others
were given. -/
theorem Conserved.perm_of_quiescent {s : Log n M V} (h : s.Conserved w arrives)
    (hq : s.net.Quiescent) (hfailed : s.failed = []) {j : Fin n} (hlost : s.lost j = []) :
    (s.received j).Perm (fromOthers arrives j s.given) := by
  have hperm := h.perm j
  rw [missing, Net.pending_of_quiescent hq, hq.1, hfailed, hlost] at hperm
  simpa [fromOthers, Wire.values] using hperm

/-- A value gets from one of two nodes to the other, and then nothing is under way. -/
theorem exists_run_of_carries {w : Wire 2 M V} {v : V} (hworkers : 0 < w.workers)
    (h : w.Carries arrives 0 v) :
    ∃ s, Runs.run (Log.step w) .empty [.give 0 v, .publish 0, .internal (.next 0),
        .internal (.next 1), .internal (.handOff 1), .done 1 0] = some s ∧
      s.net.Quiescent ∧ s.given = [(0, v)] ∧ s.failed = [] ∧ ∀ j, s.lost j = [] := by
  obtain ⟨m, hwrite, hread⟩ := h
  have hown : w.read 0 m = some none := hread 0
  have hother : w.read 1 m = some (some (arrives v)) := hread 1
  simp [Runs.run, Log.step, Log.empty, Net.empty, Net.start, Net.publish, Runs.pick, hwrite,
    Net.deliver, Net.internal, Net.next, hown, hother, Net.handOff, Net.done, hworkers,
    Net.Quiescent, Fin.forall_fin_two]

end Log

end Broadcast
