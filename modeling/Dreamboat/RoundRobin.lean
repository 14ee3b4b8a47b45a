/-
**Which connection a request takes.**

`Next` hands out the connections of the list in turn: it counts its calls with a number of 32 bits
that wraps around, and takes the place that this number leaves modulo the length of the list.
`Get` adds a check of the connection, and `TryOtherThan` is asked for another one when a request
over the first has failed.

The arithmetic has corners.  The list is empty until a first connection is made, and again whenever
the only one is removed; then `Next` divides by zero.  When the counter wraps around, its value is
zero, and the place is minus one.  And `TryOtherThan` is given the value of the counter where it
expects a place, so that the connection it hands out may be the one that has just failed.  This
module says for which lists and counters each of this happens.

Main definitions:

* `ReConn.next`, `ReConn.get`, `ReConn.tryOtherThan` — the three functions; `none` is a panic;
* `ReConn.Safe` — `Next` and `Get` hand out a connection of the list, or an error;
* `ReConn.Distinct` — no connection stands in the list twice.

Main results:

* `ReConn.next_of_ne_last`, `ReConn.next_last` — the connection that is next;
* `ReConn.safe_iff` — **`Next` and `Get` do not panic exactly if there is a connection and the
  counter does not wrap around, or there is only one**;
* `ReConn.distinct_step`, `ReConn.distinct_of_run` — one step, and a run, of the loops that keep the
  connections;
* `ReConn.otherPlace_ne_iff`, `ReConn.exists_other_iff` — the place of the other connection, and
  that it decides;
* `ReConn.otherThan_iff` — **when the other connection is another one**.
-/

import Mathlib.Algebra.Group.Nat.Defs
import Dreamboat.ReConn
import Dreamboat.Structs

set_option autoImplicit false

namespace Dreamboat

namespace ReConn

/-! ### The functions -/

/-- `rc.c[i]`; `none` is a panic. -/
def index (conns : List ℕ) (i : ℤ) : Option ℕ := if i < 0 then none else conns[i.toNat]?

/-- `Next`: the connection and the new value of the counter. -/
def next (conns : List ℕ) (counter : UInt32) : Option (ℕ × UInt32) :=
  let n := counter + 1
  -- a division by zero
  if conns.length = 0 then none
  else (index conns (((n.toNat : ℤ) - 1).tmod conns.length)).map fun conn => (conn, n)

variable (healthy : ℕ → Bool)

/-- The check of a connection before it is handed out. -/
def checked {α : Type} (conn : ℕ) (a : α) : Except GoError α :=
  if healthy conn then .ok a else .error (.sentinel .errConnectionFailure)

/-- `Get`. -/
def get (conns : List ℕ) (counter : UInt32) : Option (Except GoError (ℕ × UInt32)) :=
  (next conns counter).map fun r => checked healthy r.1 r

/-- `TryOtherThan`. -/
def tryOtherThan (conns : List ℕ) (e : UInt32) : Option (Except GoError ℕ) :=
  let l := UInt32.ofNat conns.length
  if l < 2 then some (.error (.sentinel .errConnectionFailure))
  else
    (index conns (if l - 1 > e then (e + 1).toNat else 0)).map fun conn => checked healthy conn conn

/-! ### The next connection -/

/-- The last value of the counter before it wraps around. -/
def last : UInt32 := 4294967295

variable {healthy} {conns : List ℕ} {counter : UInt32}

theorem toNat_succ (h : counter ≠ last) : (counter + 1).toNat = counter.toNat + 1 := by
  have hlt := counter.toNat_lt
  have hne : counter.toNat ≠ 4294967295 := fun heq => h (UInt32.toNat_inj.1 heq)
  rw [UInt32.toNat_add, UInt32.toNat_one]
  omega

theorem index_natCast (conns : List ℕ) (i : ℕ) : index conns i = conns[i]? := by
  rw [index, if_neg (by omega), Int.toNat_natCast]

/-- The connections are handed out in turn. -/
theorem next_of_ne_last (h : counter ≠ last) :
    next conns counter =
      conns[counter.toNat % conns.length]?.map fun conn => (conn, counter + 1) := by
  unfold next
  split
  · next hnil => simp [List.length_eq_zero_iff.1 hnil]
  · have hplace : (((counter + 1).toNat : ℤ) - 1).tmod conns.length =
        ((counter.toNat % conns.length : ℕ) : ℤ) := by
      have hpred : ((counter.toNat + 1 : ℕ) : ℤ) - 1 = counter.toNat := by omega
      rw [toNat_succ h, hpred, Int.ofNat_tmod]
    dsimp only
    rw [hplace, index_natCast]

/-- When the counter wraps around, the place is minus one modulo the length. -/
theorem next_last (conns : List ℕ) :
    next conns last = if conns.length = 1 then conns.head?.map fun conn => (conn, 0) else none := by
  have hzero : (((last + 1).toNat : ℤ) - 1) = -1 := by decide
  match conns with
  | [] => rfl
  | [conn] =>
      have hplace : (-1 : ℤ).tmod [conn].length = 0 := Int.tmod_one _
      rw [if_pos List.length_singleton, next, if_neg (by simp), hzero, hplace]
      rfl
  | conn :: conn' :: conns =>
      have hplace : (-1 : ℤ).tmod (conn :: conn' :: conns).length = -1 := by
        rw [Int.neg_tmod, Int.tmod_eq_of_lt (by decide)
          (by rw [List.length_cons, List.length_cons]; omega)]
      rw [if_neg (by simp), next, if_neg (by simp), hzero, hplace]
      rfl

/-- The functions hand out a connection of the list, or an error. -/
structure Safe (healthy : ℕ → Bool) (conns : List ℕ) (counter : UInt32) : Prop where
  next : ∃ conn n, ReConn.next conns counter = some (conn, n) ∧ conn ∈ conns
  get : ∃ r, ReConn.get healthy conns counter = some r ∧ ∀ conn n, r = .ok (conn, n) → conn ∈ conns

theorem safe_of_next {conn : ℕ} {n : UInt32} (h : next conns counter = some (conn, n))
    (hmem : conn ∈ conns) : Safe healthy conns counter := by
  refine ⟨⟨conn, n, h, hmem⟩, checked healthy conn (conn, n), by rw [ReConn.get, h]; rfl, ?_⟩
  intro conn' n' hr
  unfold checked at hr
  split at hr
  · cases hr
    exact hmem
  · cases hr

/-- **`Next` and `Get` do not panic** exactly if there is a connection, and either the counter does
not wrap around or the connection is the only one. -/
theorem safe_iff (healthy : ℕ → Bool) (conns : List ℕ) (counter : UInt32) :
    Safe healthy conns counter ↔ conns ≠ [] ∧ (counter ≠ last ∨ conns.length = 1) := by
  constructor
  · rintro ⟨⟨conn, n, hnext, hmem⟩, -⟩
    refine ⟨List.ne_nil_of_mem hmem, ?_⟩
    by_contra hwrap
    obtain ⟨hlast, hone⟩ := not_or.1 hwrap
    rw [not_not.1 hlast, next_last, if_neg hone] at hnext
    cases hnext
  · rintro ⟨hne, hwrap⟩
    by_cases hlast : counter = last
    · have hone := hwrap.resolve_left (not_not.2 hlast)
      obtain ⟨conn, rfl⟩ := List.length_eq_one_iff.1 hone
      rw [hlast]
      exact safe_of_next (by rw [next_last, if_pos hone]; rfl) (List.mem_singleton.2 rfl)
    · have hlt : counter.toNat % conns.length < conns.length :=
        Nat.mod_lt _ (List.length_pos_iff.2 hne)
      refine safe_of_next (n := counter + 1) ?_ (List.getElem_mem hlt)
      rw [next_of_ne_last hlast, List.getElem?_eq_getElem hlt]
      rfl

/-- One connection that is not made; there is none until the next attempt. -/
def onlyFails : List Action :=
  [.keepConnection "ws://a", .append 0, .connectFailed 0, .remove 0]

/-- Two connections that are made. -/
def twoConnect : List Action :=
  [.keepConnection "ws://a", .keepConnection "ws://b", .append 0, .append 1, .connectOk 0,
    .connectOk 1]

/-- Without a connection `Next` divides by zero, and with two it takes the place minus one when the
counter wraps around. -/
theorem next_panics :
    (∃ s, Runs.run step newReConn onlyFails = some s ∧
      s.c = [] ∧ next s.c 0 = none ∧ get (fun _ => true) s.c 0 = none) ∧
    ∃ s, Runs.run step newReConn twoConnect = some s ∧
      s.c = [0, 1] ∧ next s.c last = none ∧ get (fun _ => true) s.c last = none :=
  ⟨Runs.exists_run_of_any step (by decide +kernel), Runs.exists_run_of_any step (by decide +kernel)⟩

/-! ### The list of a run -/

/-- No connection stands in the list twice, and none is from the future. -/
structure Distinct (s : State) : Prop where
  nodup : s.c.Nodup
  lt : ∀ conn ∈ s.c, conn < s.made

theorem distinct_newReConn : Distinct newReConn := ⟨List.nodup_nil, by simp [newReConn]⟩

theorem Distinct.of_remove {s : State} (h : Distinct s) {connID : ℕ} {conns : List ℕ}
    (hremove : remove s.c connID = some conns) : conns.Nodup ∧ ∀ conn ∈ conns, conn < s.made := by
  have hne : s.c ≠ [] := by
    intro hnil
    rw [hnil] at hremove
    cases hremove
  rcases perm_of_remove hne connID with ⟨x, c', hc', hperm, -⟩ | ⟨hnone, -⟩
  · obtain rfl : c' = conns := Option.some_inj.1 (hc'.symm.trans hremove)
    exact ⟨(List.nodup_cons.1 (hperm.nodup_iff.1 h.nodup)).2,
      fun conn hmem => h.lt conn (hperm.mem_iff.2 (List.mem_cons_of_mem _ hmem))⟩
  · rw [hnone] at hremove
    cases hremove

theorem distinct_step {s s' : State} {a : Action} (h : Distinct s) (hs : step s a = some s') :
    Distinct s' := by
  obtain ⟨-, hcases⟩ := step_cases hs
  obtain ⟨url, -, rfl⟩ | ⟨k, loop, -, hloop, hidle, rfl⟩ | ⟨k, loop, stage, -, hloop, hconn, rfl⟩ |
    ⟨k, loop, conn, connID, -, hloop, hstage, hremove⟩ := hcases
  · exact ⟨h.nodup, h.lt⟩
  · have hperm : (s.c ++ [s.made]).Perm (s.made :: s.c) := List.perm_append_singleton _ _
    refine ⟨hperm.nodup_iff.2 (List.nodup_cons.2 ⟨?_, h.nodup⟩), fun conn hmem => ?_⟩
    · exact fun hmem => absurd (h.lt _ hmem) (Nat.lt_irrefl _)
    · rcases List.mem_cons.1 (hperm.mem_iff.1 hmem) with rfl | hmem
      · exact Nat.lt_succ_self _
      · exact Nat.lt_succ_of_lt (h.lt conn hmem)
  · exact ⟨h.nodup, h.lt⟩
  · obtain ⟨conns, hc, rfl⟩ | ⟨-, rfl⟩ := hremove
    · obtain ⟨hnodup, hlt⟩ := h.of_remove hc
      exact ⟨hnodup, hlt⟩
    · exact ⟨h.nodup, h.lt⟩

theorem distinct_of_run {as : List Action} {s : State}
    (hrun : Runs.run step newReConn as = some s) : Distinct s :=
  Runs.run_invariant step (fun _ _ _ h hs => distinct_step h hs) distinct_newReConn hrun

/-! ### The other connection -/

/-- The value of `uint32(len(rc.c))`. -/
def len32 (conns : List ℕ) : ℕ := conns.length % 2 ^ 32

theorem toNat_ofNat_length (conns : List ℕ) : (UInt32.ofNat conns.length).toNat = len32 conns :=
  UInt32.toNat_ofNat'

/-- The place that `TryOtherThan` takes in a list of length `l`. -/
def otherPlace (l e : ℕ) : ℕ := if e < l - 1 then e + 1 else 0

theorem tryOtherThan_of_lt_two {e : UInt32} (h : len32 conns < 2) :
    tryOtherThan healthy conns e = some (.error (.sentinel .errConnectionFailure)) := by
  have hlt : UInt32.ofNat conns.length < 2 := by
    rw [UInt32.lt_iff_toNat_lt, toNat_ofNat_length]
    exact h
  rw [tryOtherThan, if_pos hlt]

theorem tryOtherThan_of_two_le {e : UInt32} (h : 2 ≤ len32 conns) :
    tryOtherThan healthy conns e =
      conns[otherPlace (len32 conns) e.toNat]?.map fun conn => checked healthy conn conn := by
  have hl := toNat_ofNat_length conns
  have hlt : len32 conns < 2 ^ 32 := Nat.mod_lt _ (by decide)
  have hge : ¬UInt32.ofNat conns.length < 2 := by
    rw [UInt32.lt_iff_toNat_lt, hl]
    exact Nat.not_lt.2 h
  have hpred : (UInt32.ofNat conns.length - 1).toNat = len32 conns - 1 := by
    rw [UInt32.toNat_sub_of_le, hl, UInt32.toNat_one]
    rw [UInt32.le_iff_toNat_le, hl, UInt32.toNat_one]
    omega
  have hbelow : UInt32.ofNat conns.length - 1 > e ↔ e.toNat < len32 conns - 1 := by
    rw [gt_iff_lt, UInt32.lt_iff_toNat_lt, hpred]
  have hplace : (if UInt32.ofNat conns.length - 1 > e then (((e + 1).toNat : ℕ) : ℤ) else 0) =
      (otherPlace (len32 conns) e.toNat : ℕ) := by
    unfold otherPlace
    by_cases he : e.toNat < len32 conns - 1
    · rw [if_pos he, if_pos (hbelow.2 he), UInt32.toNat_add, UInt32.toNat_one]
      omega
    · rw [if_neg he, if_neg (mt hbelow.1 he)]
      rfl
  rw [tryOtherThan, if_neg hge, hplace, index_natCast]

/-- The place of the other connection is the one of the first exactly when that is the beginning of
the list, unless it is the very first call and the list has more than two connections. -/
theorem otherPlace_ne_iff {length l counter : ℕ} (hl : 2 ≤ l) (hle : l ≤ length) :
    otherPlace l (counter + 1) ≠ counter % length ↔
      ¬length ∣ counter ∨ counter = 0 ∧ l ≠ 2 := by
  rw [otherPlace, Nat.dvd_iff_mod_eq_zero]
  split
  · next hlt =>
      rw [Nat.mod_eq_of_lt (show counter < length by omega)]
      omega
  · omega

theorem otherPlace_lt {length l e : ℕ} (hl : 2 ≤ l) (hle : l ≤ length) :
    otherPlace l e < length := by
  unfold otherPlace
  split
  · omega
  · omega

/-! ### Two healthy connections -/

section Healthy

variable (hhealthy : ∀ conn ∈ conns, healthy conn = true)
include hhealthy

theorem get_of_healthy (hlast : counter ≠ last)
    (hi : counter.toNat % conns.length < conns.length) :
    get healthy conns counter =
      some (.ok (conns[counter.toNat % conns.length], counter + 1)) := by
  rw [get, next_of_ne_last hlast, List.getElem?_eq_getElem hi, Option.map_some, Option.map_some,
    checked, if_pos (hhealthy _ (List.getElem_mem hi))]

theorem tryOtherThan_of_healthy {e : UInt32} (hl : 2 ≤ len32 conns)
    (hj : otherPlace (len32 conns) e.toNat < conns.length) :
    tryOtherThan healthy conns e = some (.ok conns[otherPlace (len32 conns) e.toNat]) := by
  rw [tryOtherThan_of_two_le hl, List.getElem?_eq_getElem hj, Option.map_some, checked,
    if_pos (hhealthy _ (List.getElem_mem hj))]

/-- When the counter does not wrap around, the other connection is another one exactly if its place
is. -/
theorem exists_other_iff (hnodup : conns.Nodup) (hlast : counter ≠ last) (hpos : 0 < conns.length) :
    (∀ conn n, get healthy conns counter = some (.ok (conn, n)) →
      ∃ other, tryOtherThan healthy conns n = some (.ok other) ∧ other ≠ conn) ↔
    2 ≤ len32 conns ∧
      otherPlace (len32 conns) (counter.toNat + 1) ≠ counter.toNat % conns.length := by
  have hi : counter.toNat % conns.length < conns.length := Nat.mod_lt _ hpos
  have hget := get_of_healthy hhealthy hlast hi
  by_cases hl : 2 ≤ len32 conns
  · have hj : otherPlace (len32 conns) (counter + 1).toNat < conns.length :=
      otherPlace_lt hl (Nat.mod_le _ _)
    have htry := tryOtherThan_of_healthy hhealthy hl hj
    rw [and_iff_right hl, ← toNat_succ hlast]
    constructor
    · intro h heq
      obtain ⟨other, hother, hne⟩ := h _ _ hget
      rw [htry, Option.some_inj, Except.ok.injEq] at hother
      exact hne (hother.symm.trans (hnodup.getElem_inj_iff.2 heq))
    · intro hplace conn n hconn
      rw [hget] at hconn
      cases hconn
      exact ⟨_, htry, fun heq => hplace (hnodup.getElem_inj_iff.1 heq)⟩
  · refine iff_of_false (fun h => ?_) fun h => hl h.1
    obtain ⟨other, hother, -⟩ := h _ _ hget
    rw [tryOtherThan_of_lt_two (Nat.not_le.1 hl)] at hother
    cases hother

end Healthy

/-- **The other connection.**  With at least two connections, all of them healthy, `TryOtherThan`
hands out another connection than `Get`, exactly if the counter wraps around, which is a panic of
`Get`; or the length of the list, as a number of 32 bits, is at least two, and `Get` has not handed
out the beginning of the list, or has done so in the very first call and the length is not two. -/
theorem otherThan_iff (as : List Action) (s : State) (hrun : Runs.run step newReConn as = some s)
    (healthy : ℕ → Bool) (hhealthy : ∀ conn ∈ s.c, healthy conn = true) (htwo : 2 ≤ s.c.length)
    (counter : UInt32) :
    (∀ conn n, get healthy s.c counter = some (.ok (conn, n)) →
      ∃ other, tryOtherThan healthy s.c n = some (.ok other) ∧ other ≠ conn) ↔
    counter = last ∨ 2 ≤ len32 s.c ∧
      (¬s.c.length ∣ counter.toNat ∨ counter.toNat = 0 ∧ len32 s.c ≠ 2) := by
  by_cases hlast : counter = last
  · refine iff_of_true (fun conn n hget => ?_) (Or.inl hlast)
    rw [get, hlast, next_last, if_neg (by omega)] at hget
    cases hget
  · rw [or_iff_right hlast,
      exists_other_iff hhealthy (distinct_of_run hrun).nodup hlast (by omega)]
    exact and_congr_right fun hl => otherPlace_ne_iff hl (Nat.mod_le _ _)

/-- Three connections that are made. -/
def threeConnect : List Action :=
  [.keepConnection "ws://a", .keepConnection "ws://b", .keepConnection "ws://c", .append 0,
    .append 1, .append 2, .connectOk 0, .connectOk 1, .connectOk 2]

/-- With three connections the second call has another one to go to. -/
theorem otherThan_threeConnect :
    ∃ s, Runs.run step newReConn threeConnect = some s ∧ 2 ≤ s.c.length ∧
      ∀ conn n, get (fun _ => true) s.c 1 = some (.ok (conn, n)) →
        ∃ other, tryOtherThan (fun _ => true) s.c n = some (.ok other) ∧ other ≠ conn := by
  obtain ⟨s, hrun, hc⟩ : ∃ s, Runs.run step newReConn threeConnect = some s ∧ s.c = [0, 1, 2] :=
    Runs.exists_run_of_any step (by decide +kernel)
  have htwo : 2 ≤ s.c.length := by rw [hc]; decide
  exact ⟨s, hrun, htwo, (otherThan_iff threeConnect s hrun (fun _ => true) (fun _ _ => rfl) htwo
    1).2 (by rw [hc]; decide +kernel)⟩

/-- **The connection that has failed is taken again**: with two connections in the very first call,
with three in the fourth. -/
theorem same_connection_again :
    (∃ s, Runs.run step newReConn twoConnect = some s ∧ s.c = [0, 1] ∧
      get (fun _ => true) s.c 0 = some (.ok (0, 1)) ∧
      tryOtherThan (fun _ => true) s.c 1 = some (.ok 0)) ∧
    ∃ s, Runs.run step newReConn threeConnect = some s ∧ s.c = [0, 1, 2] ∧
      get (fun _ => true) s.c 3 = some (.ok (0, 4)) ∧
      tryOtherThan (fun _ => true) s.c 4 = some (.ok 0) :=
  ⟨Runs.exists_run_of_any step (by decide +kernel), Runs.exists_run_of_any step (by decide +kernel)⟩

end ReConn

end Dreamboat
