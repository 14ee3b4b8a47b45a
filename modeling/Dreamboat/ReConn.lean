/-
**Connections that are opened again.**

`KeepConnection` of `src/sim/client/transport/gethws/gethws.go` runs once for every websocket
address. It puts a new connection at the end of the list that all loops share, remembers the place,
and when the connection has failed or is closed, it overwrites the place with the last connection
and cuts the list. In the meantime other loops may have moved the connection.

The connections are numbers here, in the order in which they are made.

Main definitions:

* `ReConn.remove` — the removal;
* `ReConn.State`, `ReConn.Action`, `ReConn.step` — the loops;
* `ReConn.Exact` — no loop has panicked, and the list holds the connections in use;
* `ReConn.InPlace` — the connection to be removed is where it was put.

Main results:

* `ReConn.perm_of_remove` — what a removal removes;
* `ReConn.exact_iff` — **the list is right all along a run exactly when every connection is removed
  from the place where it was put**, or is the only one.
-/

import Dreamboat.Runs
import Mathlib.Data.List.Nodup

set_option autoImplicit false

namespace Dreamboat

namespace ReConn

/-! ### The list -/

/-- `rc.c` without a connection that was the `connID`-th one; `none` is a panic. -/
def remove (c : List ℕ) (connID : ℕ) : Option (List ℕ) :=
  if c.length = 1 then some []
  else
    match c.getLast? with
    | none => none
    | some last => if connID - 1 < c.length then some (c.set (connID - 1) last).dropLast else none

/-! ### The loops -/

/-- How far the loop of an address is.  It has its connection, and the number `connID` of the place,
from the append to the removal. -/
inductive Stage where
  | idle
  | connecting (conn connID : ℕ)
  /-- It waits for `c.Done`. -/
  | connected (conn connID : ℕ)
  /-- Connecting has failed, or the connection is closed. -/
  | removing (conn connID : ℕ)
  deriving DecidableEq

def Stage.conn : Stage → Option ℕ
  | .idle => none
  | .connecting conn _ | .connected conn _ | .removing conn _ => some conn

structure Loop where
  url : String
  stage : Stage
  deriving DecidableEq

structure State where
  c : List ℕ
  /-- How many connections were made. -/
  made : ℕ
  loops : List Loop
  panicked : Bool
  deriving DecidableEq

def newReConn : State := ⟨[], 0, [], false⟩

inductive Action where
  /-- A loop for another address. -/
  | keepConnection (url : String)
  | append (k : ℕ)
  | connectFailed (k : ℕ)
  | connectOk (k : ℕ)
  /-- The connection is closed. -/
  | done (k : ℕ)
  | remove (k : ℕ)

def setStage (s : State) (k : ℕ) (loop : Loop) (stage : Stage) : State :=
  { s with loops := s.loops.set k { loop with stage } }

/-- One step of a loop.  After a panic there is none. -/
def step (s : State) (a : Action) : Option State :=
  if s.panicked then none
  else
    match a with
    | .keepConnection url =>
        if ∀ loop ∈ s.loops, loop.url ≠ url then some { s with loops := s.loops ++ [⟨url, .idle⟩] }
        else none
    | .append k => do
        let loop ← s.loops[k]?
        match loop.stage with
        | .idle =>
            let c := s.c ++ [s.made]
            return { setStage s k loop (.connecting s.made c.length) with c, made := s.made + 1 }
        | _ => none
    | .connectFailed k => do
        let loop ← s.loops[k]?
        match loop.stage with
        | .connecting conn connID => return setStage s k loop (.removing conn connID)
        | _ => none
    | .connectOk k => do
        let loop ← s.loops[k]?
        match loop.stage with
        | .connecting conn connID => return setStage s k loop (.connected conn connID)
        | _ => none
    | .done k => do
        let loop ← s.loops[k]?
        match loop.stage with
        | .connected conn connID => return setStage s k loop (.removing conn connID)
        | _ => none
    | .remove k => do
        let loop ← s.loops[k]?
        match loop.stage with
        | .removing _ connID =>
            match ReConn.remove s.c connID with
            | some c => return { setStage s k loop .idle with c }
            | none => return { s with panicked := true }
        | _ => none

/-! ### The property and the condition -/

/-- The connections whose loop is between its append and its removal. -/
def live (loops : List Loop) : List ℕ := loops.filterMap fun loop => loop.stage.conn

/-- No loop has panicked, and the list holds exactly the connections in use. -/
def Exact (s : State) : Prop := s.panicked = false ∧ s.c.Perm (live s.loops)

instance (s : State) : Decidable (Exact s) := inferInstanceAs (Decidable (_ ∧ _))

/-- A connection to be removed is the only one, or it is where it was put. -/
def Stage.InPlace (conns : List ℕ) : Stage → Prop
  | .removing conn connID => conns.length = 1 ∨ conns[connID - 1]? = some conn
  | _ => True

instance (conns : List ℕ) : DecidablePred (Stage.InPlace conns)
  | .removing _ _ => inferInstanceAs (Decidable (_ ∨ _))
  | .idle | .connecting _ _ | .connected _ _ => isTrue trivial

/-- A removal finds its connection in its place. -/
def InPlace (s : State) : Action → Prop
  | .remove k => ∀ loop ∈ s.loops[k]?, loop.stage.InPlace s.c
  | _ => True

instance (s : State) : DecidablePred (InPlace s)
  | .remove _ => inferInstanceAs (Decidable (∀ _ ∈ _, _))
  | .keepConnection _ | .append _ | .connectFailed _ | .connectOk _ | .done _ => isTrue trivial

/-- Every connection has one loop. -/
structure Fresh (s : State) : Prop where
  nodup : (live s.loops).Nodup
  lt : ∀ conn ∈ live s.loops, conn < s.made

/-! ### The removal -/

/-- Overwriting a place with the last element and cutting the list removes what was there. -/
theorem perm_set_dropLast {α : Type*} (l : List α) (last : α) (i : ℕ) (hi : i < l.length + 1) :
    ∃ x, (l ++ [last])[i]? = some x ∧
      (l ++ [last]).Perm (x :: ((l ++ [last]).set i last).dropLast) := by
  by_cases h : i < l.length
  · refine ⟨l[i], by simp [List.getElem?_append_left h], ?_⟩
    have hset : ((l ++ [last]).set i last).dropLast = l.set i last := by
      rw [List.set_append_left _ _ h, List.dropLast_concat]
    have hnew := List.getElem_cons_eraseIdx_perm (l := l.set i last) (n := i) (by simpa using h)
    rw [List.getElem_set_self, List.eraseIdx_set_eq] at hnew
    calc (l ++ [last]).Perm (last :: l) := List.perm_append_singleton _ _
      _ |>.Perm (last :: l[i] :: l.eraseIdx i) :=
          (List.getElem_cons_eraseIdx_perm h).symm.cons last
      _ |>.Perm (l[i] :: last :: l.eraseIdx i) := List.Perm.swap _ _ _
      _ |>.Perm (l[i] :: l.set i last) := hnew.cons _
      _ |>.Perm (l[i] :: ((l ++ [last]).set i last).dropLast) := by rw [hset]
  · obtain rfl : i = l.length := by omega
    refine ⟨last, by simp, ?_⟩
    simp

/-- **What a removal removes**: the only connection, or the one in the place. -/
theorem perm_of_remove {conns : List ℕ} (hne : conns ≠ []) (connID : ℕ) :
    (∃ x conns', remove conns connID = some conns' ∧ conns.Perm (x :: conns') ∧
      (conns.length = 1 ∨ conns[connID - 1]? = some x)) ∨
    (remove conns connID = none ∧ conns.length ≠ 1 ∧ conns[connID - 1]? = none) := by
  simp only [remove]
  split
  · next hone =>
      obtain ⟨x, rfl⟩ := List.length_eq_one_iff.1 hone
      exact .inl ⟨x, [], rfl, List.Perm.refl _, .inl hone⟩
  · next hone =>
      obtain ⟨l, last, rfl⟩ := (List.eq_nil_or_concat' conns).resolve_left hne
      by_cases hi : connID - 1 < (l ++ [last]).length
      · obtain ⟨x, hx, hperm⟩ := perm_set_dropLast l last (connID - 1) (by simpa using hi)
        exact .inl ⟨x, _, by simp only [List.getLast?_concat, hi, if_true], hperm, .inr hx⟩
      · exact .inr ⟨by simp only [List.getLast?_concat, hi, if_false], hone,
          List.getElem?_eq_none (by omega)⟩

/-- The removal takes out the connection of its loop exactly when that is the only one or stands in
the place. -/
theorem remove_iff {conns rest : List ℕ} {conn : ℕ} (hnodup : conns.Nodup)
    (hc : conns.Perm (conn :: rest)) (connID : ℕ) :
    (∃ conns', remove conns connID = some conns' ∧ conns'.Perm rest) ↔
      conns.length = 1 ∨ conns[connID - 1]? = some conn := by
  have hne : conns ≠ [] := by
    rintro rfl
    simp at hc
  rcases perm_of_remove hne connID with
    ⟨x, conns', hx, hperm, hwhere⟩ | ⟨hnone, hone, hout⟩
  · -- the list is right exactly when the connection that is gone is the one of the loop
    have hsame : conns'.Perm rest ↔ x = conn := by
      constructor
      · intro hrest
        by_contra hxc
        have hmem : conn ∈ x :: rest := ((hrest.symm.cons x).trans
          (hperm.symm.trans hc)).mem_iff.2 List.mem_cons_self
        have hin : conn ∈ rest := (List.mem_cons.1 hmem).resolve_left fun h => hxc h.symm
        exact (List.nodup_cons.1 (hc.nodup_iff.1 hnodup)).1 hin
      · rintro rfl
        exact (hperm.symm.trans hc).cons_inv
    have hone : conns.length = 1 → x = conn := by
      intro hlen
      obtain ⟨y, rfl⟩ := List.length_eq_one_iff.1 hlen
      have h₁ : x = y := List.mem_singleton.1 (hperm.mem_iff.2 List.mem_cons_self)
      have h₂ : conn = y := List.mem_singleton.1 (hc.mem_iff.2 List.mem_cons_self)
      rw [h₁, h₂]
    simp only [hx, Option.some.injEq, exists_eq_left', hsame]
    constructor
    · rintro rfl
      exact hwhere
    · rintro (hlen | hconn)
      · exact hone hlen
      · rcases hwhere with hlen | hwhere
        · exact hone hlen
        · exact Option.some_inj.1 (hwhere.symm.trans hconn)
  · refine iff_of_false (by simp [hnone]) ?_
    simp [hone, hout]

/-! ### One step -/

variable {s s' : State} {a : Action}

section Live

variable {loops : List Loop} {k : ℕ} {loop : Loop} (h : loops[k]? = some loop)

include h

/-- A loop with a new connection. -/
theorem live_set_connecting (hidle : loop.stage = .idle) (conn connID : ℕ) :
    (live (loops.set k { loop with stage := .connecting conn connID })).Perm
      (conn :: live loops) := by
  obtain ⟨rest, hold, hnew⟩ := Runs.exists_filterMap_rest (fun loop : Loop => loop.stage.conn) h
  simp only [hidle, Stage.conn, Option.toList_none, List.nil_append] at hold
  exact (hnew _).trans (hold.symm.cons conn)

/-- A loop that keeps its connection. -/
theorem live_set_of_conn_eq {stage : Stage} (hconn : stage.conn = loop.stage.conn) :
    (live (loops.set k { loop with stage })).Perm (live loops) := by
  obtain ⟨rest, hold, hnew⟩ := Runs.exists_filterMap_rest (fun loop : Loop => loop.stage.conn) h
  have hnew' := hnew { loop with stage }
  rw [hconn] at hnew'
  exact hnew'.trans hold.symm

/-- A loop without its connection. -/
theorem live_set_idle {conn connID : ℕ} (hstage : loop.stage = .removing conn connID) :
    (live loops).Perm (conn :: live (loops.set k { loop with stage := .idle })) := by
  obtain ⟨rest, hold, hnew⟩ := Runs.exists_filterMap_rest (fun loop : Loop => loop.stage.conn) h
  simp only [hstage, Stage.conn, Option.toList_some, List.singleton_append] at hold
  exact hold.trans ((hnew { loop with stage := .idle }).symm.cons conn)

end Live

/-- **Everything a step can do**: a new loop, a new connection, a change that leaves the connections
alone, and a removal. -/
theorem step_cases (h : step s a = some s') : s.panicked = false ∧
    ((∃ url, a = .keepConnection url ∧ s' = { s with loops := s.loops ++ [⟨url, .idle⟩] }) ∨
    (∃ k loop, a = .append k ∧ s.loops[k]? = some loop ∧ loop.stage = .idle ∧
      s' = { setStage s k loop (.connecting s.made (s.c.length + 1)) with
        c := s.c ++ [s.made], made := s.made + 1 }) ∨
    (∃ k loop stage, (∀ j, a ≠ .remove j) ∧ s.loops[k]? = some loop ∧
      stage.conn = loop.stage.conn ∧ s' = setStage s k loop stage) ∨
    (∃ k loop conn connID, a = .remove k ∧ s.loops[k]? = some loop ∧
      loop.stage = .removing conn connID ∧
      ((∃ c, remove s.c connID = some c ∧ s' = { setStage s k loop .idle with c }) ∨
        remove s.c connID = none ∧ s' = { s with panicked := true }))) := by
  simp only [step] at h
  split at h
  · cases h
  next hpanicked =>
  refine ⟨by simpa using hpanicked, ?_⟩
  cases a with
  | keepConnection url =>
      simp only at h
      split at h
      · exact .inl ⟨url, rfl, (Option.some_inj.1 h).symm⟩
      · cases h
  | append k =>
      obtain ⟨loop, hloop, h⟩ := Option.bind_eq_some_iff.1 h
      cases hstage : loop.stage with
      | idle =>
          rw [hstage] at h
          refine .inr (.inl ⟨k, loop, rfl, hloop, hstage, ?_⟩)
          rw [← Option.some_inj.1 h]
          simp
      | connecting conn connID => simp [hstage] at h
      | connected conn connID => simp [hstage] at h
      | removing conn connID => simp [hstage] at h
  | connectFailed k =>
      obtain ⟨loop, hloop, h⟩ := Option.bind_eq_some_iff.1 h
      refine .inr (.inr (.inl ⟨k, loop, ?_⟩))
      cases hstage : loop.stage with
      | connecting conn connID =>
          rw [hstage] at h
          exact ⟨.removing conn connID, by simp, hloop, rfl, (Option.some_inj.1 h).symm⟩
      | idle => simp [hstage] at h
      | connected conn connID => simp [hstage] at h
      | removing conn connID => simp [hstage] at h
  | connectOk k =>
      obtain ⟨loop, hloop, h⟩ := Option.bind_eq_some_iff.1 h
      refine .inr (.inr (.inl ⟨k, loop, ?_⟩))
      cases hstage : loop.stage with
      | connecting conn connID =>
          rw [hstage] at h
          exact ⟨.connected conn connID, by simp, hloop, rfl, (Option.some_inj.1 h).symm⟩
      | idle => simp [hstage] at h
      | connected conn connID => simp [hstage] at h
      | removing conn connID => simp [hstage] at h
  | done k =>
      obtain ⟨loop, hloop, h⟩ := Option.bind_eq_some_iff.1 h
      refine .inr (.inr (.inl ⟨k, loop, ?_⟩))
      cases hstage : loop.stage with
      | connected conn connID =>
          rw [hstage] at h
          exact ⟨.removing conn connID, by simp, hloop, rfl, (Option.some_inj.1 h).symm⟩
      | idle => simp [hstage] at h
      | connecting conn connID => simp [hstage] at h
      | removing conn connID => simp [hstage] at h
  | remove k =>
      obtain ⟨loop, hloop, h⟩ := Option.bind_eq_some_iff.1 h
      cases hstage : loop.stage with
      | removing conn connID =>
          rw [hstage] at h
          refine .inr (.inr (.inr ⟨k, loop, conn, connID, rfl, hloop, hstage, ?_⟩))
          cases hremove : remove s.c connID with
          | some c =>
              simp only [hremove] at h
              exact .inl ⟨c, rfl, (Option.some_inj.1 h).symm⟩
          | none =>
              simp only [hremove] at h
              exact .inr ⟨rfl, (Option.some_inj.1 h).symm⟩
      | idle => simp [hstage] at h
      | connecting conn connID => simp [hstage] at h
      | connected conn connID => simp [hstage] at h

/-- Every connection keeps its loop. -/
theorem fresh_step (hfresh : Fresh s) (h : step s a = some s') : Fresh s' := by
  obtain ⟨-, hcases⟩ := step_cases h
  obtain ⟨url, -, rfl⟩ | ⟨k, loop, -, hloop, hidle, rfl⟩ | ⟨k, loop, stage, -, hloop, hconn, rfl⟩ |
    ⟨k, loop, conn, connID, -, hloop, hstage, hremove⟩ := hcases
  · have hlive : live (s.loops ++ [⟨url, .idle⟩]) = live s.loops := by
      simp [live, Stage.conn]
    exact ⟨hlive ▸ hfresh.nodup, hlive ▸ hfresh.lt⟩
  · have hperm := live_set_connecting hloop hidle s.made (s.c.length + 1)
    refine ⟨hperm.nodup_iff.2 (List.nodup_cons.2 ⟨?_, hfresh.nodup⟩), ?_⟩
    · intro hmem
      exact absurd (hfresh.lt _ hmem) (Nat.lt_irrefl _)
    · intro conn hmem
      rcases List.mem_cons.1 (hperm.mem_iff.1 hmem) with rfl | hmem
      · exact Nat.lt_succ_self _
      · exact Nat.lt_succ_of_lt (hfresh.lt conn hmem)
  · have hperm := live_set_of_conn_eq hloop hconn
    exact ⟨hperm.nodup_iff.2 hfresh.nodup, fun conn hmem => hfresh.lt conn (hperm.mem_iff.1 hmem)⟩
  · have hperm := live_set_idle hloop hstage
    obtain ⟨c, -, rfl⟩ | ⟨-, rfl⟩ := hremove
    · exact ⟨(List.nodup_cons.1 (hperm.nodup_iff.1 hfresh.nodup)).2,
        fun x hmem => hfresh.lt x (hperm.mem_iff.2 (List.mem_cons_of_mem _ hmem))⟩
    · exact ⟨hfresh.nodup, hfresh.lt⟩

/-- **One step breaks the list exactly when** it removes a connection that has been moved. -/
theorem exact_step (hfresh : Fresh s) (hexact : Exact s) (h : step s a = some s') :
    Exact s' ↔ InPlace s a := by
  obtain ⟨-, hc⟩ := hexact
  obtain ⟨hpanicked, hcases⟩ := step_cases h
  obtain ⟨url, rfl, rfl⟩ | ⟨k, loop, rfl, hloop, hidle, rfl⟩ |
    ⟨k, loop, stage, ha, hloop, hconn, rfl⟩ |
    ⟨k, loop, conn, connID, rfl, hloop, hstage, hremove⟩ := hcases
  · refine iff_of_true ⟨hpanicked, ?_⟩ trivial
    simpa [live, Stage.conn] using hc
  · refine iff_of_true ⟨hpanicked, ?_⟩ trivial
    calc (s.c ++ [s.made]).Perm (s.made :: s.c) := List.perm_append_singleton _ _
      _ |>.Perm (s.made :: live s.loops) := hc.cons _
      _ |>.Perm _ := (live_set_connecting hloop hidle _ _).symm
  · refine iff_of_true ⟨hpanicked, hc.trans (live_set_of_conn_eq hloop hconn).symm⟩ ?_
    cases a with
    | remove j => exact absurd rfl (ha j)
    | keepConnection url => trivial
    | append j => trivial
    | connectFailed j => trivial
    | connectOk j => trivial
    | done j => trivial
  · have hplace : InPlace s (.remove k) ↔ s.c.length = 1 ∨ s.c[connID - 1]? = some conn := by
      simp [InPlace, hloop, hstage, Stage.InPlace]
    rw [hplace, ← remove_iff (hc.nodup_iff.2 hfresh.nodup)
      (hc.trans (live_set_idle hloop hstage)) connID]
    obtain ⟨c, hc', rfl⟩ | ⟨hnone, rfl⟩ := hremove
    · simp [Exact, setStage, hpanicked, hc']
    · simp [Exact, hnone]

/-! ### Every run -/

theorem fresh_newReConn : Fresh newReConn := ⟨List.nodup_nil, by simp [newReConn, live]⟩

theorem exact_newReConn : Exact newReConn := ⟨rfl, List.Perm.refl _⟩

/-- **When the list is right.**  In every run of any number of loops, no loop panics and the list
holds exactly the connections in use, in all the states of the run, if and only if every connection
is the only one when it is removed, or still where it was put. -/
theorem exact_iff (as : List Action) (s : State) (hrun : Runs.run step newReConn as = some s) :
    (∀ t, Runs.Visits step newReConn as t → Exact t) ↔ Runs.Meets step InPlace newReConn as := by
  have hfresh : ∀ t, Runs.Visits step newReConn as t → Fresh t := by
    rintro t ⟨pre, post, -, hpre⟩
    exact Runs.run_invariant step (fun _ _ _ h hs => fresh_step h hs) fresh_newReConn hpre
  have hiff := Runs.forall_visits_iff_meets step (P := fun s => Fresh s ∧ Exact s) (C := InPlace)
    (fun s a s' h hs => by
      rw [← exact_step h.1 h.2 hs]
      exact and_iff_right (fresh_step h.1 hs)) ⟨fresh_newReConn, exact_newReConn⟩ hrun
  rw [← hiff]
  constructor
  · intro h t ht
    exact ⟨hfresh t ht, h t ht⟩
  · intro h t ht
    exact (h t ht).2

/-- Two loops; the one that came last fails and begins again, and then the other one fails. -/
def lastFails : List Action :=
  [.keepConnection "ws://a", .keepConnection "ws://b", .append 0, .append 1, .connectOk 0,
    .connectFailed 1, .remove 1, .append 1, .connectOk 1, .done 1, .remove 1, .done 0, .remove 0]

theorem exact_iff_lastFails : ∃ s, Runs.run step newReConn lastFails = some s ∧
    ∀ t, Runs.Visits step newReConn lastFails t → Exact t := by
  obtain ⟨s, hrun, -⟩ : ∃ s, Runs.run step newReConn lastFails = some s ∧ s.c = [] :=
    Runs.exists_run_of_any step (by decide)
  exact ⟨s, hrun, (exact_iff lastFails s hrun).2 (by decide)⟩

/-- Two loops; the first one fails and begins again, and then the other connection is closed. -/
def firstFails : List Action :=
  [.keepConnection "ws://a", .keepConnection "ws://b", .append 0, .append 1, .connectOk 1,
    .connectFailed 0, .remove 0, .append 0, .connectOk 0, .done 1, .remove 1]

/-- Three loops; the first one fails, and then the last one. -/
def firstAndLastFail : List Action :=
  [.keepConnection "ws://a", .keepConnection "ws://b", .keepConnection "ws://c", .append 0,
    .append 1, .append 2, .connectFailed 0, .remove 0, .connectFailed 2, .remove 2]

/-- With two loops, the connection 1 that is closed stays in the list and the connection 2 that is
in use is dropped; with three loops, a removal indexes outside the list. -/
theorem wrong_connection_removed :
    (∃ s, Runs.run step newReConn firstFails = some s ∧
      s.c = [1] ∧ live s.loops = [2] ∧ ¬Exact s) ∧
    ∃ s, Runs.run step newReConn firstAndLastFail = some s ∧ s.panicked = true :=
  ⟨Runs.exists_run_of_any step (by decide), Runs.exists_run_of_any step (by decide)⟩

end ReConn

end Dreamboat
