/-
**Who has a channel: answers and the pool of channels.**

A call that gives up deletes its number from the map and puts its channel back into the pool.  If a
decoder has taken the channel before that, the number is not in the map any more, and the decoder
sends its response into a channel that the pool may have lent to another call by then.  This module
shows that nothing else can go wrong: in every run in which a call that gives up finds its channel
empty and in no decoder's hands, every answer carries the number that was asked under, and a
channel in the pool is empty and known to nobody.

The argument counts.  A channel leaves a trace in the map, at a decoder or in its own buffer; each
channel has at most one owner, and it has no more traces than it has owners that wait for a
response.

Main definitions:

* `GethWs.owners`, `GethWs.waiters`, `GethWs.traces` — the counts;
* `GethWs.Inv` — the invariant;
* `GethWs.DelsUntaken` — the condition.

Main results:

* `GethWs.Inv.step` — steps that meet the condition keep the invariant;
* `GethWs.response_carries_id` — **every answer carries the number that was asked under**.
-/

import Dreamboat.GethWs

set_option autoImplicit false

namespace Dreamboat

namespace GethWs

/-! ### Owners and traces -/

/-- The call has the channel. -/
def Call.has (ch : ℕ) (c : Call) : Bool := c.stage.active && decide (c.chan = ch)

/-- The call waits for a response in the channel. -/
def Call.expects (ch : ℕ) (c : Call) : Bool := c.stage.expecting && decide (c.chan = ch)

/-- How many calls, and places in the pool, have the channel. -/
def owners (s : State) (ch : ℕ) : ℕ := s.calls.countP (Call.has ch) + s.rc.p.count ch

/-- How many calls wait for a response in the channel. -/
def waiters (s : State) (ch : ℕ) : ℕ := s.calls.countP (Call.expects ch)

/-- How many responses may still come out of the channel: those that are asked for in the map, those
that a decoder holds and those in the channel. -/
def traces (s : State) (ch : ℕ) : ℕ :=
  Go.valueCount s.rc.c ch + s.pending.countP (fun p => p.1 = ch) + (s.chans ch).buf.length

/-- A response with the number `id` may still come out of the channel. -/
def Traced (s : State) (ch : ℕ) (id : UInt64) : Prop :=
  s.rc.c.lookup id = some ch ∨ (∃ r, (ch, r) ∈ s.pending ∧ r.id = id) ∨
    ∃ r ∈ (s.chans ch).buf, r.id = id

/-- A channel has one owner at most, and no more traces than calls that wait in it; the traces carry
the number of the call. -/
structure Inv (s : State) : Prop where
  owned : ∀ ch, owners s ch ≤ 1
  fresh : ∀ ch, s.made ≤ ch → owners s ch = 0
  counted : ∀ ch, traces s ch ≤ waiters s ch
  named : ∀ ch id, Traced s ch id → ∀ c ∈ s.calls, c.expects ch = true → c.id = id
  isOpen : ∀ ch, (s.chans ch).closed = false
  answered : ∀ c ∈ s.calls, ∀ r, c.stage.result = some (.ok r) → r.id = c.id

variable {s s' : State} {c c' : Call}

theorem Stage.active_of_expecting {stage : Stage} (h : stage.expecting = true) :
    stage.active = true := by
  cases stage with
  | returned result => cases h
  | _ => rfl

theorem Call.has_of_expects {ch : ℕ} (h : c.expects ch = true) : c.has ch = true := by
  obtain ⟨hstage, hch⟩ := Bool.and_eq_true_iff.1 h
  exact Bool.and_eq_true_iff.2 ⟨Stage.active_of_expecting hstage, hch⟩

theorem Call.has_eq_of_active (hstage : c'.stage.active = c.stage.active) (hchan : c'.chan = c.chan)
    (ch : ℕ) : c'.has ch = c.has ch := by
  rw [Call.has, Call.has, hstage, hchan]

theorem Call.expects_of_expecting (h : c.stage.expecting = true) (ch : ℕ) :
    c.expects ch = decide (c.chan = ch) := by
  rw [Call.expects, h, Bool.true_and]

theorem Call.expects_of_not_expecting (h : c.stage.expecting = false) (ch : ℕ) :
    c.expects ch = false := by
  rw [Call.expects, h, Bool.false_and]

/-- Who waits in a channel has it. -/
theorem waiters_le_owners (s : State) (ch : ℕ) : waiters s ch ≤ owners s ch :=
  (List.countP_mono_left fun _ _ h => Call.has_of_expects h).trans (Nat.le_add_right _ _)

theorem not_expects_of_waiters {ch : ℕ} (h : waiters s ch = 0) :
    ∀ c ∈ s.calls, ¬c.expects ch = true := List.countP_eq_zero.1 h

/-- Where there is no trace, no response can come from. -/
theorem not_traced_of_traces {ch : ℕ} (h : traces s ch = 0) (id : UInt64) : ¬Traced s ch id := by
  unfold traces at h
  rintro (hmap | ⟨r, hr, -⟩ | ⟨r, hr, -⟩)
  · have hpos := Go.valueCount_pos_iff.2 ⟨id, hmap⟩
    omega
  · have hpos : 0 < s.pending.countP fun p => p.1 = ch :=
      List.countP_pos_iff.2 ⟨(ch, r), hr, decide_eq_true rfl⟩
    omega
  · have hpos := List.length_pos_of_mem hr
    omega

theorem inv_newConn (url : String) (input : Go.Chan String) : Inv (newConn url input) where
  owned ch := Nat.zero_le _
  fresh ch _ := rfl
  counted ch := Nat.le_refl 0
  named ch id _ c hc := by cases hc
  isOpen ch := rfl
  answered c hc := by cases hc

/-! ### Steps that only move traces -/

/-- A step that leaves the calls alone and brings no new trace. -/
theorem Inv.of_traces (h : Inv s) (hcalls : s'.calls = s.calls) (hmade : s'.made = s.made)
    (hpool : ∀ ch, s'.rc.p.count ch ≤ s.rc.p.count ch) (htraces : ∀ ch, traces s' ch ≤ traces s ch)
    (htraced : ∀ ch id, Traced s' ch id → Traced s ch id)
    (hopen : ∀ ch, (s'.chans ch).closed = false) : Inv s' := by
  have howners : ∀ ch, owners s' ch ≤ owners s ch := by
    intro ch
    have hp := hpool ch
    unfold owners
    rw [hcalls]
    omega
  refine ⟨fun ch => (howners ch).trans (h.owned ch), fun ch hch => ?_, fun ch => ?_, ?_, hopen, ?_⟩
  · have hle := howners ch
    have hzero := h.fresh ch (hmade ▸ hch)
    omega
  · have hwaiters : waiters s' ch = waiters s ch := by unfold waiters; rw [hcalls]
    exact hwaiters ▸ (htraces ch).trans (h.counted ch)
  · rw [hcalls]
    exact fun ch id ht => h.named ch id (htraced ch id ht)
  · rw [hcalls]
    exact h.answered

/-- A decoder takes a channel out of the map. -/
theorem Inv.decode (h : Inv s) {r : RpcRawResponse} (hs : step s (.decode r) = some s') :
    Inv s' := by
  simp only [step, RespCache.get] at hs
  split at hs
  · split at hs
    · cases hs
      exact h
    · split at hs
      · cases hs
        exact h
      · next ch rc hget =>
          cases hs
          obtain ⟨ch', hch, heq⟩ := Option.map_eq_some_iff.1 hget
          obtain ⟨rfl, rfl⟩ := Prod.mk.inj heq
          refine h.of_traces rfl rfl (fun _ => Nat.le_refl _) (fun ch => ?_) ?_ h.isOpen
          · -- one trace less in the map, one more at the decoder
            have hcount := Go.valueCount_eq_of_lookup hch ch
            simp only [traces, List.countP_cons, decide_eq_true_eq]
            omega
          · rintro ch id (hmap | ⟨r', hr', hid⟩ | hbuf)
            · exact Or.inl (Go.lookup_erase_eq_some_iff.1 hmap).2
            · rcases List.mem_cons.1 hr' with heq | hr'
              · obtain ⟨rfl, rfl⟩ := Prod.mk.inj heq
                exact Or.inl (hid ▸ hch)
              · exact Or.inr (Or.inl ⟨r', hr', hid⟩)
            · exact Or.inr (Or.inr hbuf)
  · cases hs

theorem mem_buf_update {chans : ℕ → Go.Chan RpcRawResponse} {ch ch₀ : ℕ}
    {c : Go.Chan RpcRawResponse} {r : RpcRawResponse}
    (h : r ∈ (Function.update chans ch₀ c ch).buf) :
    (ch = ch₀ ∧ r ∈ c.buf) ∨ r ∈ (chans ch).buf := by
  by_cases hch : ch = ch₀
  · subst hch
    rw [Function.update_self] at h
    exact Or.inl ⟨rfl, h⟩
  · rw [Function.update_of_ne hch] at h
    exact Or.inr h

theorem closed_update {chans : ℕ → Go.Chan RpcRawResponse} {ch₀ : ℕ}
    {c : Go.Chan RpcRawResponse} (hc : c.closed = false) (h : ∀ ch, (chans ch).closed = false)
    (ch : ℕ) : (Function.update chans ch₀ c ch).closed = false := by
  by_cases hch : ch = ch₀
  · subst hch
    rwa [Function.update_self]
  · rw [Function.update_of_ne hch]
    exact h ch

/-- A decoder is done with its response. -/
theorem Inv.release (h : Inv s) {p : ℕ × RpcRawResponse} {pending : List (ℕ × RpcRawResponse)}
    (hperm : s.pending.Perm (p :: pending)) : Inv { s with pending } := by
  refine h.of_traces rfl rfl (fun _ => Nat.le_refl _) (fun ch => ?_) ?_ h.isOpen
  · have hcount := hperm.countP_eq fun p => decide (p.1 = ch)
    rw [List.countP_cons] at hcount
    simp only [traces]
    omega
  · rintro ch id (hmap | ⟨r, hr, hid⟩ | hbuf)
    · exact Or.inl hmap
    · exact Or.inr (Or.inl ⟨r, hperm.mem_iff.2 (List.mem_cons_of_mem _ hr), hid⟩)
    · exact Or.inr (Or.inr hbuf)

/-- A decoder sends its response. -/
theorem Inv.deliver (h : Inv s) {k : ℕ} (hs : step s (.deliver k) = some s') : Inv s' := by
  obtain ⟨⟨⟨ch₀, r₀⟩, pending⟩, hpick, hs⟩ := Option.bind_eq_some_iff.1 hs
  have hperm := Runs.perm_of_pick hpick
  dsimp only at hs
  split at hs
  · next c hsend =>
      cases hs
      obtain ⟨hbuf, hclosed⟩ := Go.Chan.trySend_eq_some hsend
      refine h.of_traces rfl rfl (fun _ => Nat.le_refl _) (fun ch => ?_) ?_ fun ch => ?_
      · -- one trace less at the decoders, one more in the channel
        have hcount := hperm.countP_eq fun p => decide (p.1 = ch)
        rw [List.countP_cons] at hcount
        simp only [traces]
        by_cases hch : ch = ch₀
        · subst hch
          rw [Function.update_self, hbuf, List.length_append, List.length_singleton]
          rw [if_pos (decide_eq_true rfl)] at hcount
          omega
        · rw [Function.update_of_ne hch]
          omega
      · rintro ch id (hmap | ⟨r, hr, hid⟩ | ⟨r, hr, hid⟩)
        · exact Or.inl hmap
        · exact Or.inr (Or.inl ⟨r, hperm.mem_iff.2 (List.mem_cons_of_mem _ hr), hid⟩)
        · rcases mem_buf_update hr with ⟨rfl, hnew⟩ | hold
          · rcases List.mem_append.1 (hbuf ▸ hnew) with hold | hnew
            · exact Or.inr (Or.inr ⟨r, hold, hid⟩)
            · rw [List.mem_singleton.1 hnew] at hid
              exact Or.inr (Or.inl ⟨r₀, hperm.mem_iff.2 List.mem_cons_self, hid⟩)
          · exact Or.inr (Or.inr ⟨r, hold, hid⟩)
      · exact closed_update (hclosed.trans (h.isOpen ch₀)) h.isOpen ch
  · cases hs
    exact h.release hperm

/-- The pool drops a channel. -/
theorem Inv.poolDrop (h : Inv s) {ch : ℕ} {p : List ℕ} (hperm : s.rc.p.Perm (ch :: p)) :
    Inv { s with rc := { s.rc with p } } := by
  refine h.of_traces rfl rfl (fun ch' => ?_) (fun _ => Nat.le_refl _) (fun _ _ ht => ht) h.isOpen
  rw [hperm.count_eq ch']
  exact List.count_le_count_cons

/-- The counter, the messages to be written and the end of the decoders do not matter. -/
theorem Inv.of_env (h : Inv s) (messageID : UInt64) (input : Go.Chan String) (done : Bool) :
    Inv { s with messageID, input, done } :=
  ⟨h.owned, h.fresh, h.counted, h.named, h.isOpen, h.answered⟩

/-! ### Steps of a call -/

section SetCall

variable {t : State} {k : ℕ} (hc : s.calls[k]? = some c) (hcalls : t.calls = s.calls.set k c')

include hc hcalls

theorem owners_set (ch : ℕ) :
    owners t ch + (if c.has ch then 1 else 0) + s.rc.p.count ch =
      owners s ch + (if c'.has ch then 1 else 0) + t.rc.p.count ch := by
  have hcount := Runs.countP_set_of_getElem? hc c' (Call.has ch)
  unfold owners
  rw [hcalls]
  omega

theorem owners_eq_of_has (hhas : ∀ ch, c'.has ch = c.has ch) (hpool : t.rc.p = s.rc.p) (ch : ℕ) :
    owners t ch = owners s ch := by
  have hset := owners_set hc hcalls ch
  rw [hhas ch, hpool] at hset
  omega

theorem waiters_set (ch : ℕ) :
    waiters t ch + (if c.expects ch then 1 else 0) =
      waiters s ch + if c'.expects ch then 1 else 0 := by
  have hcount := Runs.countP_set_of_getElem? hc c' (Call.expects ch)
  unfold waiters
  rwa [hcalls]

/-- A call stops waiting. -/
theorem waiters_of_answered (hexp : c.stage.expecting = true) (hexp' : c'.stage.expecting = false)
    (ch : ℕ) : waiters t ch + (if c.chan = ch then 1 else 0) = waiters s ch := by
  have hset := waiters_set hc hcalls ch
  rw [Call.expects_of_expecting hexp, Call.expects_of_not_expecting hexp'] at hset
  simpa using hset

/-- A call goes on without waiting for a response. -/
theorem waiters_of_idle (hexp : c.stage.expecting = false) (hexp' : c'.stage.expecting = false)
    (ch : ℕ) : waiters t ch = waiters s ch := by
  have hset := waiters_set hc hcalls ch
  rw [Call.expects_of_not_expecting hexp, Call.expects_of_not_expecting hexp'] at hset
  exact hset

/-- A call goes on, and no trace comes in. -/
theorem Inv.set_call (h : Inv s) (hmade : t.made = s.made)
    (howners : ∀ ch, owners t ch = owners s ch) (hcounted : ∀ ch, traces t ch ≤ waiters t ch)
    (htraced : ∀ ch id, Traced t ch id → Traced s ch id)
    (hexp : ∀ ch, c'.expects ch = true → c.expects ch = true ∧ c'.id = c.id)
    (hopen : ∀ ch, (t.chans ch).closed = false)
    (hanswer : ∀ r, c'.stage.result = some (.ok r) → r.id = c'.id) : Inv t := by
  refine ⟨fun ch => ?_, fun ch hch => ?_, hcounted, ?_, hopen, ?_⟩
  · rw [howners ch]
    exact h.owned ch
  · rw [howners ch]
    exact h.fresh ch (hmade ▸ hch)
  · intro ch id ht d hd hde
    rw [hcalls] at hd
    rcases List.mem_or_eq_of_mem_set hd with hd | rfl
    · exact h.named ch id (htraced ch id ht) d hd hde
    · obtain ⟨hce, hid⟩ := hexp ch hde
      rw [hid]
      exact h.named ch id (htraced ch id ht) c (List.mem_of_getElem? hc) hce
  · intro d hd
    rw [hcalls] at hd
    rcases List.mem_or_eq_of_mem_set hd with hd | rfl
    · exact h.answered d hd
    · exact hanswer

end SetCall

/-- A call goes on between its effects. -/
theorem Inv.keep (h : Inv s) {k : ℕ} (hc : s.calls[k]? = some c) (hhas : ∀ ch, c'.has ch = c.has ch)
    (hexp : ∀ ch, c'.expects ch = c.expects ch)
    (hid : c.stage.expecting = true → c'.id = c.id)
    (hanswer : ∀ r, c'.stage.result = some (.ok r) → r.id = c'.id) :
    Inv { s with calls := s.calls.set k c' } := by
  refine Inv.set_call hc rfl h rfl (owners_eq_of_has hc rfl hhas rfl) (fun ch => ?_)
    (fun _ _ ht => ht) ?_ h.isOpen hanswer
  · have hwaiters := waiters_set (t := { s with calls := s.calls.set k c' }) hc rfl ch
    rw [hexp ch] at hwaiters
    have hle := h.counted ch
    change traces s ch ≤ _
    omega
  · intro ch hch
    rw [hexp ch] at hch
    exact ⟨hch, hid (Bool.and_eq_true_iff.1 hch).1⟩

/-- A call goes on to a stage without a result, in which it waits as before. -/
theorem Inv.advance (h : Inv s) {k : ℕ} (hc : s.calls[k]? = some c) {stage : Stage} {id : UInt64}
    (hactive : stage.active = c.stage.active) (hexp : stage.expecting = c.stage.expecting)
    (hid : c.stage.expecting = true → id = c.id) (hresult : stage.result = none) :
    Inv { s with calls := s.calls.set k { c with id, stage } } := by
  refine h.keep hc (Call.has_eq_of_active hactive rfl) (fun ch => ?_) hid fun r hr => ?_
  · rw [Call.expects, Call.expects, hexp]
  · rw [hresult] at hr
    cases hr

/-- A call enters its channel into the map. -/
theorem Inv.register (h : Inv s) {k : ℕ} (hc : s.calls[k]? = some c)
    (hstage : c.stage = .numbered) :
    Inv { s with
      rc := s.rc.set c.id c.chan
      calls := s.calls.set k { c with stage := .registered } } := by
  set c' : Call := { c with stage := .registered }
  set s' : State := { s with rc := s.rc.set c.id c.chan, calls := s.calls.set k c' } with hs'
  have hexp : ∀ ch, c.expects ch = false := Call.expects_of_not_expecting (by rw [hstage]; rfl)
  have hexp' : ∀ ch, c'.expects ch = decide (c.chan = ch) := Call.expects_of_expecting rfl
  have howners : ∀ ch, owners s' ch = owners s ch :=
    owners_eq_of_has hc rfl (Call.has_eq_of_active (by rw [hstage]; rfl) rfl) rfl
  have hwaiters : ∀ ch, waiters s' ch = waiters s ch + if c.chan = ch then 1 else 0 := by
    intro ch
    have hset := waiters_set (t := s') hc rfl ch
    simpa [hexp ch, hexp' ch] using hset
  -- the call has the channel and does not wait in it yet, so nobody does
  have hnobody : waiters s c.chan = 0 := by
    have hle := waiters_le_owners s' c.chan
    rw [howners, hwaiters, if_pos rfl] at hle
    have hone := h.owned c.chan
    omega
  have hnone : traces s c.chan = 0 := by
    have hle := h.counted c.chan
    omega
  refine ⟨fun ch => ?_, fun ch hch => ?_, fun ch => ?_, ?_, h.isOpen, ?_⟩
  · rw [howners ch]
    exact h.owned ch
  · rw [howners ch]
    exact h.fresh ch hch
  · rw [hwaiters ch]
    have hle := h.counted ch
    have hinsert := Go.valueCount_insert s.rc.c c.id c.chan ch
    have herase := Go.valueCount_erase_le s.rc.c c.id ch
    simp only [traces, hs', RespCache.set] at hle ⊢
    omega
  · -- an old trace of the channel would be one too many
    have htraced : ∀ ch id, Traced s' ch id → (ch = c.chan ∧ id = c.id) ∨ Traced s ch id := by
      rintro ch id (hmap | hother)
      · change (s.rc.c.insert c.id c.chan).lookup id = some ch at hmap
        rw [Go.lookup_insert_eq] at hmap
        split at hmap
        · next hid => exact Or.inl ⟨(Option.some_inj.1 hmap).symm, hid⟩
        · exact Or.inr (Or.inl hmap)
      · exact Or.inr (Or.inr hother)
    intro ch id ht d hd hde
    rcases List.mem_or_eq_of_mem_set hd with hd | rfl
    · rcases htraced ch id ht with ⟨rfl, -⟩ | hold
      · exact absurd hde (not_expects_of_waiters hnobody d hd)
      · exact h.named ch id hold d hd hde
    · rcases htraced ch id ht with ⟨-, rfl⟩ | hold
      · rfl
      · rw [hexp' ch, decide_eq_true_iff] at hde
        exact absurd hold (not_traced_of_traces (hde ▸ hnone) id)
  · intro d hd
    rcases List.mem_or_eq_of_mem_set hd with hd | rfl
    · exact h.answered d hd
    · intro r hr
      cases hr

/-- A call receives its response. -/
theorem Inv.receive (h : Inv s) {k : ℕ} {b : RpcRawResponse} {chan : Go.Chan RpcRawResponse}
    (hc : s.calls[k]? = some c) (hstage : c.stage = .waiting)
    (hrecv : (s.chans c.chan).recv default = some (b, chan)) :
    Inv { s with
      chans := Function.update s.chans c.chan chan
      calls := s.calls.set k { c with stage := .returning (.ok b) } } := by
  have hbuf := Go.Chan.recv_of_open (h.isOpen c.chan) hrecv
  have hexp : c.stage.expecting = true := by rw [hstage]; rfl
  refine Inv.set_call hc rfl h rfl
    (owners_eq_of_has hc rfl (Call.has_eq_of_active (by rw [hstage]; rfl) rfl) rfl)
    (fun ch => ?_) ?_ ?_
    (closed_update ((Go.Chan.closed_of_recv hrecv).trans (h.isOpen _)) h.isOpen) ?_
  · -- the call waits no more, and its response is gone from the channel
    have hset := waiters_of_answered (t := { s with
      chans := Function.update s.chans c.chan chan
      calls := s.calls.set k { c with stage := .returning (.ok b) } }) hc rfl hexp rfl ch
    have hle := h.counted ch
    simp only [traces] at hle ⊢
    by_cases hch : c.chan = ch
    · subst hch
      rw [hbuf, List.length_cons] at hle
      rw [if_pos rfl] at hset
      rw [Function.update_self]
      omega
    · rw [if_neg hch] at hset
      rw [Function.update_of_ne (Ne.symm hch)]
      omega
  · rintro ch id (hmap | hpend | ⟨r, hr, hid⟩)
    · exact Or.inl hmap
    · exact Or.inr (Or.inl hpend)
    · rcases mem_buf_update hr with ⟨rfl, hnew⟩ | hold
      · exact Or.inr (Or.inr ⟨r, hbuf ▸ List.mem_cons_of_mem _ hnew, hid⟩)
      · exact Or.inr (Or.inr ⟨r, hold, hid⟩)
  · intro ch hch
    cases hch
  · intro r hr
    cases hr
    have htraced : Traced s c.chan b.id := Or.inr (Or.inr ⟨b, hbuf ▸ List.mem_cons_self, rfl⟩)
    refine (h.named c.chan b.id htraced c (List.mem_of_getElem? hc) ?_).symm
    rw [Call.expects_of_expecting hexp, decide_eq_true_iff]

/-- A call that gives up takes its number out of the map.  Its channel is then free of traces, if no
decoder has it and nothing is in it. -/
theorem Inv.del (h : Inv s) {k : ℕ} {err : GoError} (hc : s.calls[k]? = some c)
    (hstage : c.stage = .cancelled err) (hpend : ∀ p ∈ s.pending, p.1 ≠ c.chan)
    (hbuf : (s.chans c.chan).buf = []) :
    Inv { s with
      rc := s.rc.del c.id
      calls := s.calls.set k { c with stage := .returning (.error err) } } := by
  have hexp : c.stage.expecting = true := by rw [hstage]; rfl
  -- the map has the channel under the number of the call only
  have hmap : Go.valueCount (s.rc.c.erase c.id) c.chan = 0 := by
    by_contra hne
    obtain ⟨id, hid⟩ := Go.valueCount_pos_iff.1 (Nat.pos_of_ne_zero hne)
    obtain ⟨hne, hold⟩ := Go.lookup_erase_eq_some_iff.1 hid
    refine hne (h.named c.chan id (Or.inl hold) c (List.mem_of_getElem? hc) ?_).symm
    rw [Call.expects_of_expecting hexp, decide_eq_true_iff]
  have hpend' : s.pending.countP (fun p => p.1 = c.chan) = 0 := by
    refine List.countP_eq_zero.2 fun p hp => ?_
    rw [decide_eq_true_iff]
    exact hpend p hp
  refine Inv.set_call hc rfl h rfl
    (owners_eq_of_has hc rfl (Call.has_eq_of_active (by rw [hstage]; rfl) rfl) rfl)
    (fun ch => ?_) ?_ ?_ h.isOpen ?_
  · have hset := waiters_of_answered (t := { s with
      rc := s.rc.del c.id
      calls := s.calls.set k { c with stage := .returning (.error err) } }) hc rfl hexp rfl ch
    have hle := h.counted ch
    have herase := Go.valueCount_erase_le s.rc.c c.id ch
    simp only [traces, RespCache.del] at hset hle ⊢
    by_cases hch : c.chan = ch
    · subst hch
      rw [hmap, hpend', hbuf]
      exact Nat.zero_le _
    · rw [if_neg hch] at hset
      omega
  · rintro ch id (hmap | hother)
    · exact Or.inl (Go.lookup_erase_eq_some_iff.1 hmap).2
    · exact Or.inr hother
  · intro ch hch
    cases hch
  · intro r hr
    cases hr

/-- A call puts its channel back into the pool. -/
theorem Inv.poolPut (h : Inv s) {k : ℕ} {result : Except GoError RpcRawResponse}
    (hc : s.calls[k]? = some c) (hstage : c.stage = .returning result) :
    Inv { s with
      rc := s.rc.poolPut c.chan
      calls := s.calls.set k { c with stage := .returned result } } := by
  refine Inv.set_call hc rfl h rfl (fun ch => ?_) (fun ch => ?_) (fun _ _ ht => ht) ?_ h.isOpen ?_
  · have hset := owners_set (t := { s with
      rc := s.rc.poolPut c.chan
      calls := s.calls.set k { c with stage := .returned result } }) hc rfl ch
    simp only [Call.has, hstage, Stage.active, RespCache.poolPut, List.count_cons, Bool.true_and,
      Bool.false_and, decide_eq_true_eq, Bool.false_eq_true, if_false, beq_iff_eq] at hset ⊢
    omega
  · rw [waiters_of_idle hc rfl (by rw [hstage]; rfl) rfl]
    exact h.counted ch
  · intro ch hch
    cases hch
  · intro r hr
    exact h.answered c (List.mem_of_getElem? hc) r (by rw [hstage]; exact hr)

/-! ### New calls -/

/-- A call comes in with a channel. -/
theorem Inv.newCall (h : Inv s) {method content : String} {ch₀ : ℕ}
    (hcalls : s'.calls = s.calls ++ [GethWs.newCall method content ch₀])
    (howned : ∀ ch, owners s' ch ≤ 1) (hfresh : ∀ ch, s'.made ≤ ch → owners s' ch = 0)
    (htraces : ∀ ch, traces s' ch ≤ traces s ch)
    (htraced : ∀ ch id, Traced s' ch id → Traced s ch id)
    (hopen : ∀ ch, (s'.chans ch).closed = false) : Inv s' := by
  refine ⟨howned, hfresh, fun ch => ?_, ?_, hopen, ?_⟩
  · have hle := h.counted ch
    have htr := htraces ch
    have hwaiters : waiters s' ch = waiters s ch := by
      unfold waiters
      rw [hcalls, List.countP_append, List.countP_singleton]
      rfl
    omega
  · intro ch id ht c hc hexp
    rw [hcalls] at hc
    rcases List.mem_append.1 hc with hc | hc
    · exact h.named ch id (htraced ch id ht) c hc hexp
    · rw [List.mem_singleton.1 hc] at hexp
      cases hexp
  · intro c hc
    rw [hcalls] at hc
    rcases List.mem_append.1 hc with hc | hc
    · exact h.answered c hc
    · rw [List.mem_singleton.1 hc]
      intro r hr
      cases hr

theorem owners_newCall {t : State} {method content : String} {ch₀ : ℕ}
    (hcalls : t.calls = s.calls ++ [GethWs.newCall method content ch₀]) (ch : ℕ) :
    owners t ch + s.rc.p.count ch =
      owners s ch + (if ch₀ = ch then 1 else 0) + t.rc.p.count ch := by
  have hhas : Call.has ch (GethWs.newCall method content ch₀) = true ↔ ch₀ = ch :=
    decide_eq_true_iff
  unfold owners
  rw [hcalls, List.countP_append, List.countP_singleton, if_congr hhas rfl rfl]
  omega

/-- The pool makes a channel. -/
theorem Inv.requestNew (h : Inv s) {method content : String}
    (hs : step s (.requestNew method content) = some s') : Inv s' := by
  cases hs
  refine h.newCall rfl (fun ch => ?_) (fun ch hch => ?_) (fun ch => ?_) ?_
    (closed_update rfl h.isOpen)
  · have hset := owners_newCall (s := s) (t := { s with
      chans := Function.update s.chans s.made (Go.Chan.make 1)
      made := s.made + 1
      calls := s.calls ++ [GethWs.newCall method content s.made] }) rfl ch
    have hone := h.owned ch
    have hzero := h.fresh ch
    dsimp only at hset
    split at hset <;> omega
  · have hset := owners_newCall (s := s) (t := { s with
      chans := Function.update s.chans s.made (Go.Chan.make 1)
      made := s.made + 1
      calls := s.calls ++ [GethWs.newCall method content s.made] }) rfl ch
    have hzero := h.fresh ch
    dsimp only at hset hch
    split at hset <;> omega
  · simp only [traces]
    by_cases hch : ch = s.made
    · subst hch
      rw [Function.update_self]
      exact Nat.le_add_right _ _
    · rw [Function.update_of_ne hch]
  · rintro ch id (hmap | hpend | ⟨r, hr, hid⟩)
    · exact Or.inl hmap
    · exact Or.inr (Or.inl hpend)
    · rcases mem_buf_update hr with ⟨-, hnew⟩ | hold
      · cases hnew
      · exact Or.inr (Or.inr ⟨r, hold, hid⟩)

/-- The pool has a channel. -/
theorem Inv.requestPooled (h : Inv s) {method content : String} {ch₀ : ℕ} {p : List ℕ}
    (hperm : s.rc.p.Perm (ch₀ :: p)) :
    Inv { s with
      rc := ⟨s.rc.c, p⟩
      calls := s.calls ++ [GethWs.newCall method content ch₀] } := by
  have howners : ∀ ch, owners { s with
      rc := ⟨s.rc.c, p⟩
      calls := s.calls ++ [GethWs.newCall method content ch₀] } ch = owners s ch := by
    intro ch
    have hset := owners_newCall (s := s) (t := { s with
      rc := ⟨s.rc.c, p⟩
      calls := s.calls ++ [GethWs.newCall method content ch₀] }) rfl ch
    have hcount := hperm.count_eq ch
    simp only [List.count_cons, beq_iff_eq] at hset hcount
    omega
  refine h.newCall rfl (fun ch => ?_) (fun ch hch => ?_) (fun _ => Nat.le_refl _)
    (fun _ _ ht => ht) h.isOpen
  · rw [howners ch]
    exact h.owned ch
  · rw [howners ch]
    exact h.fresh ch hch

/-! ### Runs -/

/-- The call that gives up. -/
def Action.givesUp : Action → Option ℕ
  | .del k => some k
  | _ => none

/-- The condition: a call that gives up finds its channel empty and in no decoder's hands. -/
def DelsUntaken (s : State) (a : Action) : Prop :=
  ∀ k ∈ a.givesUp, ∀ c ∈ s.calls[k]?,
    (∀ p ∈ s.pending, p.1 ≠ c.chan) ∧ (s.chans c.chan).buf = []

instance (s : State) (a : Action) : Decidable (DelsUntaken s a) :=
  inferInstanceAs (Decidable (∀ k ∈ a.givesUp, _))

theorem RespCache.perm_of_poolGet {rc rc' : RespCache} {k ch : ℕ}
    (h : rc.poolGet k = some (ch, rc')) : ∃ p, rc' = ⟨rc.c, p⟩ ∧ rc.p.Perm (ch :: p) := by
  obtain ⟨⟨ch', p⟩, hpick, heq⟩ := Option.map_eq_some_iff.1 h
  obtain ⟨rfl, rfl⟩ := Prod.mk.inj heq
  exact ⟨p, rfl, Runs.perm_of_pick hpick⟩

theorem Inv.step (h : Inv s) {a : Action} (hC : DelsUntaken s a) (hs : step s a = some s') :
    Inv s' := by
  cases a with
  | requestNew method content => exact h.requestNew hs
  | requestPooled method content k =>
      obtain ⟨⟨ch, rc⟩, hget, hs⟩ := Option.bind_eq_some_iff.1 hs
      obtain ⟨p, rfl, hperm⟩ := RespCache.perm_of_poolGet hget
      cases hs
      exact h.requestPooled hperm
  | number k =>
      obtain ⟨c, hc, hs⟩ := Option.bind_eq_some_iff.1 hs
      split at hs
      · next hstage =>
          cases hs
          have hnumbered : Inv { s with
              calls := s.calls.set k { c with id := s.messageID + 1, stage := .numbered } } :=
            h.advance hc (by rw [hstage]; rfl) (by rw [hstage]; rfl)
              (fun h => by rw [hstage] at h; cases h) rfl
          exact hnumbered.of_env _ _ _
      · cases hs
  | set k =>
      obtain ⟨c, hc, hs⟩ := Option.bind_eq_some_iff.1 hs
      split at hs
      · next hstage =>
          cases hs
          exact h.register hc hstage
      · cases hs
  | send k =>
      obtain ⟨c, hc, hs⟩ := Option.bind_eq_some_iff.1 hs
      split at hs
      · next hstage =>
          obtain ⟨input, -, hs⟩ := Option.bind_eq_some_iff.1 hs
          cases hs
          have hwaiting : Inv { s with calls := s.calls.set k { c with stage := .waiting } } :=
            h.advance hc (by rw [hstage]; rfl) (by rw [hstage]; rfl) (fun _ => rfl) rfl
          exact hwaiting.of_env _ _ _
      · cases hs
  | selectResp k =>
      obtain ⟨c, hc, hs⟩ := Option.bind_eq_some_iff.1 hs
      split at hs
      · next hstage =>
          obtain ⟨⟨b, chan⟩, hrecv, hs⟩ := Option.bind_eq_some_iff.1 hs
          cases hs
          exact h.receive hc hstage hrecv
      · cases hs
  | selectCtx k =>
      obtain ⟨c, hc, hs⟩ := Option.bind_eq_some_iff.1 hs
      split at hs
      · next err hstage hctx =>
          cases hs
          exact h.advance hc (by rw [hstage]; rfl) (by rw [hstage]; rfl) (fun _ => rfl) rfl
      · cases hs
  | del k =>
      obtain ⟨c, hc, hs⟩ := Option.bind_eq_some_iff.1 hs
      split at hs
      · next err hstage =>
          cases hs
          obtain ⟨hpend, hbuf⟩ := hC k rfl c hc
          exact h.del hc hstage hpend hbuf
      · cases hs
  | poolPut k =>
      obtain ⟨c, hc, hs⟩ := Option.bind_eq_some_iff.1 hs
      split at hs
      · next result hstage =>
          cases hs
          exact h.poolPut hc hstage
      · cases hs
  | ctxDone k err =>
      obtain ⟨c, hc, hs⟩ := Option.bind_eq_some_iff.1 hs
      cases hs
      exact h.keep hc (fun _ => rfl) (fun _ => rfl) (fun _ => rfl)
        (h.answered c (List.mem_of_getElem? hc))
  | poolDrop k =>
      obtain ⟨⟨ch, rc⟩, hget, hs⟩ := Option.bind_eq_some_iff.1 hs
      obtain ⟨p, rfl, hperm⟩ := RespCache.perm_of_poolGet hget
      cases hs
      exact h.poolDrop hperm
  | enqueueRPC =>
      cases hs
      exact h.of_env _ _ _
  | foreign msg =>
      obtain ⟨input, -, hs⟩ := Option.bind_eq_some_iff.1 hs
      cases hs
      exact h.of_env _ _ _
  | write =>
      obtain ⟨⟨msg, input⟩, -, hs⟩ := Option.bind_eq_some_iff.1 hs
      cases hs
      exact h.of_env _ _ _
  | decode r => exact h.decode hs
  | deliver k => exact h.deliver hs
  | discard k =>
      obtain ⟨⟨p, pending⟩, hpick, hs⟩ := Option.bind_eq_some_iff.1 hs
      dsimp only at hs
      split at hs
      · cases hs
        exact h.release (Runs.perm_of_pick hpick)
      · cases hs
  | readError =>
      cases hs
      exact h.of_env _ _ _

/-- **Every answer carries the number that was asked under**: in every run in which a call that
gives up finds its channel empty and in no decoder's hands, the response that a call returns carries
the number of its message, and a channel in the pool is empty and known to nobody. -/
theorem response_carries_id (url : String) (input : Go.Chan String) (as : List Action) (s : State)
    (hrun : Runs.run step (newConn url input) as = some s)
    (hC : Runs.Meets step DelsUntaken (newConn url input) as) :
    (∀ c ∈ s.calls, ∀ r, c.stage.result = some (.ok r) → r.id = c.id) ∧
    ∀ ch ∈ s.rc.p, (s.chans ch).buf = [] ∧ (∀ p ∈ s.pending, p.1 ≠ ch) ∧
      ∀ id, s.rc.c.lookup id ≠ some ch := by
  have h : Inv s := Runs.run_invariant_of_meets step (fun _ _ _ h hC hs => h.step hC hs)
    (inv_newConn url input) hC hrun
  refine ⟨h.answered, fun ch hch => ?_⟩
  -- the pool is the one owner of the channel, so nobody waits in it
  have hnone : traces s ch = 0 := by
    have hpool := List.count_pos_iff.2 hch
    have hone := h.owned ch
    have hle := h.counted ch
    have hwait : waiters s ch ≤ s.calls.countP (Call.has ch) :=
      List.countP_mono_left fun _ _ h => Call.has_of_expects h
    unfold owners at hone
    omega
  have hno := not_traced_of_traces hnone
  refine ⟨List.eq_nil_iff_forall_not_mem.2 fun r hr => ?_, fun p hp hpch => ?_, fun id hid => ?_⟩
  · exact hno r.id (Or.inr (Or.inr ⟨r, hr, rfl⟩))
  · exact hno p.2.id (Or.inr (Or.inl ⟨p.2, hpch ▸ hp, rfl⟩))
  · exact hno id (Or.inl hid)

/-! ### A late response -/

/-- A response with a number. -/
def responseTo (id : UInt64) : RpcRawResponse := { (default : RpcRawResponse) with id }

/-- A call up to the wait. -/
def asks (k : ℕ) : List Action := [.number k, .set k, .send k]

/-- A call gives up. -/
def givesUp (k : ℕ) : List Action :=
  [.ctxDone k (.sentinel .contextCanceled), .selectCtx k, .del k, .poolPut k]

/-- The first call is answered; the second one uses its channel again and gives up before its
response is there. -/
def inTime : List Action :=
  .requestNew "" "" :: asks 0 ++ [.decode (responseTo 3), .deliver 0, .selectResp 0, .poolPut 0] ++
    .requestPooled "" "" 0 :: asks 1 ++ givesUp 1 ++ [.decode (responseTo 4)]

theorem response_carries_id_inTime :
    ∃ s, Runs.run step (newConn "" (Go.Chan.make 2)) inTime = some s ∧
      s.calls.map (fun c => c.stage.result) =
        [some (.ok (responseTo 3)), some (.error (.sentinel .contextCanceled))] ∧
      ∀ c ∈ s.calls, ∀ r, c.stage.result = some (.ok r) → r.id = c.id := by
  obtain ⟨s, hs, hresult⟩ : ∃ s, Runs.run step (newConn "" (Go.Chan.make 2)) inTime = some s ∧
      s.calls.map (fun c => c.stage.result) =
        [some (.ok (responseTo 3)), some (.error (.sentinel .contextCanceled))] :=
    Runs.exists_run_of_any _ (by decide +kernel)
  exact ⟨s, hs, hresult,
    (response_carries_id "" (Go.Chan.make 2) inTime s hs (by decide +kernel)).1⟩

/-- The first call gives up when a decoder has its channel already; the second call gets the channel
from the pool, and then the response to the first one. -/
def tooLate : List Action :=
  .requestNew "" "" :: asks 0 ++ .decode (responseTo 3) :: givesUp 0 ++
    .requestPooled "" "" 0 :: asks 1 ++ [.deliver 0, .selectResp 1, .poolPut 1]

/-- A late response to a call that has given up is the answer to another call. -/
theorem response_to_other_tooLate :
    ∃ s, Runs.run step (newConn "" (Go.Chan.make 2)) tooLate = some s ∧
      ∃ c ∈ s.calls, c.id = 4 ∧ c.stage.result = some (.ok (responseTo 3)) ∧
        (responseTo 3).id ≠ c.id :=
  Runs.exists_run_of_any _ (by decide +kernel)

end GethWs

end Dreamboat
