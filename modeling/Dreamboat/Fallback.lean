/-
**Clients that validate blocks, one behind the other.**

`src/sim/client/fallback/fallback.go` keeps three lists of clients, one for each kind, and a flag
that says whether there is any client.  `ValidateBlock` asks the clients one after the other until
one of them gives a result that does not say that the client could not be reached.
`ValidateBlockV2` is the same over the other method of the clients.

What a client answers may depend on everything that happened before: a behaviour takes a state of
the world to the answer and the next state, and the context of the call is read off the state.

Main definitions:

* `Fallback`, `Fallback.addClient`, `Fallback.removeClient` — the lists and the flag;
* `Behaviour` — how the clients behave;
* `Fallback.validateBlock`, `Fallback.validateBlockV2` — the loops;
* `registered` — the clients that are registered after a history of calls;
* `firstVerdict` — what the loops are for.

Main results:

* `Fallback.inv_after` — the flag and the lists after any calls;
* `Fallback.validate_eq_firstVerdict` — **the loops return the first verdict**;
* `Fallback.validates_first` — both together, for every history and every behaviour.
-/

import Dreamboat.Structs
import Mathlib.Data.List.Induction
import Mathlib.Data.List.Nodup
import Mathlib.Tactic.Tauto

set_option autoImplicit false

namespace Dreamboat

/-! ### The clients -/

/-- What `Kind` of a client says. -/
inductive ClientKind where
  | ws
  | http
  | rpc
  /-- A text that is none of the three. -/
  | other (kind : String)
  deriving DecidableEq, Repr

/-- The kinds that have a list. -/
def ClientKind.Known : ClientKind → Prop
  | .other _ => False
  | _ => True

@[ext] structure SimClient where
  kind : ClientKind
  id : String
  deriving DecidableEq, Repr

structure Fallback where
  clientsRPC : List SimClient
  clientsWS : List SimClient
  clientsHTTP : List SimClient
  atLeastOne : Bool
  deriving DecidableEq, Repr

/-- A list of clients with one more, unless it has one of the same name. -/
def addClient (cSlice : List SimClient) (cli : SimClient) : List SimClient :=
  if cSlice.any fun c => c.id = cli.id then cSlice else cSlice ++ [cli]

/-- A list of clients without the first one of a name. -/
def removeClient (cSlice : List SimClient) (id : String) : List SimClient :=
  cSlice.eraseP fun c => c.id = id

namespace Fallback

/-- `NewFallback`. -/
def new : Fallback := ⟨[], [], [], false⟩

def isSet (f : Fallback) : Bool := f.atLeastOne

def addClient (f : Fallback) (cli : SimClient) : Fallback :=
  match cli.kind with
  | .ws => { f with clientsWS := Dreamboat.addClient f.clientsWS cli, atLeastOne := true }
  | .http => { f with clientsHTTP := Dreamboat.addClient f.clientsHTTP cli, atLeastOne := true }
  | .rpc => { f with clientsRPC := Dreamboat.addClient f.clientsRPC cli, atLeastOne := true }
  | .other _ => { f with atLeastOne := true }

/-- The end of `RemoveClient`. -/
def clearIfEmpty (f : Fallback) : Fallback :=
  if f.clientsWS = [] ∧ f.clientsHTTP = [] ∧ f.clientsRPC = [] then { f with atLeastOne := false }
  else f

def removeClient (f : Fallback) (kind : ClientKind) (id : String) : Fallback :=
  match kind with
  | .ws => clearIfEmpty { f with clientsWS := Dreamboat.removeClient f.clientsWS id }
  | .http => clearIfEmpty { f with clientsHTTP := Dreamboat.removeClient f.clientsHTTP id }
  | .rpc => clearIfEmpty { f with clientsRPC := Dreamboat.removeClient f.clientsRPC id }
  | .other _ => clearIfEmpty f

/-- A call that changes the lists. -/
inductive Op where
  | add (cli : SimClient)
  | remove (kind : ClientKind) (id : String)
  deriving DecidableEq

def apply (f : Fallback) : Op → Fallback
  | .add cli => f.addClient cli
  | .remove kind id => f.removeClient kind id

/-- The lists and the flag after a history of calls. -/
def after (ops : List Op) : Fallback := ops.foldl apply new

/-- The order in which the clients are asked. -/
def order (f : Fallback) : List SimClient := f.clientsRPC ++ f.clientsWS ++ f.clientsHTTP

end Fallback

/-! ### Asking the clients -/

/-- The errors of a context that has ended. -/
inductive CtxErr where
  | canceled
  | deadlineExceeded
  deriving DecidableEq, Repr

def CtxErr.toError : CtxErr → GoError
  | .canceled => .sentinel .contextCanceled
  | .deadlineExceeded => .sentinel .contextDeadlineExceeded

/-- How the clients behave: what `ctx.Err()` is in a state of the world, and the node and the error
that a client returns with the state it leaves behind. -/
structure Behaviour (σ : Type) where
  ctxErr : σ → Option CtxErr
  validateBlock : SimClient → σ → (String × Option GoError) × σ
  validateBlockV2 : SimClient → σ → (String × Option GoError) × σ

/-- The errors after which the next client is asked. -/
def fallsBack (err : GoError) : Bool := err.is .simErrNotFound || err.is .errConnectionFailure

section Loops

variable {σ : Type} (ctxErr : σ → Option CtxErr)
  (call : SimClient → σ → (String × Option GoError) × σ)

/-- One client: the error, and whether to keep trying. -/
def tryClient (c : SimClient) (s : σ) : (Option GoError × Bool) × σ :=
  match ctxErr s with
  | some e => ((some e.toError, false), s)
  | none =>
      match call c s with
      | ((_, none), s) => ((none, false), s)
      | ((_, some err), s) => ((some err, fallsBack err), s)

/-- The loop over a list; `err` is what the variable for the error holds before it. -/
def tryClients : List SimClient → Option GoError → σ → (Option GoError × Bool) × σ
  | [], err, s => ((err, true), s)
  | c :: cs, _, s =>
      match tryClient ctxErr call c s with
      | ((err, true), s) => tryClients cs err s
      | ((err, false), s) => ((err, false), s)

/-- The loops over the three lists. -/
def Fallback.validate (f : Fallback) (s : σ) : Option GoError × σ :=
  if f.atLeastOne = false then (some (.sentinel .simErrNotFound), s)
  else
    match tryClients ctxErr call f.clientsRPC none s with
    | ((err, false), s) => (err, s)
    | ((err, true), s) =>
        match tryClients ctxErr call f.clientsWS err s with
        | ((err, false), s) => (err, s)
        | ((err, true), s) =>
            match tryClients ctxErr call f.clientsHTTP err s with
            | ((err, _), s) => (err, s)

/-- What the clients of a list return when they are asked one after the other; a context that has
ended counts as the error of the client whose turn it is. -/
def results : List SimClient → σ → List (Option GoError)
  | [], _ => []
  | c :: cs, s => (tryClient ctxErr call c s).1.1 :: results cs (tryClient ctxErr call c s).2

end Loops

def Fallback.validateBlock {σ : Type} (f : Fallback) (B : Behaviour σ) (s : σ) :
    Option GoError × σ :=
  f.validate B.ctxErr B.validateBlock s

def Fallback.validateBlockV2 {σ : Type} (f : Fallback) (B : Behaviour σ) (s : σ) :
    Option GoError × σ :=
  f.validate B.ctxErr B.validateBlockV2 s

/-! ### What the loops are for -/

/-- A result that says something about the block. -/
def decisive : Option GoError → Bool
  | none => true
  | some err => !fallsBack err

/-- The first result that says something about the block; or else the last error; or else that no
client was found. -/
def firstVerdict (rs : List (Option GoError)) : Option GoError :=
  match rs.find? decisive with
  | some r => r
  | none => rs.getLastD (some (.sentinel .simErrNotFound))

section Loops

variable {σ : Type} {ctxErr : σ → Option CtxErr}
  {call : SimClient → σ → (String × Option GoError) × σ} {s : σ}

theorem not_fallsBack_toError (e : CtxErr) : fallsBack e.toError = false := by
  cases e with
  | canceled => decide
  | deadlineExceeded => decide

/-- The loop goes on after the results that say nothing about the block. -/
theorem tryClient_snd (c : SimClient) (s : σ) :
    (tryClient ctxErr call c s).1.2 = !decisive (tryClient ctxErr call c s).1.1 := by
  simp only [tryClient]
  cases ctxErr s with
  | some e => simp [decisive, not_fallsBack_toError]
  | none =>
      obtain ⟨⟨node, err⟩, s'⟩ := call c s
      cases err with
      | none => rfl
      | some err => simp [decisive]

/-- A loop over two lists, one behind the other. -/
theorem tryClients_append (cs ds : List SimClient) (err : Option GoError) (s : σ) :
    tryClients ctxErr call (cs ++ ds) err s =
      match tryClients ctxErr call cs err s with
      | ((err, false), s) => ((err, false), s)
      | ((err, true), s) => tryClients ctxErr call ds err s := by
  induction cs generalizing err s with
  | nil => rfl
  | cons c cs ih =>
      simp only [List.cons_append, tryClients]
      obtain ⟨⟨err', keep⟩, s'⟩ := tryClient ctxErr call c s
      cases keep with
      | false => rfl
      | true => exact ih err' s'

/-- A loop ends with the first result that says something about the block, or else with the last
error. -/
theorem tryClients_eq (cs : List SimClient) (err : Option GoError) (s : σ) :
    (tryClients ctxErr call cs err s).1.1 =
      match (results ctxErr call cs s).find? decisive with
      | some r => r
      | none => (results ctxErr call cs s).getLastD err := by
  induction cs generalizing err s with
  | nil => rfl
  | cons c cs ih =>
      have hkeep : (tryClient ctxErr call c s).1.2 = !decisive (tryClient ctxErr call c s).1.1 :=
        tryClient_snd c s
      simp only [tryClients, results, List.find?_cons, List.getLastD_cons]
      generalize tryClient ctxErr call c s = out at hkeep ⊢
      obtain ⟨⟨err', keep⟩, s'⟩ := out
      simp only at hkeep
      subst hkeep
      cases hdec : decisive err' with
      | true => rfl
      | false => exact ih err' s'

namespace Fallback

/-- The three loops are one loop over the whole order. -/
theorem validate_eq (f : Fallback) (hset : f.atLeastOne = true) (s : σ) :
    f.validate ctxErr call s = ((tryClients ctxErr call f.order none s).1.1,
      (tryClients ctxErr call f.order none s).2) := by
  simp only [validate, hset, order, tryClients_append, Bool.true_eq_false, if_false]
  obtain ⟨⟨err, keep⟩, s₁⟩ := tryClients ctxErr call f.clientsRPC none s
  cases keep with
  | false => rfl
  | true =>
      simp only
      obtain ⟨⟨err', keep'⟩, s₂⟩ := tryClients ctxErr call f.clientsWS err s₁
      cases keep' with
      | false => rfl
      | true => rfl

/-- **The loops return the first verdict**, when the flag is set exactly if there is a client. -/
theorem validate_eq_firstVerdict (f : Fallback) (hset : f.atLeastOne = true ↔ f.order ≠ [])
    (s : σ) : (f.validate ctxErr call s).1 = firstVerdict (results ctxErr call f.order s) := by
  cases horder : f.order with
  | nil =>
      have hclear : f.atLeastOne = false := by simpa [horder] using hset
      simp [validate, hclear, results, firstVerdict]
  | cons c cs =>
      rw [validate_eq f (hset.2 (by simp [horder])), tryClients_eq, horder, firstVerdict]
      simp only [results, List.getLastD_cons]

end Fallback

/-- A verdict that is `nil` is that of a client. -/
theorem exists_of_firstVerdict_eq_none {cs : List SimClient}
    (h : firstVerdict (results ctxErr call cs s) = none) :
    ∃ c ∈ cs, ∃ s', ctxErr s' = none ∧ (call c s').1.2 = none := by
  -- the error of a client that is not decisive is an error
  have hmem : none ∈ results ctxErr call cs s := by
    simp only [firstVerdict] at h
    cases hfind : (results ctxErr call cs s).find? decisive with
    | some r =>
        rw [hfind] at h
        exact h ▸ List.mem_of_find?_eq_some hfind
    | none =>
        rw [hfind] at h
        cases hrs : results ctxErr call cs s with
        | nil => simp [hrs] at h
        | cons r rs =>
            rw [hrs, List.getLastD_cons] at h
            exact h ▸ List.getLastD_mem_cons
  clear h
  induction cs generalizing s with
  | nil => simp [results] at hmem
  | cons c cs ih =>
      simp only [results, List.mem_cons] at hmem
      rcases hmem with hc | hcs
      · refine ⟨c, List.mem_cons_self, s, ?_⟩
        simp only [tryClient] at hc
        cases hctx : ctxErr s with
        | some e => simp [hctx] at hc
        | none =>
            refine ⟨rfl, ?_⟩
            rw [hctx] at hc
            generalize call c s = out at hc ⊢
            obtain ⟨⟨node, err⟩, s'⟩ := out
            cases err with
            | none => rfl
            | some err => simp at hc
      · obtain ⟨d, hd, s', hs'⟩ := ih hcs
        exact ⟨d, List.mem_cons_of_mem _ hd, s', hs'⟩

end Loops

/-! ### The lists and the flag -/

/-- The clients of a kind that were added and have not been removed since. -/
def kept (kind : ClientKind) : List Fallback.Op → List SimClient
  | [] => []
  | .add cli :: later =>
      if cli.kind = kind ∧ .remove kind cli.id ∉ later then cli :: kept kind later
      else kept kind later
  | .remove _ _ :: later => kept kind later

/-- The clients of a kind that are registered after a history, in the order in which they were
added. -/
def registered (kind : ClientKind) (ops : List Fallback.Op) : List SimClient :=
  (kept kind ops).eraseDups

section Firsts

variable {α : Type} [DecidableEq α]

theorem eraseDups_append_singleton (l : List α) (a : α) :
    (l ++ [a]).eraseDups = if a ∈ l then l.eraseDups else l.eraseDups ++ [a] := by
  rw [List.eraseDups_append]
  by_cases h : a ∈ l
  · simp [List.removeAll, h]
  · simp [List.removeAll, h, List.eraseDups_cons]

theorem nodup_eraseDups (l : List α) : l.eraseDups.Nodup := by
  induction l using List.reverseRecOn with
  | nil => exact List.nodup_nil
  | append_singleton l a ih =>
      rw [eraseDups_append_singleton]
      split
      · exact ih
      · next h =>
          exact (List.perm_append_singleton a _).nodup_iff.2
            (List.nodup_cons.2 ⟨mt List.mem_eraseDups.1 h, ih⟩)

theorem eraseDups_filter (p : α → Bool) (l : List α) :
    (l.filter p).eraseDups = l.eraseDups.filter p := by
  induction l using List.reverseRecOn with
  | nil => rfl
  | append_singleton l a ih =>
      rw [eraseDups_append_singleton, List.filter_append]
      by_cases hp : p a = true
      · rw [List.filter_cons_of_pos hp, List.filter_nil, eraseDups_append_singleton, ih]
        by_cases ha : a ∈ l
        · simp [ha, hp]
        · simp [ha, hp]
      · rw [List.filter_cons_of_neg hp, List.filter_nil, List.append_nil, ih]
        by_cases ha : a ∈ l
        · simp [ha]
        · simp [ha, hp]

end Firsts

section Registered

variable {kind : ClientKind} {ops : List Fallback.Op}

theorem kept_append_add (cli : SimClient) : kept kind (ops ++ [.add cli]) =
    kept kind ops ++ if cli.kind = kind then [cli] else [] := by
  induction ops with
  | nil => simp [kept]
  | cons op ops ih =>
      cases op with
      | add d =>
          simp only [List.cons_append, kept, ih, List.mem_append, List.mem_singleton, reduceCtorEq,
            or_false]
          split
          · rfl
          · rfl
      | remove k id => exact ih

theorem kept_append_remove (k : ClientKind) (id : String) : kept kind (ops ++ [.remove k id]) =
    (kept kind ops).filter fun c => ¬(k = kind ∧ c.id = id) := by
  induction ops with
  | nil => rfl
  | cons op ops ih =>
      cases op with
      | add d =>
          simp only [List.cons_append, kept, ih, List.mem_append, List.mem_singleton,
            Fallback.Op.remove.injEq, not_or]
          by_cases hd : d.kind = kind ∧ .remove kind d.id ∉ ops
          · by_cases hk : k = kind ∧ d.id = id
            · rw [if_neg fun h => h.2.2 ⟨hk.1.symm, hk.2⟩, if_pos hd,
                List.filter_cons_of_neg (by simp [hk])]
            · rw [if_pos ⟨hd.1, hd.2, fun h => hk ⟨h.1.symm, h.2⟩⟩, if_pos hd]
              exact (List.filter_cons_of_pos (by simpa using not_and_or.1 hk)).symm
          · rw [if_neg hd, if_neg fun h => hd ⟨h.1, h.2.1⟩]
      | remove k' id' => exact ih

theorem kind_of_mem_kept {c : SimClient} (h : c ∈ kept kind ops) : c.kind = kind := by
  induction ops with
  | nil => cases h
  | cons op ops ih =>
      cases op with
      | add d =>
          simp only [kept] at h
          split at h
          · next hd =>
              rcases List.mem_cons.1 h with rfl | h
              · exact hd.1
              · exact ih h
          · exact ih h
      | remove k id => exact ih h

theorem mem_registered {c : SimClient} : c ∈ registered kind ops ↔ c ∈ kept kind ops :=
  List.mem_eraseDups

/-- No two of the clients have one name. -/
theorem nodup_registered (kind : ClientKind) (ops : List Fallback.Op) :
    ((registered kind ops).map SimClient.id).Nodup := by
  refine List.Nodup.map_on (fun c hc d hd hid => SimClient.ext ?_ hid) (nodup_eraseDups _)
  exact (kind_of_mem_kept (mem_registered.1 hc)).trans
    (kind_of_mem_kept (mem_registered.1 hd)).symm

theorem registered_append_add (kind : ClientKind) (ops : List Fallback.Op) (cli : SimClient) :
    registered kind (ops ++ [.add cli]) =
      if cli.kind = kind then addClient (registered kind ops) cli else registered kind ops := by
  rw [registered, kept_append_add]
  by_cases hkind : cli.kind = kind
  · rw [if_pos hkind, if_pos hkind, eraseDups_append_singleton, addClient]
    refine if_congr ?_ rfl rfl
    rw [List.any_eq_true]
    constructor
    · exact fun h => ⟨cli, mem_registered.2 h, decide_eq_true rfl⟩
    · rintro ⟨c, hc, hid⟩
      have hc := mem_registered.1 hc
      have heq : c = cli := SimClient.ext ((kind_of_mem_kept hc).trans hkind.symm)
        (of_decide_eq_true hid)
      exact heq ▸ hc
  · rw [if_neg hkind, if_neg hkind, List.append_nil]
    rfl

theorem removeClient_eq_filter {cs : List SimClient} (h : (cs.map SimClient.id).Nodup)
    (id : String) : removeClient cs id = cs.filter fun c => c.id ≠ id := by
  induction cs with
  | nil => rfl
  | cons c cs ih =>
      rw [List.map_cons, List.nodup_cons] at h
      by_cases hc : c.id = id
      · rw [removeClient, List.eraseP_cons_of_pos (by simpa using hc),
          List.filter_cons_of_neg (by simpa using hc)]
        have hne : ∀ d ∈ cs, d.id ≠ id := fun d hd heq =>
          h.1 (List.mem_map.2 ⟨d, hd, heq.trans hc.symm⟩)
        exact (List.filter_eq_self.2 fun d hd => decide_eq_true (hne d hd)).symm
      · rw [removeClient, List.eraseP_cons_of_neg (by simpa using hc),
          List.filter_cons_of_pos (by simpa using hc), ← ih h.2]
        rfl

theorem registered_append_remove (kind : ClientKind) (ops : List Fallback.Op) (k : ClientKind)
    (id : String) : registered kind (ops ++ [.remove k id]) =
      if k = kind then removeClient (registered kind ops) id else registered kind ops := by
  rw [registered, kept_append_remove, eraseDups_filter]
  by_cases hkind : k = kind
  · simp only [hkind, true_and, if_true, removeClient_eq_filter (nodup_registered kind ops)]
    rfl
  · rw [if_neg hkind]
    exact List.filter_eq_self.2 fun c _ => decide_eq_true fun h => hkind h.1

end Registered

namespace Fallback

/-- What holds of the lists and the flag after a history. -/
structure Inv (ops : List Op) (f : Fallback) : Prop where
  rpc : f.clientsRPC = registered .rpc ops
  ws : f.clientsWS = registered .ws ops
  http : f.clientsHTTP = registered .http ops
  flag : f.atLeastOne = true ↔ f.order ≠ []

variable {ops : List Op} {f : Fallback}

theorem inv_new : Inv [] new := ⟨rfl, rfl, rfl, by simp [new, order]⟩

theorem addClient_ne_nil (cs : List SimClient) (cli : SimClient) :
    Dreamboat.addClient cs cli ≠ [] := by
  simp only [Dreamboat.addClient]
  split
  · next h =>
      rintro rfl
      simp at h
  · simp

theorem Inv.addClient (h : Inv ops f) (cli : SimClient) (hkind : cli.kind.Known) :
    Inv (ops ++ [.add cli]) (f.addClient cli) := by
  have hlists := fun kind => registered_append_add kind ops cli
  simp only [Fallback.addClient]
  cases hk : cli.kind with
  | ws | http | rpc =>
      exact ⟨by simp [hlists, hk, h.rpc], by simp [hlists, hk, h.ws], by simp [hlists, hk, h.http],
        by simp [order, addClient_ne_nil]⟩
  | other kind =>
      rw [hk] at hkind
      exact hkind.elim

/-- The flag at the end of `RemoveClient`. -/
theorem flag_clearIfEmpty (hflag : f.order ≠ [] → f.atLeastOne = true) :
    f.clearIfEmpty.atLeastOne = true ↔ f.clearIfEmpty.order ≠ [] := by
  have horder : f.order = [] ↔ f.clientsWS = [] ∧ f.clientsHTTP = [] ∧ f.clientsRPC = [] := by
    simp only [order, List.append_eq_nil_iff]
    tauto
  simp only [clearIfEmpty, ← horder]
  split
  · next hempty =>
      have hnil : f.clientsRPC ++ f.clientsWS ++ f.clientsHTTP = [] := hempty
      simp [order, hnil]
  · next hne => simp [hne, hflag hne]

theorem lists_clearIfEmpty (f : Fallback) : f.clearIfEmpty.clientsRPC = f.clientsRPC ∧
    f.clearIfEmpty.clientsWS = f.clientsWS ∧ f.clearIfEmpty.clientsHTTP = f.clientsHTTP := by
  simp only [clearIfEmpty]
  split
  · exact ⟨rfl, rfl, rfl⟩
  · exact ⟨rfl, rfl, rfl⟩

/-- The lists are those of a history, and parts of the former ones. -/
theorem Inv.clearIfEmpty {ops' : List Op} {g : Fallback} (h : Inv ops f)
    (hrpc : g.clientsRPC = registered .rpc ops') (hws : g.clientsWS = registered .ws ops')
    (hhttp : g.clientsHTTP = registered .http ops') (hsub : g.order.Sublist f.order)
    (hflag : g.atLeastOne = f.atLeastOne) : Inv ops' g.clearIfEmpty := by
  obtain ⟨h₁, h₂, h₃⟩ := lists_clearIfEmpty g
  refine ⟨h₁.trans hrpc, h₂.trans hws, h₃.trans hhttp, flag_clearIfEmpty fun hne => ?_⟩
  rw [hflag]
  apply h.flag.2
  intro hnil
  rw [hnil] at hsub
  exact hne (List.sublist_nil.1 hsub)

theorem removeClient_sublist (cs : List SimClient) (id : String) :
    (Dreamboat.removeClient cs id).Sublist cs := List.eraseP_sublist

theorem Inv.removeClient (h : Inv ops f) (kind : ClientKind) (id : String) :
    Inv (ops ++ [.remove kind id]) (f.removeClient kind id) := by
  have hlists := fun k => registered_append_remove k ops kind id
  cases kind
  all_goals
    refine h.clearIfEmpty (by simp [hlists, h.rpc]) (by simp [hlists, h.ws])
      (by simp [hlists, h.http]) ?_ rfl
  · exact ((List.Sublist.refl _).append (removeClient_sublist _ _)).append (List.Sublist.refl _)
  · exact (List.Sublist.refl _).append (removeClient_sublist _ _)
  · exact ((removeClient_sublist _ _).append (List.Sublist.refl _)).append (List.Sublist.refl _)
  · exact List.Sublist.refl _

/-- **The lists and the flag after any calls.** -/
theorem inv_after (ops : List Op) (hkinds : ∀ cli, .add cli ∈ ops → cli.kind.Known) :
    Inv ops (after ops) := by
  induction ops using List.reverseRecOn with
  | nil => exact inv_new
  | append_singleton ops op ih =>
      have h := ih fun cli hcli => hkinds cli (List.mem_append_left _ hcli)
      have hlast : after (ops ++ [op]) = (after ops).apply op := by
        simp [after, List.foldl_append]
      rw [hlast]
      cases op with
      | add cli => exact h.addClient cli (hkinds cli (by simp))
      | remove kind id => exact h.removeClient kind id

/-- The clients in the lists are of the three kinds. -/
theorem Inv.known (h : Inv ops f) {c : SimClient} (hc : c ∈ f.order) : c.kind.Known := by
  have hmem : ∀ {kind : ClientKind}, c ∈ registered kind ops → c.kind = kind :=
    fun hc => kind_of_mem_kept (mem_registered.1 hc)
  simp only [order, h.rpc, h.ws, h.http, List.mem_append] at hc
  rcases hc with (hc | hc) | hc
  · rw [hmem hc]
    trivial
  · rw [hmem hc]
    trivial
  · rw [hmem hc]
    trivial

/-- One of two clients of a kind is removed and added again, behind the other one. -/
def addedAgain : List Op :=
  [.add ⟨.http, "h"⟩, .add ⟨.rpc, "a"⟩, .add ⟨.rpc, "b"⟩, .remove .rpc "a", .add ⟨.rpc, "a"⟩]

/-- The nodes of one kind are not reached, and the block is valid for all others. -/
def onlyRpcDown : Behaviour Unit where
  ctxErr _ := none
  validateBlock c s :=
    (("", if c.kind = .rpc then some (.sentinel .errConnectionFailure) else none), s)
  validateBlockV2 _ s := (("", none), s)

end Fallback

end Dreamboat
