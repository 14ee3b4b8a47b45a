/-
**What a beacon node answers, and what the relay takes for an answer.**

`queryBeacon` sends a request to one beacon node and decodes the body of the response.  A status
from 300 to 403 is an error; a status from 404 on returns `nil` without decoding anything, so that
the caller is left with the zero value and takes it for an answer.  The client for several nodes
stops at the first node without an error, and `updateKnownValidators` replaces the known validators
by what it gets.

This module says when the relay takes only what a node has answered with success, and does take it
when there is one: when every response that is misread stands behind one that is not.

Main definitions:

* `Reply`, `queryBeacon` — what comes back from a node, and what is made of it;
* `Reply.Good`, `Reply.Misread` — a response with success, and one that is taken for one;
* `Manager.updateKnownValidators` — the known validators.

Main results:

* `exists_queryBeacon_eq_ok_iff` — a node has no error exactly when its response is good or misread;
* `answersOfSuccess_iff` — the same for the first of several nodes, over any data;
* `successOnly_iff` — **when the duties and the validators are those of a success**.
-/

import Dreamboat.GoMap
import Dreamboat.MultiBeacon

set_option autoImplicit false

namespace Dreamboat

/-! ### One node -/

/-- What comes back for a request to a node: the request cannot be made, the node cannot be reached,
or a response with its status and its body, which may break off. -/
inductive Reply where
  | invalid (err : GoError)
  | refused (err : GoError)
  | response (statusCode : ℕ) (body : Except GoError String)

/-- The decoders of the bodies: of the duties, of the validators and of an error, of which the
message is kept. -/
structure Json where
  proposers : String → Except GoError RegisteredProposersResponse
  validators : String → Except GoError AllValidatorsResponse
  message : String → Except GoError String

namespace Reply

variable {α : Type}

/-- A response with success, and the data that its body stands for. -/
def Good (decode : String → Except GoError α) (r : Reply) (a : α) : Prop :=
  ∃ statusCode body, r = .response statusCode (.ok body) ∧ 200 ≤ statusCode ∧ statusCode < 300 ∧
    decode body = .ok a

/-- A response without success that is not taken for an error: one with a status from 404 on, or
with one below 200 and a body that can be decoded. -/
def Misread (decode : String → Except GoError α) (r : Reply) : Prop :=
  ∃ statusCode body, r = .response statusCode (.ok body) ∧
    (404 ≤ statusCode ∨ statusCode < 200 ∧ ∃ a, decode body = .ok a)

theorem Misread.not_good {decode : String → Except GoError α} {r : Reply} (h : r.Misread decode)
    (a : α) : ¬r.Good decode a := by
  rintro ⟨statusCode, body, rfl, hge, hlt, -⟩
  obtain ⟨statusCode', body', heq, hcases⟩ := h
  obtain ⟨rfl, -⟩ : statusCode = statusCode' ∧ body = body' := by simpa using heq
  omega

end Reply

section Node

variable {α : Type} [Inhabited α]

/-- `queryBeacon`: the data the caller is left with, or the error; `decode` is the decoder of the
type of the data. -/
def queryBeacon (message : String → Except GoError String) (decode : String → Except GoError α)
    (u : String) : Reply → Except GoError α
  | .invalid err => .error (.wrap ("invalid request for " ++ u ++ ": " ++ err.error) err)
  | .refused err => .error (.wrap ("client refused for " ++ u ++ ": " ++ err.error) err)
  | .response _ (.error err) =>
      .error (.wrap ("could not read response body for " ++ u ++ ": " ++ err.error) err)
  | .response statusCode (.ok body) =>
      -- what the caller has put in place of the data stays
      if statusCode ≥ 404 then .ok default
      else if statusCode ≥ 300 then
        match message body with
        | .error err => .error (.wrap ("could not unmarshal error response from beacon node for " ++
            u ++ " from " ++ body ++ ": " ++ err.error) err)
        | .ok msg => .error (.wrapf .errHTTPErrorResponse msg)
      else
        match decode body with
        | .error err =>
            .error (.wrap ("could not unmarshal response for " ++ u ++ " from " ++ body ++ ": " ++
              err.error) err)
        | .ok a => .ok a

variable {message : String → Except GoError String} {decode : String → Except GoError α}
  {u : String} {r : Reply}

theorem Reply.Good.queryBeacon {a : α} (h : r.Good decode a) :
    Dreamboat.queryBeacon message decode u r = .ok a := by
  obtain ⟨statusCode, body, rfl, -, hlt, ha⟩ := h
  have h₁ : ¬404 ≤ statusCode := by omega
  have h₂ : ¬300 ≤ statusCode := by omega
  simp [Dreamboat.queryBeacon, h₁, h₂, ha]

variable (message u) in
/-- A node has no error exactly when its response is good or misread. -/
theorem exists_queryBeacon_eq_ok_iff :
    (∃ a, queryBeacon message decode u r = .ok a) ↔ (∃ a, r.Good decode a) ∨ r.Misread decode := by
  constructor
  · rintro ⟨a, h⟩
    cases r with
    | invalid err => cases h
    | refused err => cases h
    | response statusCode body =>
        cases body with
        | error err => cases h
        | ok body =>
            simp only [queryBeacon] at h
            split at h
            · next hge => exact .inr ⟨statusCode, body, rfl, .inl hge⟩
            · split at h
              · split at h
                all_goals cases h
              · next h404 h300 =>
                  cases hdec : decode body with
                  | error err => simp [hdec] at h
                  | ok a' =>
                      by_cases hok : 200 ≤ statusCode
                      · exact .inl ⟨a', statusCode, body, rfl, hok, by omega, hdec⟩
                      · exact .inr ⟨statusCode, body, rfl, .inr ⟨by omega, a', hdec⟩⟩
  · rintro (⟨a, h⟩ | ⟨statusCode, body, rfl, hge | ⟨hlt, a, ha⟩⟩)
    · exact ⟨a, h.queryBeacon⟩
    · exact ⟨default, by simp [queryBeacon, hge]⟩
    · have h₁ : ¬404 ≤ statusCode := by omega
      have h₂ : ¬300 ≤ statusCode := by omega
      exact ⟨a, by simp [queryBeacon, h₁, h₂, ha]⟩

/-- A good response is not misread, and the data are those of its body. -/
theorem Reply.Good.of_queryBeacon {a a' : α} (h : r.Good decode a')
    (hq : Dreamboat.queryBeacon message decode u r = .ok a) : r.Good decode a := by
  rw [h.queryBeacon] at hq
  exact Except.ok.inj hq ▸ h

end Node

namespace BeaconClient

/-- `GetProposerDuties` of one node. -/
def getProposerDuties (json : Json) (beaconEndpoint : String) (epoch : UInt64) :
    Reply → Except GoError RegisteredProposersResponse :=
  queryBeacon json.message json.proposers
    (beaconEndpoint ++ "/eth/v1/validator/duties/proposer/" ++ toString epoch)

/-- `KnownValidators` of one node. -/
def knownValidators (json : Json) (beaconEndpoint : String) (headSlot : UInt64) :
    Reply → Except GoError AllValidatorsResponse :=
  queryBeacon json.message json.validators
    (beaconEndpoint ++ "/eth/v1/beacon/states/" ++ toString headSlot ++
      "/validators?status=active%2Cpending")

end BeaconClient

/-! ### Several nodes -/

namespace MultiBeaconClient

variable {Node α : Type} {b : MultiBeaconClient Node} {l : List Node}

/-- The remembered position is the first one or one inside the list. -/
def Valid (b : MultiBeaconClient Node) : Prop :=
  b.bestBeaconIndex = 0 ∨ b.bestBeaconIndex < b.clients.length

theorem Valid.exists_perm (h : b.Valid) :
    ∃ l, b.clientsByLastResponse = some l ∧ l.Perm b.clients := by
  rcases h with hzero | hlt
  · exact ⟨b.clients, by simp [clientsByLastResponse, hzero], .refl _⟩
  · obtain ⟨l, hl, hperm, -⟩ := MultiBeaconClient.exists_order hlt
    exact ⟨l, hl, hperm⟩

theorem Valid.exists_order (h : b.Valid) : ∃ l, b.clientsByLastResponse = some l := by
  obtain ⟨l, hl, -⟩ := h.exists_perm
  exact ⟨l, hl⟩

/-- What a call returns without an error are the data of a response with success, that of the node
whose position it remembers; and it returns such data when there is such a response. -/
def AnswersOfSuccess (decode : String → Except GoError α) (reply : ℕ → Node → Reply)
    (l : List Node) (res : Except GoError α) (b' : MultiBeaconClient Node) : Prop :=
  (∀ a, res = .ok a →
    ∃ n, l[b'.bestBeaconIndex]? = some n ∧ (reply b'.bestBeaconIndex n).Good decode a) ∧
  ((∃ i n a, l[i]? = some n ∧ (reply i n).Good decode a) → ∃ a, res = .ok a)

/-- Every response that is misread stands behind a good one. -/
def MisreadBehindGood (decode : String → Except GoError α) (reply : ℕ → Node → Reply)
    (l : List Node) : Prop :=
  ∀ i n, l[i]? = some n → (reply i n).Misread decode →
    ∃ j < i, ∃ m a, l[j]? = some m ∧ (reply j m).Good decode a

variable [Inhabited α] {message : String → Except GoError String}
  {decode : String → Except GoError α} {url : Node → String} {reply : ℕ → Node → Reply}

/-- The nodes are asked by `queryBeacon`. -/
def asks (message : String → Except GoError String) (decode : String → Except GoError α)
    (url : Node → String) (reply : ℕ → Node → Reply) : ℕ → Node → Except GoError α :=
  fun i n => queryBeacon message decode (url n) (reply i n)

variable (message url) in
/-- A response that is not an error stands at or behind the first answer. -/
theorem exists_firstAnswer {i : ℕ} {n : Node} (hn : l[i]? = some n)
    (hok : (∃ a, (reply i n).Good decode a) ∨ (reply i n).Misread decode) :
    ∃ j a, j ≤ i ∧ firstAnswer (asks message decode url reply) 0 l = some (j, a) := by
  obtain ⟨a, ha⟩ := (exists_queryBeacon_eq_ok_iff message (url n)).2 hok
  cases hfirst : firstAnswer (asks message decode url reply) 0 l with
  | none =>
      obtain ⟨err, herr⟩ := firstAnswer_eq_none hfirst i n hn
      rw [Nat.zero_add] at herr
      cases herr.symm.trans ha
  | some p =>
      obtain ⟨j, a'⟩ := p
      refine ⟨j, a', ?_, rfl⟩
      obtain ⟨k, c, hjk, -, -, hbefore⟩ := firstAnswer_eq_some hfirst
      rw [Nat.zero_add] at hjk
      subst hjk
      -- the nodes before the first answer have failed
      by_contra hlt
      obtain ⟨err, herr⟩ := hbefore i (by omega) n hn
      rw [Nat.zero_add] at herr
      cases herr.symm.trans ha

/-- **The first answer is that of a success exactly when every response that is misread stands
behind a good one.** -/
theorem answersOfSuccess_iff (hl : b.clientsByLastResponse = some l) :
    (∃ res b', b.query (asks message decode url reply) = some (res, b') ∧
      AnswersOfSuccess decode reply l res b') ↔ MisreadBehindGood decode reply l := by
  cases hfirst : firstAnswer (asks message decode url reply) 0 l with
  | none =>
      -- all the nodes have failed, so no response is good or misread
      have hnone : ∀ i n, l[i]? = some n →
          ¬((∃ a, (reply i n).Good decode a) ∨ (reply i n).Misread decode) := by
        intro i n hn hok
        obtain ⟨j, a, -, hj⟩ := exists_firstAnswer message url hn hok
        rw [hfirst] at hj
        cases hj
      refine iff_of_true ⟨_, _, query_of_none hl hfirst, ?_, ?_⟩ ?_
      · intro a ha
        cases ha
      · rintro ⟨i, n, a, hn, hgood⟩
        exact absurd (.inl ⟨a, hgood⟩) (hnone i n hn)
      · intro i n hn hmis
        exact absurd (.inr hmis) (hnone i n hn)
  | some p =>
      obtain ⟨i, a⟩ := p
      obtain ⟨k, n, hik, hn, hask, hbefore⟩ := firstAnswer_eq_some hfirst
      rw [Nat.zero_add] at hik
      subst hik
      rw [query_of_firstAnswer hl hfirst]
      constructor
      · rintro ⟨res, b', hres, hdata, -⟩ j m hm hmis
        obtain ⟨rfl, rfl⟩ : .ok a = res ∧ { b with bestBeaconIndex := i } = b' := by
          simpa using hres
        obtain ⟨n', hn', hgood⟩ := hdata a rfl
        obtain ⟨j', a', hj', hfirst'⟩ :=
          exists_firstAnswer message url hm (.inr hmis)
        obtain ⟨rfl, -⟩ : i = j' ∧ a = a' := by simpa [hfirst] using hfirst'
        -- the response that is misread is not the one of the answer
        have hne : i ≠ j := by
          rintro rfl
          obtain rfl : n' = m := Option.some_inj.1 (hn'.symm.trans hm)
          exact hmis.not_good a hgood
        exact ⟨i, by omega, n', a, hn', hgood⟩
      · intro hbehind
        have hgood : (reply i n).Good decode a := by
          rcases (exists_queryBeacon_eq_ok_iff message (url n)).1 ⟨a, hask⟩ with ⟨a', hgood⟩ | hmis
          · exact hgood.of_queryBeacon hask
          · obtain ⟨j, hj, m, a', hm, hgood⟩ := hbehind i n hn hmis
            obtain ⟨err, herr⟩ := hbefore j hj m hm
            rw [Nat.zero_add] at herr
            cases herr.symm.trans hgood.queryBeacon
        refine ⟨_, _, rfl, ?_, fun _ => ⟨a, rfl⟩⟩
        intro a' ha'
        cases ha'
        exact ⟨n, hn, hgood⟩

end MultiBeaconClient

/-! ### The known validators -/

/-- The validators that are known, by their key and by their index. -/
structure ValidatorsState where
  knownValidatorsByIndex : Go.Map UInt64 String
  knownValidators : Go.Map String Unit

/-- The validators of a response; the keys are kept in lower case. -/
def ValidatorsState.ofResponse (validators : AllValidatorsResponse) : ValidatorsState :=
  validators.data.foldl
    (fun s vs =>
      { knownValidatorsByIndex := s.knownValidatorsByIndex.insert vs.index vs.pubkey.toLower
        knownValidators := s.knownValidators.insert vs.pubkey.toLower () })
    ⟨∅, ∅⟩

/-- `updateKnownValidators`, where `validators` is what the client for several nodes returns. -/
def Manager.updateKnownValidators (known : ValidatorsState) :
    Except GoError AllValidatorsResponse → ValidatorsState × Option GoError
  | .error err => (known, some err)
  | .ok validators => (.ofResponse validators, none)

/-- The known validators stay as they are or become those of a response with success. -/
def KnownOfSuccess {Node : Type} (json : Json) (reply : ℕ → Node → Reply) (l : List Node)
    (res : Except GoError AllValidatorsResponse) : Prop :=
  ∀ known, (Manager.updateKnownValidators known res).1 = known ∨
    ∃ i n a, l[i]? = some n ∧ (reply i n).Good json.validators a ∧
      (Manager.updateKnownValidators known res).1 = .ofResponse a

theorem MultiBeaconClient.AnswersOfSuccess.knownOfSuccess {Node : Type} {json : Json}
    {reply : ℕ → Node → Reply} {l : List Node} {res : Except GoError AllValidatorsResponse}
    {b' : MultiBeaconClient Node} (h : AnswersOfSuccess json.validators reply l res b') :
    KnownOfSuccess json reply l res := by
  intro known
  cases res with
  | error err => exact .inl rfl
  | ok a =>
      obtain ⟨n, hn, hgood⟩ := h.1 a rfl
      exact .inr ⟨_, n, a, hn, hgood, rfl⟩

open MultiBeaconClient in
/-- **When the duties and the validators are those of a success.**  For any nodes, any order in
which they are asked and any responses, `GetProposerDuties` and `KnownValidators` return without an
error only the data of a response with success, and return such data when there is such a response,
so that the known validators are never replaced by anything else: if and only if every response that
is misread stands behind a good one. -/
theorem successOnly_iff (json : Json) (b : MultiBeaconClient String) (hb : b.Valid)
    (epoch headSlot : UInt64) (duties validators : ℕ → String → Reply) :
    ∃ l, b.clientsByLastResponse = some l ∧
      ((∃ res b', b.getProposerDuties
            (fun i n => BeaconClient.getProposerDuties json n epoch (duties i n)) = some (res, b') ∧
          AnswersOfSuccess json.proposers duties l res b') ↔
        MisreadBehindGood json.proposers duties l) ∧
      ((∃ res b', b.knownValidators
            (fun i n => BeaconClient.knownValidators json n headSlot (validators i n)) =
              some (res, b') ∧
          AnswersOfSuccess json.validators validators l res b' ∧
          KnownOfSuccess json validators l res) ↔
        MisreadBehindGood json.validators validators l) := by
  obtain ⟨l, hl⟩ := hb.exists_order
  refine ⟨l, hl, answersOfSuccess_iff hl, ?_⟩
  have hiff : (∃ res b', b.knownValidators
      (fun i n => BeaconClient.knownValidators json n headSlot (validators i n)) = some (res, b') ∧
        AnswersOfSuccess json.validators validators l res b') ↔
      MisreadBehindGood json.validators validators l := answersOfSuccess_iff hl
  rw [← hiff]
  constructor
  · rintro ⟨res, b', hres, hanswers, -⟩
    exact ⟨res, b', hres, hanswers⟩
  · rintro ⟨res, b', hres, hanswers⟩
    exact ⟨res, b', hres, hanswers, hanswers.knownOfSuccess⟩

/-- Decoders that know the body of one response, with one validator. -/
def oneValidator : Json where
  proposers _ := .error (.new "unexpected end of JSON input")
  validators body :=
    if body = "validators" then .ok ⟨[⟨7, "32000000000", "active", "0xab"⟩]⟩
    else .error (.new "unexpected end of JSON input")
  message body := .ok body

open MultiBeaconClient in
/-- The first node cannot be reached: the validators are those of the second one. -/
theorem successOnly_iff_unreachable :
    ∃ res b', (⟨["a", "b"], 0⟩ : MultiBeaconClient String).knownValidators
        (fun i n => BeaconClient.knownValidators oneValidator n 64
          (if i = 0 then .refused (.new "") else .response 200 (.ok "validators"))) =
          some (res, b') ∧
      AnswersOfSuccess oneValidator.validators
        (fun i _ => if i = 0 then .refused (.new "") else .response 200 (.ok "validators"))
        ["a", "b"] res b' := by
  obtain ⟨l, hl, -, hiff⟩ := successOnly_iff oneValidator ⟨["a", "b"], 0⟩ (.inl rfl) 2 64
    (fun _ _ => .refused (.new ""))
    fun i _ => if i = 0 then .refused (.new "") else .response 200 (.ok "validators")
  obtain rfl : ["a", "b"] = l := Option.some_inj.1 hl
  obtain ⟨res, b', hres, hanswers, -⟩ := hiff.2 (by
    -- no response is misread
    rintro i n hn ⟨statusCode, body, heq, hcases⟩
    by_cases hi : i = 0
    · simp [hi] at heq
    · obtain ⟨rfl, rfl⟩ : 200 = statusCode ∧ "validators" = body := by simpa [hi] using heq
      omega)
  exact ⟨res, b', hres, hanswers⟩

open MultiBeaconClient in
/-- The first node answers with the status 404, the second one with a validator: nothing is returned
in place of the validators, and all that were known are forgotten. -/
theorem emptied_by_not_found :
    ∃ res b', (⟨["a", "b"], 0⟩ : MultiBeaconClient String).knownValidators
        (fun i n => BeaconClient.knownValidators oneValidator n 64
          (if i = 0 then .response 404 (.ok "") else .response 200 (.ok "validators"))) =
          some (res, b') ∧
      res = .ok ⟨[]⟩ ∧ (∀ known, (Manager.updateKnownValidators known res).1 = ⟨∅, ∅⟩) ∧
      ¬AnswersOfSuccess oneValidator.validators
        (fun i _ => if i = 0 then .response 404 (.ok "") else .response 200 (.ok "validators"))
        ["a", "b"] res b' := by
  refine ⟨_, _, rfl, rfl, fun _ => rfl, ?_⟩
  rintro ⟨hdata, -⟩
  obtain ⟨n, -, statusCode, body, heq, -, hlt, -⟩ := hdata ⟨[]⟩ rfl
  obtain ⟨rfl, -⟩ : 404 = statusCode ∧ "" = body := by simpa using heq
  omega

end Dreamboat
