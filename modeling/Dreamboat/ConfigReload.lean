/-
**Reloading the configuration.**

The relay reads its configuration file at the start, builds the parts that use dynamic parameters
from it and subscribes them to the section they belong to: the configuration of the relay to
`[relay]`, the rate limiter and the API to `[api]`.  On a signal the file is read again, and what
these parts have of the new values is what they take over from the announcements on the way.  An
announcement carries its value in an interface; a listener looks at the dynamic type and ignores
what it does not expect, and the errors of listeners are dropped.

The sequence of values that one reading gives a parameter says everything: the configuration has the
last of them, a listener the last one that it could take over.

Main definitions:

* `ConfigFile.RelayConfig.onConfigChange`, `ConfigFile.Limitter.onConfigChange`,
  `ConfigFile.API.onConfigChange` — the listeners;
* `ConfigFile.start`, `ConfigFile.reload` — the relay with its configuration;
* `ConfigFile.ListenersCurrent` — after every reload without an error the listeners have the values
  that the file has changed;
* `ConfigFile.ListenersAccept` — which values they can have.

Main results:

* `ConfigFile.held_notify` — a listener has the last value that it could take over;
* `ConfigFile.listenersCurrent_iff` — **the listeners are current exactly when no duration is
  changed and every list that is changed is one of public keys**, apart from values that a listener
  had already;
* `ConfigFile.stale_after_reload` — a duration that is changed and a list that is emptied do not
  reach the relay.
-/

import Mathlib.Data.Finset.Insert
import Dreamboat.ConfigFile
import Dreamboat.KeyedLog
import Dreamboat.PostgresStore

set_option autoImplicit false

namespace Dreamboat.ConfigFile

/-! ### Public keys -/

/-- `types.PublicKey.UnmarshalText`. -/
def unmarshalText (input : Text) : Except GoError PublicKey :=
  if input = [] then fromSlice 48 [] else hexDecode (String.ofList input) >>= fromSlice 48

/-- One key of the loop of `makeKeyMap`. -/
def addKey (newKeys : Finset PublicKey) (key : Text) : Except GoError (Finset PublicKey) :=
  match unmarshalText key with
  | .ok pk => .ok (insert pk newKeys)
  | .error e => .error (.wrap ("allowed builder not added - wrong public key: " ++
      String.ofList key ++ "  - " ++ e.error) e)

def makeKeyMap (keys : List Text) : Except GoError (Finset PublicKey) := keys.foldlM addKey ∅

/-! ### Listeners -/

/-- The configuration of the relay, as far as it can change; `none` is a nil map. -/
structure RelayConfig where
  getPayloadResponseDelay : ℤ
  getPayloadRequestTimeLimit : ℤ
  streamServedBids : Bool
  publishBlock : Bool
  allowedListedBuilders : Option (Finset PublicKey)

def RelayConfig.onConfigChange (rc : RelayConfig) (c : OldNew) : Except GoError RelayConfig :=
  match c.name with
  | "PublishBlock" =>
      match c.new with
      | .bool b => .ok { rc with publishBlock := b }
      | _ => .ok rc
  | "StreamServedBids" =>
      match c.new with
      | .bool b => .ok { rc with streamServedBids := b }
      | _ => .ok rc
  | "GetPayloadResponseDelay" =>
      match c.new with
      | .duration dur => .ok { rc with getPayloadResponseDelay := dur }
      | _ => .ok rc
  | "GetPayloadRequestTimeLimit" =>
      match c.new with
      | .duration dur => .ok { rc with getPayloadRequestTimeLimit := dur }
      | _ => .ok rc
  | "AllowedBuilders" =>
      match c.new with
      | .strings keys =>
          (makeKeyMap keys).map fun ab => { rc with allowedListedBuilders := some ab }
      | _ => .ok rc
  | _ => .ok rc

/-- The rate limiter of submissions; the rate is the integer that `rate.Limit` converts. -/
structure Limitter where
  allowedBuilders : Option (Finset PublicKey)
  rateLimit : ℤ
  burst : ℤ

def Limitter.onConfigChange (l : Limitter) (c : OldNew) : Except GoError Limitter :=
  match c.name with
  | "SubmissionLimitRate" =>
      match c.new with
      | .int64 i => .ok { l with rateLimit := i }
      | _ => .ok l
  | "SubmissionLimitBurst" =>
      match c.new with
      | .int64 i => .ok { l with burst := i }
      | _ => .ok l
  | "AllowedBuilders" =>
      match c.new with
      | .strings keys => (makeKeyMap keys).map fun ab => { l with allowedBuilders := some ab }
      | _ => .ok l
  | _ => .ok l

structure API where
  dataLimit : ℤ
  errorsOnDisable : Bool

def API.onConfigChange (a : API) (c : OldNew) : Except GoError API :=
  match c.name with
  | "DataLimit" =>
      match c.new with
      | .int64 i => .ok { a with dataLimit := i }
      | _ => .ok a
  | "ErrorsOnDisable" =>
      match c.new with
      | .bool b => .ok { a with errorsOnDisable := b }
      | _ => .ok a
  | _ => .ok a

structure Listeners where
  relayConfig : RelayConfig
  limitter : Limitter
  api : API

inductive Listener where
  | relayConfig | limitter | api
  deriving DecidableEq, Repr

/-- The calls of `SubscribeForUpdates` at the start. -/
def subscribers (root : Path) : List Listener :=
  if root = ["Relay"] then [.relayConfig]
  else if root = ["Api"] then [.limitter, .api]
  else []

/-- A listener is told about a change; its error is dropped. -/
def Listeners.onConfigChange (w : Listeners) (c : OldNew) : Listener → Listeners
  | .relayConfig =>
      { w with relayConfig := (w.relayConfig.onConfigChange c).toOption.getD w.relayConfig }
  | .limitter => { w with limitter := (w.limitter.onConfigChange c).toOption.getD w.limitter }
  | .api => { w with api := (w.api.onConfigChange c).toOption.getD w.api }

/-- `Subscriber.Propagate` of the struct at a path. -/
def Listeners.propagate (w : Listeners) (root : Path) (c : OldNew) : Listeners :=
  (subscribers root).foldl (fun w l => w.onConfigChange c l) w

/-- The listeners after the announcement of a change. -/
def Listeners.hear (w : Listeners) (ch : Change) : Listeners :=
  match ch.announced with
  | none => w
  | some (root, c) => w.propagate root c

def Listeners.notify (w : Listeners) (changes : List Change) : Listeners :=
  changes.foldl Listeners.hear w

/-! ### The relay -/

def Value.asDuration : Value → ℤ
  | duration d => d
  | _ => 0

def Value.asInt : Value → ℤ
  | int i => i
  | _ => 0

def Value.asBool : Value → Bool
  | bool b => b
  | _ => false

def Value.asStrings : Value → List Text
  | strings l => l
  | _ => []

/-- The listeners as they are built at the start; `ParseInitialConfig` leaves a nil map for a list
with a text that is no key. -/
def setup (c : Config) : Listeners where
  relayConfig :=
    { getPayloadResponseDelay := (c ["Relay", "GetPayloadResponseDelay"]).asDuration
      getPayloadRequestTimeLimit := (c ["Relay", "GetPayloadRequestTimeLimit"]).asDuration
      streamServedBids := (c ["Distributed", "StreamServedBids"]).asBool
      publishBlock := (c ["Relay", "PublishBlock"]).asBool
      allowedListedBuilders := (makeKeyMap (c ["Relay", "AllowedBuilders"]).asStrings).toOption }
  limitter :=
    { allowedBuilders := (makeKeyMap (c ["Api", "AllowedBuilders"]).asStrings).toOption
      rateLimit := (c ["Api", "SubmissionLimitRate"]).asInt
      burst := (c ["Api", "SubmissionLimitBurst"]).asInt }
  api :=
    { dataLimit := (c ["Api", "DataLimit"]).asInt
      errorsOnDisable := (c ["Api", "ErrorsOnDisable"]).asBool }

structure State where
  config : Config
  listeners : Listeners

/-- The configuration and the listeners at the start. -/
def started (P : Parsers) (first : Version) : State :=
  let c := (load P first defaultConfig true).config
  ⟨c, setup c⟩

/-- The relay runs once its first file has been read without an error. -/
def start (P : Parsers) (first : Version) : Option State :=
  if (load P first defaultConfig true).stop = none then some (started P first) else none

/-- What `Reload` does. -/
def reload (P : Parsers) (s : State) (version : Version) : State :=
  let o := load P version s.config false
  ⟨o.config, s.listeners.notify o.changes⟩

/-- `Q` holds of every reload that returns nil in the state before it; a panic ends the relay. -/
def EachReload (P : Parsers) (Q : State → Version → Prop) : State → List Version → Prop
  | _, [] => True
  | s, version :: versions =>
      ((load P version s.config false).stop = none → Q s version) ∧
        ((∀ msg, (load P version s.config false).stop ≠ some (.panic msg)) →
          EachReload P Q (reload P s version) versions)

/-! ### Values in the file and in the listeners -/

/-- What a parameter is for a listener. -/
inductive Setting where
  | duration (nanoseconds : ℤ)
  | int (i : ℤ)
  | bool (b : Bool)
  | keys (ks : Finset PublicKey)
  deriving DecidableEq

/-- The keys in a comma separated list; the list of an empty text is the empty one. -/
def listedKeys (l : List Text) : Option (Finset PublicKey) :=
  if l = [[]] then some ∅ else (makeKeyMap l).toOption

/-- The meaning of a value in the file for a listener. -/
def Value.setting : Value → Option Setting
  | duration d => some (.duration d)
  | int i => some (.int i)
  | bool b => some (.bool b)
  | strings l => (listedKeys l).map .keys
  | _ => none

def RelayConfig.held (rc : RelayConfig) : String → Option Setting
  | "PublishBlock" => some (.bool rc.publishBlock)
  | "StreamServedBids" => some (.bool rc.streamServedBids)
  | "GetPayloadResponseDelay" => some (.duration rc.getPayloadResponseDelay)
  | "GetPayloadRequestTimeLimit" => some (.duration rc.getPayloadRequestTimeLimit)
  | "AllowedBuilders" => some (.keys (rc.allowedListedBuilders.getD ∅))
  | _ => none

def Limitter.held (l : Limitter) : String → Option Setting
  | "SubmissionLimitRate" => some (.int l.rateLimit)
  | "SubmissionLimitBurst" => some (.int l.burst)
  | "AllowedBuilders" => some (.keys (l.allowedBuilders.getD ∅))
  | _ => none

def API.held (a : API) : String → Option Setting
  | "DataLimit" => some (.int a.dataLimit)
  | "ErrorsOnDisable" => some (.bool a.errorsOnDisable)
  | _ => none

/-- What a listener has for the parameter of a name, if it handles one of that name. -/
def Listeners.held (w : Listeners) : Listener → String → Option Setting
  | .relayConfig, name => w.relayConfig.held name
  | .limitter, name => w.limitter.held name
  | .api, name => w.api.held name

/-- The values that a reading gives the parameter at a path, in order. -/
def valuesAt (path : Path) (changes : List Change) : List Value :=
  (changes.filter fun ch => ch.path = path).map Change.value

/-- Every listener has the new value of every parameter that it handles and that the reload has
changed. -/
def Current (P : Parsers) (s : State) (version : Version) : Prop :=
  ∀ root, ∀ l ∈ subscribers root, ∀ name x, s.listeners.held l name = some x →
    (reload P s version).config (root ++ [name]) ≠ s.config (root ++ [name]) →
    ∃ y, ((reload P s version).config (root ++ [name])).setting = some y ∧
      (reload P s version).listeners.held l name = some y

def ListenersCurrent (P : Parsers) (first : Version) (versions : List Version) : Prop :=
  ∀ s ∈ start P first, EachReload P (Current P) s versions

def AllKeys (l : List Text) : Prop := ∀ key ∈ l, (unmarshalText key).isOk = true

/-- A listener that has `before` can have the last value `b` of the values `vs` that a file gives a
parameter.  A duration is one that it had before; a list is one of public keys, or it is empty and
so is the one before, and the file gives no list of keys in between. -/
def Accepts (before : Setting) (vs : List Value) : Value → Prop
  | .duration d => before = .duration d
  | .strings l => AllKeys l ∨
      (l = [[]] ∧ before = .keys ∅ ∧ ∀ l', .strings l' ∈ vs → ¬AllKeys l')
  | _ => True

/-- The listeners can have the new value of every parameter that the reload has changed. -/
def Acceptable (P : Parsers) (s : State) (version : Version) : Prop :=
  ∀ root, ∀ l ∈ subscribers root, ∀ name x, s.listeners.held l name = some x →
    (reload P s version).config (root ++ [name]) ≠ s.config (root ++ [name]) →
    Accepts x (valuesAt (root ++ [name]) (load P version s.config false).changes)
      ((reload P s version).config (root ++ [name]))

def ListenersAccept (P : Parsers) (first : Version) (versions : List Version) : Prop :=
  ∀ s ∈ start P first, EachReload P (Acceptable P) s versions

/-! ### Lists of keys -/

theorem foldlM_addKey_eq_ok_iff {newKeys : Finset PublicKey} {l : List Text} :
    (∃ ks, l.foldlM addKey newKeys = .ok ks) ↔ AllKeys l := by
  induction l generalizing newKeys with
  | nil => exact ⟨fun _ _ hkey => absurd hkey List.not_mem_nil, fun _ => ⟨newKeys, rfl⟩⟩
  | cons key l ih =>
      rw [List.foldlM_cons]
      unfold addKey
      cases hkey : unmarshalText key with
      | error e =>
          refine ⟨fun ⟨_, h⟩ => (by cases h), fun h => ?_⟩
          have hok := h key List.mem_cons_self
          rw [hkey] at hok
          cases hok
      | ok pk =>
          refine (@ih (insert pk newKeys)).trans ?_
          simp [AllKeys, hkey, Except.isOk, Except.toBool]

theorem subset_of_foldlM_addKey {newKeys ks : Finset PublicKey} {l : List Text}
    (h : l.foldlM addKey newKeys = .ok ks) : newKeys ⊆ ks := by
  induction l generalizing newKeys with
  | nil =>
      cases h
      exact subset_rfl
  | cons key l ih =>
      rw [List.foldlM_cons] at h
      obtain ⟨mid, hmid, h⟩ := exists_of_bind_eq_ok h
      refine subset_trans ?_ (ih h)
      unfold addKey at hmid
      split at hmid
      · cases hmid
        exact Finset.subset_insert _ _
      · cases hmid

/-- A list that is read has a key. -/
theorem ne_empty_of_makeKeyMap {l : List Text} {ks : Finset PublicKey} (hl : l ≠ [])
    (h : makeKeyMap l = .ok ks) : ks ≠ ∅ := by
  cases l with
  | nil => exact absurd rfl hl
  | cons key l =>
      rw [makeKeyMap, List.foldlM_cons] at h
      obtain ⟨mid, hmid, h⟩ := exists_of_bind_eq_ok h
      unfold addKey at hmid
      split at hmid
      · next pk _ =>
          cases hmid
          have hpk : pk ∈ ks := subset_of_foldlM_addKey h (Finset.mem_insert_self _ _)
          exact Finset.ne_empty_of_mem hpk
      · cases hmid

theorem toOption_makeKeyMap_eq_none {l : List Text} (h : ¬AllKeys l) :
    (makeKeyMap l).toOption = none := by
  cases hmap : makeKeyMap l with
  | error e => rfl
  | ok ks => exact absurd (foldlM_addKey_eq_ok_iff.1 ⟨ks, hmap⟩) h

theorem exists_makeKeyMap {l : List Text} (h : AllKeys l) : ∃ ks, makeKeyMap l = .ok ks :=
  foldlM_addKey_eq_ok_iff.2 h

theorem not_allKeys_empty : ¬AllKeys [[]] := by
  intro h
  exact absurd (h [] List.mem_cons_self) (by decide)

/-! ### What a listener takes over -/

/-- What becomes of a setting when the interface value `a` is announced for it. -/
def Setting.read : Setting → Any → Setting
  | duration _, .duration d => .duration d
  | int _, .int64 i => .int i
  | bool _, .bool b => .bool b
  | keys ks, .strings l => .keys ((makeKeyMap l).toOption.getD ks)
  | x, _ => x

theorem RelayConfig.held_onConfigChange (rc : RelayConfig) (c : OldNew) (name : String) :
    ((rc.onConfigChange c).toOption.getD rc).held name =
      if c.name = name then (rc.held name).map (·.read c.new) else rc.held name := by
  obtain ⟨n, path, old, new⟩ := c
  dsimp only
  split
  · next h =>
      subst h
      unfold onConfigChange
      dsimp only
      split
      case h_6 => simp [held]
      all_goals cases new
      case h_5.strings l =>
        cases hmap : makeKeyMap l <;> simp [held, Setting.read, hmap, Except.toOption, Except.map]
      all_goals rfl
  · next h =>
      unfold onConfigChange
      dsimp only
      split
      case h_6 => rfl
      all_goals cases new
      case h_5.strings l =>
        cases hmap : makeKeyMap l with
        | error e => simp [hmap, Except.toOption, Except.map]
        | ok ks =>
            simp only [hmap, Except.toOption, Except.map]
            unfold held
            split
            all_goals first | rfl | exact absurd rfl h
      all_goals
        unfold held
        split
        all_goals first | rfl | exact absurd rfl h

theorem Limitter.held_onConfigChange (l : Limitter) (c : OldNew) (name : String) :
    ((l.onConfigChange c).toOption.getD l).held name =
      if c.name = name then (l.held name).map (·.read c.new) else l.held name := by
  obtain ⟨n, path, old, new⟩ := c
  dsimp only
  split
  · next h =>
      subst h
      unfold onConfigChange
      dsimp only
      split
      case h_4 => simp [held]
      all_goals cases new
      case h_3.strings l =>
        cases hmap : makeKeyMap l <;> simp [held, Setting.read, hmap, Except.toOption, Except.map]
      all_goals rfl
  · next h =>
      unfold onConfigChange
      dsimp only
      split
      case h_4 => rfl
      all_goals cases new
      case h_3.strings l =>
        cases hmap : makeKeyMap l with
        | error e => simp [hmap, Except.toOption, Except.map]
        | ok ks =>
            simp only [hmap, Except.toOption, Except.map]
            unfold held
            split
            all_goals first | rfl | exact absurd rfl h
      all_goals
        unfold held
        split
        all_goals first | rfl | exact absurd rfl h

theorem API.held_onConfigChange (a : API) (c : OldNew) (name : String) :
    ((a.onConfigChange c).toOption.getD a).held name =
      if c.name = name then (a.held name).map (·.read c.new) else a.held name := by
  obtain ⟨n, path, old, new⟩ := c
  dsimp only
  split
  · next h =>
      subst h
      unfold onConfigChange
      dsimp only
      split
      case h_3 => simp [held]
      all_goals cases new
      all_goals rfl
  · next h =>
      unfold onConfigChange
      dsimp only
      split
      case h_3 => rfl
      all_goals cases new
      all_goals
        unfold held
        split
        all_goals first | rfl | exact absurd rfl h

theorem Listeners.held_onConfigChange (w : Listeners) (c : OldNew) (l l' : Listener)
    (name : String) :
    (w.onConfigChange c l').held l name =
      if l = l' ∧ c.name = name then (w.held l name).map (·.read c.new) else w.held l name := by
  cases l <;> cases l'
  case relayConfig.relayConfig =>
    simp only [true_and]
    exact w.relayConfig.held_onConfigChange c name
  case limitter.limitter =>
    simp only [true_and]
    exact w.limitter.held_onConfigChange c name
  case api.api =>
    simp only [true_and]
    exact w.api.held_onConfigChange c name
  all_goals simp [onConfigChange, held]

theorem Listeners.held_propagate (w : Listeners) (root : Path) (c : OldNew) (l : Listener)
    (name : String) :
    (w.propagate root c).held l name =
      if l ∈ subscribers root ∧ c.name = name then (w.held l name).map (·.read c.new)
      else w.held l name := by
  unfold propagate subscribers
  split
  · simp [held_onConfigChange]
  · split
    · cases l <;> simp [held_onConfigChange]
    · simp

/-- The section that a listener is subscribed to. -/
def Listener.root : Listener → Path
  | relayConfig => ["Relay"]
  | limitter | api => ["Api"]

theorem mem_subscribers_iff {root : Path} {l : Listener} :
    l ∈ subscribers root ↔ root = l.root := by
  unfold subscribers
  split
  · next h =>
      subst h
      cases l <;> simp [Listener.root]
  · next h =>
      split
      · next h' =>
          subst h'
          cases l <;> simp [Listener.root]
      · next h' => cases l <;> simp [Listener.root, h, h']

/-- The parameters of `[relay]` and `[api]`, and no others, are announced to the listeners of these
sections. -/
def announcesOwn (path : Path) (sRoot : Option Path) : Bool :=
  [["Relay"], ["Api"]].all fun root => decide (sRoot = some root ↔ path = root)

theorem everywhere_announcesOwn : everywhere announcesOwn [] none sections = true := by
  decide +kernel

/-- What becomes of a setting when its parameter is set to a value: a duration is announced in a way
that the listeners do not read. -/
def Setting.take : Setting → Value → Setting
  | int _, .int i => .int i
  | bool _, .bool b => .bool b
  | keys ks, .strings l => .keys ((makeKeyMap l).toOption.getD ks)
  | x, _ => x

theorem Setting.read_announcedAs (x : Setting) (b el : Value) :
    x.read (b.announcedAs el) = x.take b := by
  cases x <;> cases b <;> rfl

variable {K : Path → Kind}

/-- **One change**: the listener of a section takes over the changes of the section's parameters. -/
theorem Listeners.held_hear {ch : Change} (h : Assigned announcesOwn false K ch) (w : Listeners)
    (l : Listener) (name : String) :
    (w.hear ch).held l name =
      if ch.path = l.root ++ [name] then (w.held l name).map (·.take ch.value)
      else w.held l name := by
  cases h with
  | @mk path sRoot name' fullPath b el old hD hkind hother hstrings =>
      have hroot : sRoot = some l.root ↔ path = l.root := by
        cases l <;> simp_all [announcesOwn, Listener.root]
      have hpath : path ++ [name'] = l.root ++ [name] ↔ path = l.root ∧ name' = name := by
        simp
      simp only [hpath, ← hroot]
      unfold hear
      cases sRoot with
      | none => simp
      | some root =>
          simp only [Bool.false_eq_true, if_false, Option.map_some, held_propagate,
            mem_subscribers_iff, Option.some.injEq, Setting.read_announcedAs]

@[simp] theorem valuesAt_nil (path : Path) : valuesAt path [] = [] := rfl

theorem valuesAt_cons (path : Path) (ch : Change) (changes : List Change) :
    valuesAt path (ch :: changes) =
      if ch.path = path then ch.value :: valuesAt path changes else valuesAt path changes := by
  unfold valuesAt
  rw [List.filter_cons]
  simp only [decide_eq_true_eq]
  split <;> rfl

/-- **A listener after a reading** has taken over the values of its parameters one by one. -/
theorem Listeners.held_notify {changes : List Change}
    (h : ∀ ch ∈ changes, Assigned announcesOwn false K ch) (w : Listeners) (l : Listener)
    (name : String) :
    (w.notify changes).held l name =
      (w.held l name).map ((valuesAt (l.root ++ [name]) changes).foldl Setting.take) := by
  induction changes generalizing w with
  | nil => simp [notify]
  | cons ch changes ih =>
      have hnotify : w.notify (ch :: changes) = (w.hear ch).notify changes := rfl
      rw [hnotify, ih (fun ch' hch' => h ch' (List.mem_cons_of_mem _ hch')),
        held_hear (h ch List.mem_cons_self), valuesAt_cons]
      split
      · rw [Option.map_map]
        rfl
      · rfl

/-- A parameter after a reading has its last value. -/
theorem applyChanges_apply (c : Config) (changes : List Change) (path : Path) :
    applyChanges c changes path = (valuesAt path changes).getLast?.getD (c path) := by
  have hlast : (valuesAt path changes).getLast? =
      (KeyedLog.lastWrite Change.path path changes).map Change.value := List.getLast?_map
  have hwrite : applyChanges c changes = KeyedLog.write Change.path Change.value c changes := rfl
  rw [hlast, hwrite, KeyedLog.write_apply]
  cases KeyedLog.lastWrite Change.path path changes with
  | none => rfl
  | some ch => rfl

/-! ### Which values a listener can have -/

def Setting.kind : Setting → Kind
  | duration _ => .duration
  | int _ => .int
  | bool _ => .bool
  | keys _ => .strings

theorem Setting.kind_take (x : Setting) (b : Value) : (x.take b).kind = x.kind := by
  cases x <;> cases b <;> rfl

theorem Setting.kind_foldl_take (x : Setting) (vs : List Value) :
    (vs.foldl take x).kind = x.kind := by
  induction vs generalizing x with
  | nil => rfl
  | cons b vs ih => rw [List.foldl_cons, ih, kind_take]

theorem Setting.foldl_take_duration (d : ℤ) (vs : List Value) :
    vs.foldl take (.duration d) = .duration d := by
  induction vs with
  | nil => rfl
  | cons b vs ih => exact ih

theorem Setting.take_keys_of_allKeys {l : List Text} (h : AllKeys l) (ks : Finset PublicKey) :
    ∃ ks', makeKeyMap l = .ok ks' ∧ (keys ks).take (.strings l) = keys ks' := by
  obtain ⟨ks', hmap⟩ := exists_makeKeyMap h
  exact ⟨ks', hmap, by rw [take, hmap]; rfl⟩

theorem Setting.take_keys_of_not_allKeys {l : List Text} (h : ¬AllKeys l)
    (ks : Finset PublicKey) : (keys ks).take (.strings l) = keys ks := by
  rw [take, toOption_makeKeyMap_eq_none h]
  rfl

/-- A listener is left without keys only if it had none and no list of keys was announced. -/
theorem Setting.foldl_take_eq_keys_empty_iff (ks : Finset PublicKey) {vs : List Value}
    (hkind : ∀ b ∈ vs, b.kind = .strings) (hstrings : ∀ b ∈ vs, b ≠ .strings []) :
    vs.foldl take (.keys ks) = .keys ∅ ↔
      ks = ∅ ∧ ∀ l, .strings l ∈ vs → ¬AllKeys l := by
  induction vs generalizing ks with
  | nil => simp
  | cons b vs ih =>
      have hvs := fun ks => ih ks (fun b' hb' => hkind b' (List.mem_cons_of_mem _ hb'))
        fun b' hb' => hstrings b' (List.mem_cons_of_mem _ hb')
      have hb : b.kind = .strings := hkind b List.mem_cons_self
      cases b with
      | strings l =>
          have hl : l ≠ [] := fun h => hstrings _ List.mem_cons_self (h ▸ rfl)
          rw [List.foldl_cons]
          by_cases hkeys : AllKeys l
          · obtain ⟨ks', hmap, htake⟩ := take_keys_of_allKeys hkeys ks
            rw [htake, hvs]
            constructor
            · rintro ⟨rfl, -⟩
              exact absurd rfl (ne_empty_of_makeKeyMap hl hmap)
            · rintro ⟨-, hno⟩
              exact absurd hkeys (hno l List.mem_cons_self)
          · rw [take_keys_of_not_allKeys hkeys, hvs]
            simp only [List.mem_cons, Value.strings.injEq, forall_eq_or_imp, hkeys,
              not_false_eq_true, true_and]
      | _ => cases hb

theorem listedKeys_of_allKeys {l : List Text} (h : AllKeys l) :
    listedKeys l = (makeKeyMap l).toOption := by
  refine if_neg fun hl => ?_
  exact not_allKeys_empty (hl ▸ h)

theorem listedKeys_eq_some_of_not_allKeys {l : List Text} (h : ¬AllKeys l)
    {ks : Finset PublicKey} : listedKeys l = some ks ↔ l = [[]] ∧ ks = ∅ := by
  unfold listedKeys
  split
  · next hl => simp [hl, eq_comm]
  · next hl => simp [hl, toOption_makeKeyMap_eq_none h]

/-- The last list of a file and the keys a listener ends with. -/
theorem foldl_take_keys_iff {ks : Finset PublicKey} {us : List Value} {l : List Text}
    (hkind : ∀ v ∈ us, v.kind = .strings) (hstrings : ∀ v ∈ us, v ≠ .strings []) :
    (∃ y, (Value.strings l).setting = some y ∧
      (us.foldl Setting.take (.keys ks)).take (.strings l) = y) ↔
      Accepts (.keys ks) (us ++ [.strings l]) (.strings l) := by
  obtain ⟨ks', hmid⟩ : ∃ ks', us.foldl Setting.take (.keys ks) = .keys ks' := by
    have h := Setting.kind_foldl_take (.keys ks) us
    cases hus : us.foldl Setting.take (.keys ks) with
    | keys ks' => exact ⟨ks', rfl⟩
    | _ =>
        rw [hus] at h
        cases h
  have hempty := Setting.foldl_take_eq_keys_empty_iff ks hkind hstrings
  rw [hmid, Setting.keys.injEq] at hempty
  rw [hmid]
  simp only [Value.setting, Accepts]
  by_cases hl : AllKeys l
  · obtain ⟨new, hmap, htake⟩ := Setting.take_keys_of_allKeys hl ks'
    rw [htake, listedKeys_of_allKeys hl, hmap]
    simp [hl, Except.toOption]
  · rw [Setting.take_keys_of_not_allKeys hl]
    constructor
    · rintro ⟨y, hy, rfl⟩
      obtain ⟨new, hnew, heq⟩ := Option.map_eq_some_iff.1 hy
      obtain ⟨rfl, rfl⟩ := (listedKeys_eq_some_of_not_allKeys hl).1 hnew
      obtain ⟨rfl, hno⟩ := hempty.1 (Setting.keys.inj heq).symm
      refine .inr ⟨rfl, rfl, fun l' hl' => ?_⟩
      rcases List.mem_append.1 hl' with hl' | hl'
      · exact hno l' hl'
      · cases List.mem_singleton.1 hl'
        exact hl
    · rintro (h | ⟨rfl, hks, hno⟩)
      · exact absurd h hl
      · have hks' : ks' = ∅ := hempty.2
          ⟨Setting.keys.inj hks, fun l' hl' => hno l' (List.mem_append_left _ hl')⟩
        exact ⟨.keys ∅, rfl, by rw [hks']⟩

/-- **The value a listener ends with** is the last one of the file exactly when it can have it. -/
theorem foldl_take_eq_setting_iff {x : Setting} {vs : List Value} {b : Value}
    (hlast : vs.getLast? = some b) (hkind : ∀ v ∈ vs, v.kind = x.kind)
    (hstrings : ∀ v ∈ vs, v ≠ .strings []) :
    (∃ y, b.setting = some y ∧ vs.foldl Setting.take x = y) ↔ Accepts x vs b := by
  obtain ⟨us, rfl⟩ := List.getLast?_eq_some_iff.1 hlast
  have hb : b.kind = x.kind := hkind b (by simp)
  have hmid := Setting.kind_foldl_take x us
  rw [List.foldl_append, List.foldl_cons, List.foldl_nil]
  cases x with
  | duration d =>
      cases b with
      | duration d' =>
          rw [Setting.foldl_take_duration]
          simp [Value.setting, Accepts, Setting.take, eq_comm]
      | _ => cases hb
  | int i =>
      cases b with
      | int i' =>
          cases hus : us.foldl Setting.take (.int i) with
          | int j => simp [Value.setting, Accepts, Setting.take]
          | _ => rw [hus] at hmid; cases hmid
      | _ => cases hb
  | bool i =>
      cases b with
      | bool i' =>
          cases hus : us.foldl Setting.take (.bool i) with
          | bool j => simp [Value.setting, Accepts, Setting.take]
          | _ => rw [hus] at hmid; cases hmid
      | _ => cases hb
  | keys ks =>
      cases b with
      | strings l =>
          exact foldl_take_keys_iff (fun v hv => hkind v (List.mem_append_left _ hv))
            fun v hv => hstrings v (List.mem_append_left _ hv)
      | _ => cases hb

/-! ### Reloads -/

/-- The kinds of the parameters. -/
def kinds (path : Path) : Kind := (defaultConfig path).kind

theorem Value.eq_other_of_kind {b : Value} (h : b.kind = .other) : b = .other := by
  cases b with
  | other => rfl
  | _ => cases h

/-- A listener handles parameters of its section, in their kinds; `StreamServedBids`, which the
relay would handle too, belongs to another section. -/
theorem kind_of_held {w : Listeners} {l : Listener} {name : String} {x : Setting}
    (h : w.held l name = some x) :
    kinds (l.root ++ [name]) = x.kind ∨ kinds (l.root ++ [name]) = .other := by
  cases l with
  | relayConfig =>
      simp only [Listeners.held] at h
      unfold RelayConfig.held at h
      split at h
      all_goals cases h
      case h_2 => exact .inr (by decide +kernel)
      all_goals
        refine .inl ?_
        simp only [Setting.kind]
        decide +kernel
  | limitter =>
      simp only [Listeners.held] at h
      unfold Limitter.held at h
      split at h
      all_goals cases h
      all_goals
        refine .inl ?_
        simp only [Setting.kind]
        decide +kernel
  | api =>
      simp only [Listeners.held] at h
      unfold API.held at h
      split at h
      all_goals cases h
      all_goals
        refine .inl ?_
        simp only [Setting.kind]
        decide +kernel

theorem mem_valuesAt {path : Path} {changes : List Change} {b : Value}
    (h : b ∈ valuesAt path changes) : ∃ ch ∈ changes, ch.path = path ∧ ch.value = b := by
  obtain ⟨ch, hch, rfl⟩ := List.mem_map.1 h
  obtain ⟨hmem, hpath⟩ := List.mem_filter.1 hch
  exact ⟨ch, hmem, of_decide_eq_true hpath, rfl⟩

theorem Assigned.value_ne {D : Path → Option Path → Bool} {initial : Bool} {ch : Change}
    (h : Assigned D initial K ch) : ch.value ≠ .other ∧ ch.value ≠ .strings [] := by
  cases h with
  | mk hD hkind hother hstrings => exact ⟨hother, hstrings⟩

/-- **One reload**: the listeners are current exactly when they can have the new values. -/
theorem current_iff_acceptable {P : Parsers} {s : State} (hs : Typed kinds s.config)
    (version : Version) : Current P s version ↔ Acceptable P s version := by
  have htraced : Traced announcesOwn false kinds s.config (load P version s.config false) :=
    traced_load everywhere_announcesOwn hs version
  refine forall_congr' fun root => forall_congr' fun l => forall_congr' fun hl =>
    forall_congr' fun name => forall_congr' fun x => forall_congr' fun hx =>
    forall_congr' fun hchanged => ?_
  obtain rfl := mem_subscribers_iff.1 hl
  set vs := valuesAt (l.root ++ [name]) (load P version s.config false).changes with hvs
  have hconfig : (reload P s version).config (l.root ++ [name]) =
      vs.getLast?.getD (s.config (l.root ++ [name])) := by
    rw [hvs, ← applyChanges_apply, ← htraced.config_eq]
    rfl
  have hheld : (reload P s version).listeners.held l name = some (vs.foldl Setting.take x) := by
    have h := Listeners.held_notify htraced.assigned s.listeners l name
    rw [hx] at h
    exact h
  cases hlast : vs.getLast? with
  | none =>
      rw [hlast] at hconfig
      exact absurd hconfig hchanged
  | some b =>
      rw [hlast, Option.getD_some] at hconfig
      have hvalue : ∀ v ∈ vs, v.kind = x.kind ∧ v ≠ .strings [] := by
        intro v hv
        obtain ⟨ch, hch, hpath, rfl⟩ := mem_valuesAt hv
        have hassigned := htraced.assigned ch hch
        refine ⟨?_, hassigned.value_ne.2⟩
        have hkind := hassigned.kind_eq
        rw [hpath] at hkind
        rcases kind_of_held hx with h | h
        · rw [hkind, h]
        · exact absurd (Value.eq_other_of_kind (hkind.trans h)) hassigned.value_ne.1
      rw [hconfig, hheld]
      simp only [Option.some.injEq]
      exact foldl_take_eq_setting_iff hlast (fun v hv => (hvalue v hv).1)
        fun v hv => (hvalue v hv).2

/-! ### Runs -/

theorem typed_reload {P : Parsers} {s : State} (hs : Typed kinds s.config) (version : Version) :
    Typed kinds (reload P s version).config :=
  (traced_load everywhere_announcesOwn hs version).typed hs

theorem typed_started (P : Parsers) (first : Version) :
    Typed kinds (started P first).config :=
  (traced_load everywhere_announcesOwn (fun _ => rfl) first).typed fun _ => rfl

theorem EachReload.congr {P : Parsers} {Q Q' : State → Version → Prop}
    (h : ∀ s version, Typed kinds s.config → (Q s version ↔ Q' s version)) {s : State}
    (hs : Typed kinds s.config) (versions : List Version) :
    EachReload P Q s versions ↔ EachReload P Q' s versions := by
  induction versions generalizing s with
  | nil => exact Iff.rfl
  | cons version versions ih =>
      exact and_congr (imp_congr_right fun _ => h s version hs)
        (imp_congr_right fun _ => ih (typed_reload hs version))

theorem eq_started_of_mem_start {P : Parsers} {first : Version} {s : State}
    (h : s ∈ start P first) : s = started P first := by
  unfold start at h
  split at h
  · exact (Option.some.inj h).symm
  · cases h

/-- **Reloading**: after every reload without an error the listeners have the values that the file
has changed, exactly when every time they can have them. -/
theorem listenersCurrent_iff (P : Parsers) (first : Version) (versions : List Version) :
    ListenersCurrent P first versions ↔ ListenersAccept P first versions := by
  refine forall_congr' fun s => forall_congr' fun hs => ?_
  obtain rfl := eq_started_of_mem_start hs
  exact EachReload.congr (fun s version htyped => current_iff_acceptable htyped version)
    (typed_started P first) versions

/-- A listener that a reload leaves with another value than the one in the file. -/
def Stale (P : Parsers) (first version : Version) (l : Listener) (name : String) (x : Setting) :
    Prop :=
  (load P first defaultConfig true).stop = none ∧
    (load P version (started P first).config false).stop = none ∧
    (started P first).listeners.held l name = some x ∧
    (reload P (started P first) version).config (l.root ++ [name]) ≠
      (started P first).config (l.root ++ [name]) ∧
    ((reload P (started P first) version).config (l.root ++ [name])).setting ≠
      (reload P (started P first) version).listeners.held l name
  deriving Decidable

theorem Stale.not_listenersCurrent {P : Parsers} {first version : Version} {l : Listener}
    {name : String} {x : Setting} (h : Stale P first version l name x) :
    ¬ListenersCurrent P first [version] := by
  obtain ⟨hfirst, hversion, hx, hchanged, hne⟩ := h
  intro hrun
  have hcurrent := (hrun (started P first) (if_pos hfirst)).1 hversion
  obtain ⟨y, hy, hheld⟩ := hcurrent l.root l (mem_subscribers_iff.2 rfl) name x hx hchanged
  exact hne (hy.trans hheld.symm)

/-- A number below a bound in decimal digits. -/
def readDecimal (bound : ℕ) (text : Text) : Except GoError ℕ :=
  let n := text.foldl (fun n c => 10 * n + (c.toNat - '0'.toNat)) 0
  if text ≠ [] ∧ text.all Char.isDigit ∧ n < bound then .ok n else .error (.new "invalid syntax")

/-- Decimal numbers and durations in whole seconds: parsers that read no more texts than those of
Go, and these in the same way. -/
def decimalParsers : Parsers where
  parseDuration text :=
    match text.reverse with
    | 's' :: digits => (readDecimal (2 ^ 33) digits.reverse).map fun n => n * second
    | _ => .error (.new "time: invalid duration")
  parseInt text := (readDecimal (2 ^ 63) text).map Int.ofNat
  parseUint text := readDecimal (2 ^ 64) text

/-- A file with one parameter of `[relay]`. -/
def relayFile (line : String) : Version := .ok ⟨["[relay]".toList, line.toList], none⟩

/-- A delay that is changed from one second to two, and a list of builders that is emptied: the
relay goes on with the delay and with the builder it had. -/
theorem stale_after_reload :
    ¬ListenersCurrent decimalParsers (relayFile "get_payload_response_delay = 1s")
        [relayFile "get_payload_response_delay = 2s"] ∧
      ¬ListenersCurrent decimalParsers
        (relayFile ("allowed_builders = " ++ hexString (default : PublicKey)))
        [relayFile "allowed_builders ="] := by
  constructor
  · have h : Stale decimalParsers (relayFile "get_payload_response_delay = 1s")
        (relayFile "get_payload_response_delay = 2s") .relayConfig "GetPayloadResponseDelay"
        (.duration second) := by decide +kernel
    exact h.not_listenersCurrent
  · have h : Stale decimalParsers
        (relayFile ("allowed_builders = " ++ hexString (default : PublicKey)))
        (relayFile "allowed_builders =") .relayConfig "AllowedBuilders"
        (.keys {default}) := by decide +kernel
    exact h.not_listenersCurrent

end Dreamboat.ConfigFile
