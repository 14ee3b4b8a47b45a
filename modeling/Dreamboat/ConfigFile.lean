/-
**The configuration file.**

The configuration is a tree of structs whose leaves are parameters, and the file is read into it by
reflection: a section of the file names a field of the configuration, a key names a way down from
there, and the kind of the value that is found decides how the text is read.  When the file is read
again, a parameter may only change if its tag allows it, and a change is announced to the listeners
of the closest struct that has some before the new value is set.

A struct is the list of its fields with their tags, a configuration a value for every path of field
names.  Reading a file gives the configuration after it, the changes in the order they were made,
each with the call of `Propagate` that went ahead of it, and what made the reading stop early.  The
parsers of durations and numbers are those of Go and a parameter.

Main definitions:

* `ConfigFile.Field`, `ConfigFile.sections` — structs, and those of the relay;
* `ConfigFile.setParam` — one parameter is read, compared, announced and set;
* `ConfigFile.parseParam`, `ConfigFile.parseIni`, `ConfigFile.load` — the way from a file to its
  parameters;
* `ConfigFile.Assigned` — what a change that the reading makes looks like.

Main results:

* `ConfigFile.traced_setParam` — one parameter changes, or nothing does;
* `ConfigFile.traced_load` — **the configuration after a file is the one before it with the changes
  made in order**, and every change has the kind of its parameter and is announced under its name.
-/

import Mathlib.Logic.Function.Basic
import Dreamboat.Structs

set_option autoImplicit false

namespace Dreamboat.ConfigFile

/-! ### Texts -/

abbrev Text := List Char

/-- `unicode.IsSpace`. -/
def isSpace (c : Char) : Bool :=
  c.toNat ∈ [0x09, 0x0a, 0x0b, 0x0c, 0x0d, 0x20, 0x85, 0xa0, 0x1680, 0x2028, 0x2029, 0x202f,
    0x205f, 0x3000] || (0x2000 ≤ c.toNat && c.toNat ≤ 0x200a)

def trimSpace (s : Text) : Text := ((s.dropWhile isSpace).reverse.dropWhile isSpace).reverse

/-- `strings.Cut` with a separator of one character. -/
def cut (s : Text) (sep : Char) : Text × Text × Bool :=
  if sep ∈ s then (s.takeWhile (· ≠ sep), (s.dropWhile (· ≠ sep)).drop 1, true)
  else (s, [], false)

/-! ### Values and structs -/

/-- The value of a field that is no struct; `other` is one of a kind the reader does not know. -/
inductive Value where
  | duration (nanoseconds : ℤ)
  | bool (b : Bool)
  | uint (n : ℕ)
  | int (i : ℤ)
  | string (s : Text)
  | strings (l : List Text)
  | other
  deriving DecidableEq, Repr

inductive Kind where
  | duration | bool | uint | int | string | strings | other
  deriving DecidableEq, Repr

def Value.kind : Value → Kind
  | duration _ => .duration
  | bool _ => .bool
  | uint _ => .uint
  | int _ => .int
  | string _ => .string
  | strings _ => .strings
  | other => .other

/-- What an interface value can hold: the dynamic types the reader hands to listeners. -/
inductive Any where
  | duration (nanoseconds : ℤ)
  | bool (b : Bool)
  | uint64 (n : ℕ)
  | int64 (i : ℤ)
  | string (s : Text)
  | strings (l : List Text)
  | reflectValue (v : Value)
  deriving DecidableEq, Repr

/-- A field of a struct with the parts of its `config` tag: a parameter with its default value, or
a struct, which has the method `Propagate` if it embeds a `Subscriber`. -/
inductive Field where
  | param (name : String) (tag : List String) (init : Value)
  | struct (name : String) (tag : List String) (propagates : Bool) (fields : List Field)

def Field.tag : Field → List String
  | param _ tag _ => tag
  | struct _ tag _ _ => tag

/-- The names of the fields on the way to a field. -/
abbrev Path := List String

abbrev Config := Path → Value

/-! ### The structs of the relay -/

def millisecond : ℤ := 1000000
def second : ℤ := 1000 * millisecond
def hour : ℤ := 3600 * second

def httpFields (address : String) : List Field :=
  [.param "Address" ["address"] (.string address.toList),
    .param "ReadTimeout" ["read_timeout"] (.duration (5 * second)),
    .param "IdleTimeout" ["idle_timeout"] (.duration (5 * second)),
    .param "WriteTimeout" ["write_timeout"] (.duration (5 * second))]

def sqlFields : List Field :=
  [.param "URL" ["url"] (.string []),
    .param "MaxOpenConns" ["max_open_conns"] (.int 15),
    .param "MaxIdleConns" ["max_idle_conns"] (.int 10),
    .param "ConnMaxIdleTime" ["conn_max_idle_time"] (.duration (15 * second))]

def badgerDBFields : List Field :=
  [.param "TTL" ["ttl"] (.duration (24 * hour))]

def apiFields : List Field :=
  [.param "AllowedBuilders" ["allowed_builders", "allow_dynamic"] (.strings []),
    .param "SubmissionLimitRate" ["submission_limit_rate", "allow_dynamic"] (.int 2),
    .param "SubmissionLimitBurst" ["submission_limit_burst", "allow_dynamic"] (.int 2),
    .param "LimitterCacheSize" ["limitter_cache_size"] (.int 1000),
    .param "DataLimit" ["datalimit", "allow_dynamic"] (.int 450),
    .param "ErrorsOnDisable" ["errors_on_disable", "allow_dynamic"] (.bool false)]

def relayFields : List Field :=
  [.param "Network" ["network"] (.string "mainnet".toList),
    .param "SecretKey" ["secret_key"] (.string []),
    .param "PublishBlock" ["publish_block"] (.bool true),
    .param "GetPayloadResponseDelay" ["get_payload_response_delay", "allow_dynamic"]
      (.duration (800 * millisecond)),
    .param "GetPayloadRequestTimeLimit" ["get_payload_request_time_limit", "allow_dynamic"]
      (.duration (4 * second)),
    .param "AllowedBuilders" ["allowed_builders", "allow_dynamic"] (.strings [])]

def beaconFields : List Field :=
  [.param "Addresses" ["addresses", "allow_dynamic"] (.strings []),
    .param "PublishAddresses" ["publish_addresses", "allow_dynamic"] (.strings []),
    .param "PublishAddressesV2" ["publish_addresses_v2", "allow_dynamic"] (.strings []),
    .param "PayloadAttributesSubscription" ["payload_attributes_subscription", "allow_dynamic"]
      (.bool true),
    .param "EventTimeout" ["event_timeout"] (.duration (16 * second)),
    .param "EventRestart" ["event_restart"] (.int 5),
    .param "QueryTimeout" ["query_timeout"] (.duration (20 * second))]

def blockSimulationFields : List Field :=
  [.struct "RPC" ["rpc"] false [.param "Address" ["address"] (.string [])],
    .struct "WS" ["ws"] true
      [.param "Address" ["address", "allow_dynamic"] (.strings []),
        .param "Retry" ["retry", "allow_dynamic"] (.bool true)],
    .struct "HTTP" ["http"] true [.param "Address" ["address"] (.string [])]]

def validatorsFields : List Field :=
  [.struct "DB" ["db"] false sqlFields,
    .struct "Badger" ["badger"] false badgerDBFields,
    .param "QueueSize" ["queue_size"] (.uint 100000),
    .param "StoreWorkersNum" ["store_workers"] (.uint 400),
    .param "RegistrationsCacheSize" ["registrations_cache_size"] (.int 600000),
    .param "RegistrationsReadCacheTTL" ["registrations_cache_ttl"] (.duration hour),
    .param "RegistrationsWriteCacheTTL" ["registrations_write_cache_ttl"] (.duration (12 * hour))]

def verifyFields : List Field :=
  [.param "WorkersNum" ["workers"] (.uint 2000),
    .param "QueueSize" ["queue_size"] (.uint 100000)]

def dataAPIFields : List Field :=
  [.struct "DB" ["db"] false sqlFields,
    .struct "Badger" ["badger"] false badgerDBFields]

def payloadFields : List Field :=
  [.struct "Badger" ["badger"] false badgerDBFields,
    .param "CacheSize" ["cache_size"] (.int 1000),
    .struct "Redis" ["redis"] false
      [.struct "Read" ["read"] false [.param "Address" ["address"] (.string [])],
        .struct "Write" ["write"] false [.param "Address" ["address"] (.string [])]],
    .param "TTL" ["ttl", "allow_dynamic"] (.duration (24 * hour))]

def warehouseFields : List Field :=
  [.param "Directory" ["directory"] (.string "/data/relay/warehouse".toList),
    .param "WorkerNumber" ["workers"] (.int 32),
    .param "Buffer" ["buffer"] (.int 1000)]

def distributedFields : List Field :=
  [.struct "Redis" ["redis"] false
      [.param "Topic" ["topic"] (.string "relay".toList),
        .param "Address" ["address"] (.string [])],
    .param "InstanceID" ["id"] .other,
    .param "WorkerNumber" ["workers"] (.int 100),
    .param "StreamQueueSize" ["stream_queue_size"] (.int 100),
    .param "StreamServedBids" ["stream_served_bids"] (.bool true)]

/-- The fields of `Config`, in the values of `DefaultConfig`. -/
def sections : List Field :=
  [.struct "ExternalHttp" ["external_http"] false (httpFields "0.0.0.0:18550"),
    .struct "InternalHttp" ["internal_http"] false (httpFields "0.0.0.0:19550"),
    .struct "Api" ["api"] true apiFields,
    .struct "Relay" ["relay"] true relayFields,
    .struct "Beacon" ["beacon"] true beaconFields,
    .struct "Verify" ["verify"] false verifyFields,
    .struct "Validators" ["validators"] false validatorsFields,
    .struct "BlockSimulation" ["block_simulation"] false blockSimulationFields,
    .struct "Payload" ["payload"] false payloadFields,
    .struct "DataAPI" ["dataapi"] false dataAPIFields,
    .struct "Warehouse" ["warehouse"] false warehouseFields,
    .struct "Distributed" ["distributed"] false distributedFields]

mutual

/-- The default value below a field. -/
def Field.initial? : Field → Path → Option Value
  | .param name _ init, path => if path = [name] then some init else none
  | .struct name _ _ fields, path =>
      match path with
      | [] => none
      | n :: rest => if n = name then initials? fields rest else none

def initials? : List Field → Path → Option Value
  | [], _ => none
  | f :: fs, path => (f.initial? path).or (initials? fs path)

end

def defaultConfig : Config := fun path => (initials? sections path).getD .other

/-! ### Reading a parameter -/

/-- The parsers of Go for durations and numbers. -/
structure Parsers where
  parseDuration : Text → Except GoError ℤ
  parseInt : Text → Except GoError ℤ
  parseUint : Text → Except GoError ℕ

def paramParseBool (value : Text) : Bool :=
  value.map Char.toLower = "true".toList || value.map Char.toLower = "1".toList

def paramParseStringSlice (value : Text) : List Text := value.splitOn ','

structure OldNew where
  name : String
  paramPath : Text
  old : Any
  new : Any
  deriving DecidableEq, Repr

/-- A field is set.  The call of `Propagate` before it, if there is one, goes to the struct at a
path. -/
structure Change where
  path : Path
  value : Value
  announced : Option (Path × OldNew)
  deriving DecidableEq, Repr

/-- What ends the reading of a file early. -/
inductive Stop where
  | error (e : GoError)
  | panic (msg : String)
  deriving DecidableEq, Repr

structure Outcome where
  config : Config
  changes : List Change
  stop : Option Stop

namespace Outcome

def done (c : Config) : Outcome := ⟨c, [], none⟩

def stopped (c : Config) (stop : Stop) : Outcome := ⟨c, [], some stop⟩

/-- The reading goes on unless something has stopped it. -/
def andThen (o : Outcome) (next : Config → Outcome) : Outcome :=
  match o.stop with
  | some _ => o
  | none => ⟨(next o.config).config, o.changes ++ (next o.config).changes, (next o.config).stop⟩

end Outcome

/-- The variables of `parseParam` for one struct: its path, `sRoot`, the whole key as the file has
it, the first part of the key that is left and the rest of it, the text of the value, and whether
the file is read for the first time. -/
structure Visit where
  path : Path
  sRoot : Option Path
  fullPath : Text
  key : Text
  rest : Text
  value : Text
  initial : Bool

/-- The first lines of `parseParam`. -/
def Visit.enter (path : Path) (propagates : Bool) (subscribtionRoot : Option Path)
    (fullPath key value : Text) (initial : Bool) : Visit :=
  { path := path
    sRoot := if propagates then some path else subscribtionRoot
    fullPath := fullPath
    key := (cut key '.').1
    rest := (cut key '.').2.1
    value := value
    initial := initial }

/-- A value that has been read is compared with the one in the field, announced and set. -/
def setIfChanged (v : Visit) (name : String) (tag : List String) (c : Config) (b : Value)
    (old new : Any) : Outcome :=
  if c (v.path ++ [name]) = b then .done c
  else if v.initial then
    ⟨Function.update c (v.path ++ [name]) b, [⟨v.path ++ [name], b, none⟩], none⟩
  else if "allow_dynamic" ∈ tag then
    ⟨Function.update c (v.path ++ [name]) b,
      [⟨v.path ++ [name], b, v.sRoot.map fun root => (root, ⟨name, v.fullPath, old, new⟩)⟩], none⟩
  else
    .stopped c (.error (.new
      ("dynamic change of " ++ String.ofList v.key ++ " parameter is not allowed  ")))

/-- The body of the loop of `parseParam` for a field that is no struct. -/
def setParam (P : Parsers) (v : Visit) (name : String) (tag : List String) (c : Config) : Outcome :=
  let text := trimSpace v.value
  match c (v.path ++ [name]) with
  | .duration d =>
      match P.parseDuration text with
      | .error e => .stopped c (.error e)
      -- `New` is the field and `Old` is what has been read, other than for every other kind.
      | .ok b => setIfChanged v name tag c (.duration b) (.duration b) (.reflectValue (.duration d))
  | .bool x =>
      setIfChanged v name tag c (.bool (paramParseBool text)) (.bool x)
        (.bool (paramParseBool text))
  | .uint x =>
      match P.parseUint text with
      | .error e => .stopped c (.error e)
      | .ok uintP => setIfChanged v name tag c (.uint uintP) (.uint64 x) (.uint64 uintP)
  | .int x =>
      match P.parseInt text with
      | .error e => .stopped c (.error e)
      | .ok intP => setIfChanged v name tag c (.int intP) (.int64 x) (.int64 intP)
  | .string x => setIfChanged v name tag c (.string text) (.string x) (.string text)
  | .strings x =>
      setIfChanged v name tag c (.strings (paramParseStringSlice text)) (.reflectValue (.strings x))
        (.strings (paramParseStringSlice text))
  | .other => .stopped c (.panic "unsupported type struct")

mutual

/-- The body of the loop of `parseParam`. -/
def parseField (P : Parsers) (v : Visit) (c : Config) : Field → Outcome
  | .param name tag _ =>
      if tag.head? = some (String.ofList v.key) then setParam P v name tag c else .done c
  | .struct name tag propagates fields =>
      if tag.head? = some (String.ofList v.key) then
        parseFields P (Visit.enter (v.path ++ [name]) propagates v.sRoot v.fullPath v.rest v.value
          v.initial) c fields
      else .done c

/-- The loop of `parseParam` over the fields of a struct. -/
def parseFields (P : Parsers) (v : Visit) (c : Config) : List Field → Outcome
  | [] => .done c
  | f :: fs => (parseField P v c f).andThen fun c => parseFields P v c fs

end

def parseParam (P : Parsers) (path : Path) (propagates : Bool) (fields : List Field)
    (subscribtionRoot : Option Path) (fullPath key value : Text) (initial : Bool) (c : Config) :
    Outcome :=
  parseFields P (Visit.enter path propagates subscribtionRoot fullPath key value initial) c fields

/-! ### Reading a file -/

/-- What `parseIni` sees in a line. -/
inductive Line where
  | nothing
  | header (tag : Text)
  | param (key value : Text)
  | malformed
  deriving DecidableEq, Repr

def readLine (text : Text) : Line :=
  match trimSpace text with
  | [] => .nothing
  | '#' :: _ => .nothing
  | '/' :: _ => .nothing
  | ';' :: _ => .nothing
  | '[' :: rest =>
      match cut rest ']' with
      | (tag, _, true) => .header (trimSpace tag)
      | (_, _, false) => .malformed
  | line =>
      match cut line '=' with
      | (key, value, true) => .param (trimSpace key) (trimSpace value)
      | (_, _, false) => .malformed

/-- The loop of `parseIni` that looks for a section. -/
def findSection (tag : Text) : Option Field :=
  (sections.filter fun f => f.tag = [String.ofList tag]).getLast?

/-- A parameter of the current section. -/
def parseSectionParam (P : Parsers) (initial : Bool) (current : Option (Text × Field))
    (key value : Text) (c : Config) : Outcome :=
  match current with
  | some (tag, .struct name _ propagates fields) =>
      -- The variable `sRoot` of `parseIni` is never set.
      parseParam P [name] propagates fields none (tag ++ '.' :: key) key value initial c
  | _ => .stopped c (.error (.new "malformed config"))

/-- The loop of `parseIni`; a header that names no section leaves the current one. -/
def parseLines (P : Parsers) (initial : Bool) (current : Option (Text × Field)) (c : Config) :
    List Text → Outcome
  | [] => .done c
  | line :: lines =>
      match readLine line with
      | .nothing => parseLines P initial current c lines
      | .header tag =>
          parseLines P initial (((findSection tag).map fun f => (tag, f)).or current) c lines
      | .param key value =>
          (parseSectionParam P initial current key value c).andThen fun c =>
            parseLines P initial current c lines
      | .malformed => .stopped c (.error (.new "parse failure"))

/-- What the scanner makes of a file: lines, and an error if it cannot read to the end. -/
structure File where
  lines : List Text
  err : Option GoError

def parseIni (P : Parsers) (file : File) (c : Config) (initial : Bool) : Outcome :=
  (parseLines P initial none c file.lines).andThen fun c => ⟨c, [], file.err.map .error⟩

/-- A version of the file, or the error of opening it. -/
abbrev Version := Except GoError File

/-- `Source.Load`. -/
def load (P : Parsers) (version : Version) (c : Config) (initial : Bool) : Outcome :=
  match version with
  | .error e => .stopped c (.error e)
  | .ok file => parseIni P file c initial

/-! ### The changes a file makes -/

def applyChanges (c : Config) (changes : List Change) : Config :=
  changes.foldl (fun c ch => Function.update c ch.path ch.value) c

theorem applyChanges_append (c : Config) (l₁ l₂ : List Change) :
    applyChanges c (l₁ ++ l₂) = applyChanges (applyChanges c l₁) l₂ :=
  List.foldl_append

theorem applyChanges_cons (c : Config) (ch : Change) (l : List Change) :
    applyChanges c (ch :: l) = applyChanges (Function.update c ch.path ch.value) l := rfl

/-- The values of a configuration are of given kinds. -/
def Typed (K : Path → Kind) (c : Config) : Prop := ∀ path, (c path).kind = K path

/-- What stands in the field `New` when `b` has been read and `el` is the value before. -/
def Value.announcedAs (b el : Value) : Any :=
  match b with
  | duration _ => .reflectValue el
  | bool x => .bool x
  | uint n => .uint64 n
  | int i => .int64 i
  | string s => .string s
  | strings l => .strings l
  | other => .reflectValue el

section

variable {D : Path → Option Path → Bool} {initial : Bool} {K : Path → Kind} {c : Config}
  {P : Parsers}

/-- A change as the reading makes it: of a parameter in a struct at a place where `D` holds, of the
kind of the parameter, and announced under its name unless the file is read for the first time. -/
inductive Assigned (D : Path → Option Path → Bool) (initial : Bool) (K : Path → Kind) :
    Change → Prop
  | mk {path : Path} {sRoot : Option Path} {name : String} {fullPath : Text} {b el : Value}
      {old : Any} (hD : D path sRoot = true) (hkind : b.kind = K (path ++ [name]))
      (hother : b ≠ .other) (hstrings : b ≠ .strings []) :
      Assigned D initial K ⟨path ++ [name], b, if initial then none else
        sRoot.map fun root => (root, ⟨name, fullPath, old, b.announcedAs el⟩)⟩

theorem Assigned.kind_eq {ch : Change} (h : Assigned D initial K ch) :
    ch.value.kind = K ch.path := by
  cases h with
  | mk hD hkind hother hstrings => exact hkind

theorem Typed.applyChanges (hc : Typed K c) {changes : List Change}
    (h : ∀ ch ∈ changes, Assigned D initial K ch) : Typed K (applyChanges c changes) := by
  induction changes generalizing c with
  | nil => exact hc
  | cons ch l ih =>
      rw [applyChanges_cons]
      refine ih (fun path => ?_) fun ch' hch' => h ch' (List.mem_cons_of_mem _ hch')
      rcases eq_or_ne path ch.path with rfl | hne
      · rw [Function.update_self]
        exact (h ch List.mem_cons_self).kind_eq
      · rw [Function.update_of_ne hne]
        exact hc path

/-- The configuration is the one before with the changes made in order. -/
structure Traced (D : Path → Option Path → Bool) (initial : Bool) (K : Path → Kind) (c : Config)
    (o : Outcome) : Prop where
  config_eq : o.config = applyChanges c o.changes
  assigned : ∀ ch ∈ o.changes, Assigned D initial K ch

theorem Traced.typed {o : Outcome} (h : Traced D initial K c o) (hc : Typed K c) :
    Typed K o.config := h.config_eq ▸ hc.applyChanges h.assigned

theorem traced_of_changes_eq_nil (c : Config) (stop : Option Stop) :
    Traced D initial K c ⟨c, [], stop⟩ := ⟨rfl, fun _ hch => absurd hch List.not_mem_nil⟩

theorem Traced.andThen {o : Outcome} {next : Config → Outcome} (h : Traced D initial K c o)
    (hc : Typed K c) (hnext : ∀ c', Typed K c' → Traced D initial K c' (next c')) :
    Traced D initial K c (o.andThen next) := by
  have htyped : Typed K o.config := h.typed hc
  unfold Outcome.andThen
  split
  · exact h
  · refine ⟨?_, fun ch hch => ?_⟩
    · rw [applyChanges_append, ← h.config_eq]
      exact (hnext _ htyped).config_eq
    · rcases List.mem_append.1 hch with hch | hch
      · exact h.assigned ch hch
      · exact (hnext _ htyped).assigned ch hch

/-! ### One parameter -/

theorem traced_setIfChanged {v : Visit} {name : String} {tag : List String} {b : Value}
    {old : Any} (el : Value) (hD : D v.path v.sRoot = true) (hkind : b.kind = K (v.path ++ [name]))
    (hother : b ≠ .other) (hstrings : b ≠ .strings []) :
    Traced D v.initial K c (setIfChanged v name tag c b old (b.announcedAs el)) := by
  have hassigned : Assigned D v.initial K ⟨v.path ++ [name], b, if v.initial then none else
      v.sRoot.map fun root => (root, ⟨name, v.fullPath, old, b.announcedAs el⟩)⟩ :=
    .mk hD hkind hother hstrings
  unfold setIfChanged
  split
  · exact traced_of_changes_eq_nil c none
  · split
    · next hinitial =>
        refine ⟨rfl, fun ch hch => ?_⟩
        rw [List.mem_singleton.1 hch]
        simpa [hinitial] using hassigned
    · next hinitial =>
        split
        · refine ⟨rfl, fun ch hch => ?_⟩
          rw [List.mem_singleton.1 hch]
          simpa [hinitial] using hassigned
        · exact traced_of_changes_eq_nil c _

/-- Reading one parameter changes it to a value of its kind, or changes nothing. -/
theorem traced_setParam {v : Visit} {name : String} {tag : List String}
    (hD : D v.path v.sRoot = true) (hc : Typed K c) :
    Traced D v.initial K c (setParam P v name tag c) := by
  have hkind : (c (v.path ++ [name])).kind = K (v.path ++ [name]) := hc _
  unfold setParam
  dsimp only
  split
  · next d hel =>
      rw [hel] at hkind
      split
      · exact traced_of_changes_eq_nil c _
      · exact traced_setIfChanged (.duration d) hD hkind (by simp) (by simp)
  · next x hel =>
      rw [hel] at hkind
      exact traced_setIfChanged .other hD hkind (by simp) (by simp)
  · next x hel =>
      rw [hel] at hkind
      split
      · exact traced_of_changes_eq_nil c _
      · exact traced_setIfChanged .other hD hkind (by simp) (by simp)
  · next x hel =>
      rw [hel] at hkind
      split
      · exact traced_of_changes_eq_nil c _
      · exact traced_setIfChanged .other hD hkind (by simp) (by simp)
  · next x hel =>
      rw [hel] at hkind
      exact traced_setIfChanged .other hD hkind (by simp) (by simp)
  · next x hel =>
      rw [hel] at hkind
      refine traced_setIfChanged .other hD hkind (by simp) ?_
      simp [paramParseStringSlice, List.splitOn, List.splitOnP_ne_nil]
  · exact traced_of_changes_eq_nil c _

/-! ### The structs of a section -/

mutual

/-- `D` holds of the path and of the root of announcements in every struct with a parameter. -/
def Field.everywhere (D : Path → Option Path → Bool) (path : Path) (sRoot : Option Path) :
    Field → Bool
  | .param _ _ _ => D path sRoot
  | .struct name _ propagates fields =>
      everywhere D (path ++ [name]) (if propagates then some (path ++ [name]) else sRoot) fields

def everywhere (D : Path → Option Path → Bool) (path : Path) (sRoot : Option Path) :
    List Field → Bool
  | [] => true
  | f :: fs => f.everywhere D path sRoot && everywhere D path sRoot fs

end

theorem everywhere_of_mem {path : Path} {sRoot : Option Path} {fields : List Field} {f : Field}
    (h : everywhere D path sRoot fields = true) (hf : f ∈ fields) :
    f.everywhere D path sRoot = true := by
  induction fields with
  | nil => exact absurd hf List.not_mem_nil
  | cons g gs ih =>
      rw [everywhere, Bool.and_eq_true] at h
      rcases List.mem_cons.1 hf with rfl | hf
      · exact h.1
      · exact ih h.2 hf

mutual

theorem traced_parseField {c : Config} (v : Visit) (f : Field)
    (h : f.everywhere D v.path v.sRoot = true) (hc : Typed K c) :
    Traced D v.initial K c (parseField P v c f) := by
  cases f with
  | param name tag init =>
      rw [Field.everywhere] at h
      rw [parseField]
      split
      · exact traced_setParam h hc
      · exact traced_of_changes_eq_nil c none
  | struct name tag propagates fields =>
      rw [Field.everywhere] at h
      rw [parseField]
      split
      · exact traced_parseFields (Visit.enter (v.path ++ [name]) propagates v.sRoot v.fullPath
          v.rest v.value v.initial) fields h hc
      · exact traced_of_changes_eq_nil c none

theorem traced_parseFields {c : Config} (v : Visit) (fields : List Field)
    (h : everywhere D v.path v.sRoot fields = true) (hc : Typed K c) :
    Traced D v.initial K c (parseFields P v c fields) := by
  cases fields with
  | nil =>
      rw [parseFields]
      exact traced_of_changes_eq_nil c none
  | cons f fs =>
      rw [everywhere, Bool.and_eq_true] at h
      rw [parseFields]
      exact (traced_parseField v f h.1 hc).andThen hc fun c' hc' =>
        traced_parseFields v fs h.2 hc'

end

/-! ### The lines of a file -/

/-- The section after a header. -/
def enterSection (current : Option (Text × Field)) (tag : Text) : Option (Text × Field) :=
  ((findSection tag).map fun f => (tag, f)).or current

/-- The current section, if there is one, is a section of the configuration. -/
def Known (current : Option (Text × Field)) : Prop :=
  ∀ tag f, current = some (tag, f) → f ∈ sections

theorem mem_sections_of_findSection {tag : Text} {f : Field} (h : findSection tag = some f) :
    f ∈ sections := (List.mem_filter.1 (List.mem_of_getLast? h)).1

theorem known_none : Known none := fun _ _ h => by cases h

theorem Known.enterSection {current : Option (Text × Field)} (h : Known current) (tag : Text) :
    Known (enterSection current tag) := by
  intro tag' f' heq
  rcases Option.or_eq_some_iff.1 heq with heq | ⟨-, heq⟩
  · obtain ⟨f, hf, hpair⟩ := Option.map_eq_some_iff.1 heq
    obtain ⟨-, rfl⟩ := Prod.mk.inj hpair
    exact mem_sections_of_findSection hf
  · exact h tag' f' heq

theorem traced_parseSectionParam {current : Option (Text × Field)} {key value : Text}
    (hD : everywhere D [] none sections = true) (hcurrent : Known current) (hc : Typed K c) :
    Traced D initial K c (parseSectionParam P initial current key value c) := by
  unfold parseSectionParam
  split
  · next tag name _ propagates fields =>
      have h := everywhere_of_mem hD (hcurrent _ _ rfl)
      rw [Field.everywhere] at h
      exact traced_parseFields (Visit.enter [name] propagates none (tag ++ '.' :: key) key value
        initial) fields h hc
  · exact traced_of_changes_eq_nil c _

theorem traced_parseLines (hD : everywhere D [] none sections = true)
    {current : Option (Text × Field)} (hcurrent : Known current) (hc : Typed K c)
    (lines : List Text) : Traced D initial K c (parseLines P initial current c lines) := by
  induction lines generalizing current c with
  | nil => exact traced_of_changes_eq_nil c none
  | cons line lines ih =>
      rw [parseLines]
      split
      · exact ih hcurrent hc
      · next tag _ => exact ih (hcurrent.enterSection tag) hc
      · exact (traced_parseSectionParam hD hcurrent hc).andThen hc fun c' hc' => ih hcurrent hc'
      · exact traced_of_changes_eq_nil c _

/-- **The changes of a file**: the configuration after it is the one before with the changes made in
order, and every change is one of a parameter at a place where `D` holds. -/
theorem traced_load (hD : everywhere D [] none sections = true) (hc : Typed K c)
    (version : Version) : Traced D initial K c (load P version c initial) := by
  unfold load
  split
  · exact traced_of_changes_eq_nil c _
  · next file =>
      refine (traced_parseLines hD known_none hc file.lines).andThen hc fun c' _ => ?_
      exact traced_of_changes_eq_nil c' _

end

end Dreamboat.ConfigFile
