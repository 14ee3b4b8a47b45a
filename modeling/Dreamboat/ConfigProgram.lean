/-
**A configuration file as a list of assignments.**

`Dreamboat/ConfigFile.lean` follows the reader of the configuration through its lines and through
the fields of the structs.  Which parameters a file assigns to, in which order, and where it is
malformed does not depend on the configuration: a file is a straight-line program, a list of
assignments and failures, and reading it is to perform the steps until one stops.  Two properties of
whole files are stated and settled on the program.

A reload that returns an error should not have done anything.  The steps before the one that fails
have been performed, though, each with its announcement, and nothing takes them back.

A line should change at most one parameter, and one of the section whose header stands above it.
The tags in a struct are different, so that a key leads to one parameter.  The variable with the
current section keeps its value at a header that names none, though, and the lines below such a
header are read as lines of the section before it.

Main definitions:

* `ConfigFile.program`, `ConfigFile.perform` — the steps of a file;
* `ConfigFile.performed` — the assignments up to the step that stops;
* `ConfigFile.Assignment.given` — the value that an assignment gives its parameter;
* `ConfigFile.Atomic` — a reload with an error leaves the configuration and tells nobody;
* `ConfigFile.WithinSections` — a line changes at most one parameter, of the section of the header
  above it.

Main results:

* `ConfigFile.load_eq_perform` — reading a file is to perform its program;
* `ConfigFile.atomic_iff` — **a reload with an error is atomic exactly when the assignments before
  the error are redundant**;
* `ConfigFile.withinSections_iff` — **lines stay within their sections exactly when the assignments
  below a header that names no section are redundant**, as in a file whose headers all name
  sections.
-/

import Mathlib.Data.List.Infix
import Dreamboat.ConfigReload

set_option autoImplicit false

namespace Dreamboat.ConfigFile

/-! ### The program of a file -/

/-- A parameter that a line assigns to: the struct it is in, its name and its tag. -/
structure Assignment where
  visit : Visit
  name : String
  tag : List String

inductive Step where
  | assign (a : Assignment)
  | fail (e : GoError)

mutual

def Field.assignments (v : Visit) : Field → List Assignment
  | .param name tag _ =>
      if tag.head? = some (String.ofList v.key) then [⟨v, name, tag⟩] else []
  | .struct name tag propagates fields =>
      if tag.head? = some (String.ofList v.key) then
        assignments (Visit.enter (v.path ++ [name]) propagates v.sRoot v.fullPath v.rest v.value
          v.initial) fields
      else []

/-- The parameters below a struct that a key leads to. -/
def assignments (v : Visit) : List Field → List Assignment
  | [] => []
  | f :: fs => f.assignments v ++ assignments v fs

end

/-- The steps of a line with a key and a value. -/
def paramSteps (initial : Bool) (current : Option (Text × Field)) (key value : Text) : List Step :=
  match current with
  | some (tag, .struct name _ propagates fields) =>
      (assignments (Visit.enter [name] propagates none (tag ++ '.' :: key) key value initial)
        fields).map .assign
  | _ => [.fail (.new "malformed config")]

def lineSteps (initial : Bool) (current : Option (Text × Field)) : List Text → List Step
  | [] => []
  | line :: lines =>
      match readLine line with
      | .nothing => lineSteps initial current lines
      | .header tag => lineSteps initial (enterSection current tag) lines
      | .param key value =>
          paramSteps initial current key value ++ lineSteps initial current lines
      | .malformed => [.fail (.new "parse failure")]

/-- The program of a version of the file. -/
def program (initial : Bool) : Version → List Step
  | .error e => [.fail e]
  | .ok file => lineSteps initial none file.lines ++ (file.err.map .fail).toList

/-! ### Performing a program -/

namespace Assignment

def path (a : Assignment) : Path := a.visit.path ++ [a.name]

def exec (P : Parsers) (a : Assignment) (c : Config) : Outcome :=
  setParam P a.visit a.name a.tag c

end Assignment

/-- The steps are taken one after another until one stops. -/
def perform (P : Parsers) (c : Config) : List Step → Outcome
  | [] => .done c
  | .fail e :: _ => .stopped c (.error e)
  | .assign a :: steps => (a.exec P c).andThen fun c => perform P c steps

variable {P : Parsers} {initial : Bool} {c : Config}

theorem Outcome.andThen_assoc (o : Outcome) (f g : Config → Outcome) :
    (o.andThen f).andThen g = o.andThen fun c => (f c).andThen g := by
  unfold andThen
  cases ho : o.stop with
  | some stop => simp only [ho]
  | none =>
      cases hf : (f o.config).stop with
      | some stop => simp only [hf]
      | none => simp only [hf, List.append_assoc]

@[simp] theorem Outcome.done_andThen (c : Config) (f : Config → Outcome) :
    (done c).andThen f = f c := by
  simp [done, andThen]

@[simp] theorem Outcome.stopped_andThen (c : Config) (stop : Stop) (f : Config → Outcome) :
    (stopped c stop).andThen f = stopped c stop := rfl

theorem Outcome.andThen_done (o : Outcome) : o.andThen done = o := by
  unfold andThen
  cases ho : o.stop with
  | some stop => rfl
  | none =>
      cases o
      simp_all [done]

theorem perform_append (c : Config) (l₁ l₂ : List Step) :
    perform P c (l₁ ++ l₂) = (perform P c l₁).andThen fun c => perform P c l₂ := by
  induction l₁ generalizing c with
  | nil => rw [List.nil_append, perform, Outcome.done_andThen]
  | cons s l₁ ih =>
      cases s with
      | fail e => rw [List.cons_append, perform, perform, Outcome.stopped_andThen]
      | assign a =>
          rw [List.cons_append, perform, perform, Outcome.andThen_assoc]
          simp only [ih]

mutual

theorem parseField_eq_perform (v : Visit) (c : Config) (f : Field) :
    parseField P v c f = perform P c ((f.assignments v).map .assign) := by
  cases f with
  | param name tag init =>
      rw [parseField, Field.assignments]
      split
      · exact (Outcome.andThen_done _).symm
      · rfl
  | struct name tag propagates fields =>
      rw [parseField, Field.assignments]
      split
      · exact parseFields_eq_perform _ c fields
      · rfl

theorem parseFields_eq_perform (v : Visit) (c : Config) (fields : List Field) :
    parseFields P v c fields = perform P c ((assignments v fields).map .assign) := by
  cases fields with
  | nil => rw [parseFields, assignments, List.map_nil, perform]
  | cons f fs =>
      rw [parseFields, assignments, List.map_append, perform_append, parseField_eq_perform v c f]
      congr
      funext c'
      exact parseFields_eq_perform v c' fs

end

theorem parseSectionParam_eq_perform (current : Option (Text × Field)) (key value : Text)
    (c : Config) :
    parseSectionParam P initial current key value c =
      perform P c (paramSteps initial current key value) := by
  rcases current with _ | ⟨tag, _ | ⟨name, -, propagates, fields⟩⟩
  · rfl
  · rfl
  · exact parseFields_eq_perform _ c fields

theorem parseLines_eq_perform (current : Option (Text × Field)) (c : Config) (lines : List Text) :
    parseLines P initial current c lines = perform P c (lineSteps initial current lines) := by
  induction lines generalizing current c with
  | nil => rfl
  | cons line lines ih =>
      rw [parseLines, lineSteps]
      cases readLine line with
      | nothing => exact ih current c
      | header tag => exact ih _ c
      | param key value =>
          simp only [perform_append, parseSectionParam_eq_perform, ih]
      | malformed => rfl

/-- **Reading a file is to perform its program.** -/
theorem load_eq_perform (version : Version) (c : Config) (initial : Bool) :
    load P version c initial = perform P c (program initial version) := by
  cases version with
  | error e => rfl
  | ok file =>
      rw [load, parseIni, program, perform_append, parseLines_eq_perform]
      congr
      funext c'
      cases file.err <;> rfl

/-! ### One assignment -/

/-- The value that a text stands for in a parameter of a kind; `other` if it cannot be read. -/
def Kind.read (P : Parsers) (text : Text) : Kind → Value
  | duration => (P.parseDuration text).toOption.elim .other .duration
  | bool => .bool (paramParseBool text)
  | uint => (P.parseUint text).toOption.elim .other .uint
  | int => (P.parseInt text).toOption.elim .other .int
  | string => .string text
  | strings => .strings (paramParseStringSlice text)
  | other => .other

/-- The value that an assignment gives its parameter. -/
def Assignment.given (P : Parsers) (c : Config) (a : Assignment) : Value :=
  (c a.path).kind.read P (trimSpace a.visit.value)

/-- What an assignment does: it stops, it finds the value it gives, or it sets the parameter and
announces it to the root of its struct. -/
inductive Assignment.Done (P : Parsers) (a : Assignment) (c : Config) : Outcome → Prop
  | stopped (stop : Stop) : Done P a c (.stopped c stop)
  | same (h : a.given P c = c a.path) : Done P a c (.done c)
  | set {announced : Option (Path × OldNew)} (hne : a.given P c ≠ c a.path)
      (hkind : (a.given P c).kind = (c a.path).kind)
      (hroot : announced.map Prod.fst = if a.visit.initial then none else a.visit.sRoot) :
      Done P a c ⟨Function.update c a.path (a.given P c), [⟨a.path, a.given P c, announced⟩], none⟩

theorem Assignment.done_setIfChanged {a : Assignment} {b : Value} {old new : Any}
    (hb : a.given P c = b) (hkind : b.kind = (c a.path).kind) :
    a.Done P c (setIfChanged a.visit a.name a.tag c b old new) := by
  subst hb
  unfold setIfChanged
  split
  · next h => exact .same h.symm
  · next h =>
      split
      · next hinitial => exact .set (Ne.symm h) hkind (by simp [hinitial])
      · next hinitial =>
          split
          · exact .set (Ne.symm h) hkind (by simp [hinitial, Function.comp_def])
          · exact .stopped _

theorem Assignment.given_of_eq {a : Assignment} {v : Value}
    (h : c (a.visit.path ++ [a.name]) = v) :
    a.given P c = v.kind.read P (trimSpace a.visit.value) := by
  rw [given, path, h]

/-- A value that its parser has read without an error. -/
theorem Assignment.done_parsed {α : Type} {a : Assignment} {v : Value} {r : Except GoError α}
    {f : α → Value} {x : α} {old new : Any} (hel : c (a.visit.path ++ [a.name]) = v)
    (hread : v.kind.read P (trimSpace a.visit.value) = r.toOption.elim .other f)
    (hx : r = .ok x) (hkind : (f x).kind = v.kind) :
    a.Done P c (setIfChanged a.visit a.name a.tag c (f x) old new) := by
  refine done_setIfChanged ?_ (hkind.trans (congrArg Value.kind hel).symm)
  rw [given_of_eq hel, hread, hx]
  rfl

theorem Assignment.done_exec (a : Assignment) (c : Config) : a.Done P c (a.exec P c) := by
  unfold exec setParam
  dsimp only
  split
  · next d hel =>
      split
      · exact .stopped _
      · next b hb => exact done_parsed (f := Value.duration) hel rfl hb rfl
  · next x hel => exact done_setIfChanged (given_of_eq hel) (congrArg Value.kind hel).symm
  · next x hel =>
      split
      · exact .stopped _
      · next b hb => exact done_parsed (f := Value.uint) hel rfl hb rfl
  · next x hel =>
      split
      · exact .stopped _
      · next b hb => exact done_parsed (f := Value.int) hel rfl hb rfl
  · next x hel => exact done_setIfChanged (given_of_eq hel) (congrArg Value.kind hel).symm
  · next x hel => exact done_setIfChanged (given_of_eq hel) (congrArg Value.kind hel).symm
  · exact .stopped _

/-! ### The assignments up to the step that stops -/

def performed (P : Parsers) (c : Config) : List Step → List Assignment
  | [] => []
  | .fail _ :: _ => []
  | .assign a :: steps =>
      if (a.exec P c).stop = none then a :: performed P (a.exec P c).config steps else []

/-- What a program does, with the assignments that it performs. -/
inductive Performs (P : Parsers) : Config → List Step → List Assignment → Outcome → Prop
  | nil (c : Config) : Performs P c [] [] (.done c)
  | stopped (c : Config) (s : Step) (steps : List Step) (stop : Stop) :
      Performs P c (s :: steps) [] (.stopped c stop)
  | same {c : Config} {a : Assignment} {steps : List Step} {l : List Assignment} {o : Outcome}
      (h : a.given P c = c a.path) (hrest : Performs P c steps l o) :
      Performs P c (.assign a :: steps) (a :: l) o
  | set {c : Config} {a : Assignment} {steps : List Step} {l : List Assignment} {o : Outcome}
      {announced : Option (Path × OldNew)} (hne : a.given P c ≠ c a.path)
      (hkind : (a.given P c).kind = (c a.path).kind)
      (hroot : announced.map Prod.fst = if a.visit.initial then none else a.visit.sRoot)
      (hrest : Performs P (Function.update c a.path (a.given P c)) steps l o) :
      Performs P c (.assign a :: steps) (a :: l)
        ⟨o.config, ⟨a.path, a.given P c, announced⟩ :: o.changes, o.stop⟩

theorem performs_perform (P : Parsers) (c : Config) (steps : List Step) :
    Performs P c steps (performed P c steps) (perform P c steps) := by
  induction steps generalizing c with
  | nil => exact .nil c
  | cons s steps ih =>
      cases s with
      | fail e => exact .stopped c _ _ _
      | assign a =>
          have hdone : a.Done P c (a.exec P c) := a.done_exec c
          rw [performed, perform]
          generalize a.exec P c = o at hdone
          cases hdone with
          | stopped stop => exact .stopped c _ _ stop
          | same h =>
              rw [Outcome.done_andThen]
              exact .same h (ih c)
          | set hne hkind hroot => exact .set hne hkind hroot (ih _)

/-- Two configurations with values of the same kinds. -/
def SameKinds (c c' : Config) : Prop := ∀ path, (c path).kind = (c' path).kind

theorem SameKinds.given_eq {c c' : Config} (h : SameKinds c c') (a : Assignment) :
    a.given P c = a.given P c' := by
  rw [Assignment.given, Assignment.given, h a.path]

theorem SameKinds.update {c c' : Config} (h : SameKinds c c') {path : Path} {b : Value}
    (hb : b.kind = (c path).kind) : SameKinds (Function.update c path b) c' := by
  intro path'
  rcases eq_or_ne path' path with rfl | hne
  · rw [Function.update_self, hb, h]
  · rw [Function.update_of_ne hne, h]

/-- **The configuration after a program** has what the assignments give. -/
theorem Performs.config_eq {c₀ c : Config} {steps : List Step} {l : List Assignment} {o : Outcome}
    (h : Performs P c steps l o) (hkinds : SameKinds c c₀) :
    o.config = KeyedLog.write Assignment.path (Assignment.given P c₀) c l := by
  induction h with
  | nil c => rfl
  | stopped c s steps stop => rfl
  | @same c a steps l o h hrest ih =>
      rw [KeyedLog.write_cons, ← hkinds.given_eq a, h, Function.update_eq_self]
      exact ih hkinds
  | @set c a steps l o announced hne hkind hroot hrest ih =>
      rw [KeyedLog.write_cons, ← hkinds.given_eq a]
      exact ih (hkinds.update hkind)

theorem Performs.assign_mem {c : Config} {steps : List Step} {l : List Assignment} {o : Outcome}
    (h : Performs P c steps l o) : ∀ a ∈ l, .assign a ∈ steps := by
  induction h with
  | nil c => exact fun a ha => absurd ha List.not_mem_nil
  | stopped c s steps stop => exact fun a ha => absurd ha List.not_mem_nil
  | same h hrest ih =>
      intro a ha
      rcases List.mem_cons.1 ha with rfl | ha
      · exact List.mem_cons_self
      · exact List.mem_cons_of_mem _ (ih a ha)
  | set hne hkind hroot hrest ih =>
      intro a ha
      rcases List.mem_cons.1 ha with rfl | ha
      · exact List.mem_cons_self
      · exact List.mem_cons_of_mem _ (ih a ha)

/-! ### Where the assignments of a file are -/

/-- An assignment that a visit of a struct leads to. -/
structure Below (D : Path → Option Path → Bool) (v : Visit) (a : Assignment) : Prop where
  holds : D a.visit.path a.visit.sRoot = true
  path : v.path <+: a.visit.path
  value_eq : a.visit.value = v.value
  initial_eq : a.visit.initial = v.initial

mutual

theorem below_of_mem_field {D : Path → Option Path → Bool} {a : Assignment} (v : Visit) (f : Field)
    (hD : f.everywhere D v.path v.sRoot = true) (ha : a ∈ f.assignments v) : Below D v a := by
  cases f with
  | param name tag init =>
      rw [Field.everywhere] at hD
      rw [Field.assignments] at ha
      split at ha
      · rw [List.mem_singleton.1 ha]
        exact ⟨hD, List.prefix_refl _, rfl, rfl⟩
      · exact absurd ha List.not_mem_nil
  | struct name tag propagates fields =>
      rw [Field.everywhere] at hD
      rw [Field.assignments] at ha
      split at ha
      · have h := below_of_mem (Visit.enter (v.path ++ [name]) propagates v.sRoot v.fullPath v.rest
          v.value v.initial) fields hD ha
        exact ⟨h.holds, (List.prefix_append _ _).trans h.path, h.value_eq, h.initial_eq⟩
      · exact absurd ha List.not_mem_nil

theorem below_of_mem {D : Path → Option Path → Bool} {a : Assignment} (v : Visit)
    (fields : List Field) (hD : everywhere D v.path v.sRoot fields = true)
    (ha : a ∈ assignments v fields) : Below D v a := by
  cases fields with
  | nil =>
      rw [assignments] at ha
      exact absurd ha List.not_mem_nil
  | cons f fs =>
      rw [everywhere, Bool.and_eq_true] at hD
      rw [assignments, List.mem_append] at ha
      rcases ha with ha | ha
      · exact below_of_mem_field v f hD.1 ha
      · exact below_of_mem v fs hD.2 ha

end

def Field.name : Field → String
  | param name _ _ => name
  | struct name _ _ _ => name

theorem exists_below_of_mem_paramSteps {tag key value : Text} {f : Field} (hf : f ∈ sections)
    {a : Assignment} (ha : .assign a ∈ paramSteps initial (some (tag, f)) key value) :
    ∃ v : Visit, v.path = [f.name] ∧ v.value = value ∧ v.initial = initial ∧
      Below announcesOwn v a := by
  cases f with
  | param name _ init => simp [paramSteps] at ha
  | struct name _ propagates fields =>
      have hD := everywhere_of_mem everywhere_announcesOwn hf
      rw [Field.everywhere] at hD
      obtain ⟨a', ha', heq⟩ := List.mem_map.1 ha
      obtain rfl := Step.assign.inj heq
      exact ⟨_, rfl, rfl, rfl, below_of_mem _ fields hD ha'⟩

mutual

/-- No two fields of a struct have the same tag. -/
def Field.distinctTags : Field → Bool
  | .param _ _ _ => true
  | .struct _ _ _ fields => ConfigFile.distinctTags fields

def distinctTags : List Field → Bool
  | [] => true
  | f :: fs => f.distinctTags && fs.all (fun g => g.tag.head? ≠ f.tag.head?) && distinctTags fs

end

theorem distinctTags_sections : distinctTags sections = true := by decide +kernel

theorem distinctTags_of_mem {fields : List Field} {f : Field} (h : distinctTags fields = true)
    (hf : f ∈ fields) : f.distinctTags = true := by
  induction fields with
  | nil => exact absurd hf List.not_mem_nil
  | cons g gs ih =>
      rw [distinctTags, Bool.and_eq_true, Bool.and_eq_true] at h
      rcases List.mem_cons.1 hf with rfl | hf
      · exact h.1.1
      · exact ih h.2 hf

theorem tag_of_mem_field {v : Visit} {f : Field} {a : Assignment} (ha : a ∈ f.assignments v) :
    f.tag.head? = some (String.ofList v.key) := by
  cases f with
  | param | struct =>
      rw [Field.assignments, List.mem_ite_nil_right] at ha
      exact ha.1

theorem exists_tag_of_mem {v : Visit} {fields : List Field} {a : Assignment}
    (ha : a ∈ assignments v fields) : ∃ g ∈ fields, g.tag.head? = some (String.ofList v.key) := by
  induction fields with
  | nil =>
      rw [assignments] at ha
      exact absurd ha List.not_mem_nil
  | cons f fs ih =>
      rw [assignments, List.mem_append] at ha
      rcases ha with ha | ha
      · exact ⟨f, List.mem_cons_self, tag_of_mem_field ha⟩
      · obtain ⟨g, hg, htag⟩ := ih ha
        exact ⟨g, List.mem_cons_of_mem _ hg, htag⟩

mutual

theorem eq_of_mem_field {a a' : Assignment} (v : Visit) (f : Field) (hf : f.distinctTags = true)
    (ha : a ∈ f.assignments v) (ha' : a' ∈ f.assignments v) : a' = a := by
  cases f with
  | param name tag init =>
      rw [Field.assignments, List.mem_ite_nil_right, List.mem_singleton] at ha ha'
      rw [ha.2, ha'.2]
  | struct name tag propagates fields =>
      rw [Field.distinctTags] at hf
      rw [Field.assignments, List.mem_ite_nil_right] at ha ha'
      exact eq_of_mem_assignments _ fields hf ha.2 ha'.2

/-- **A key leads to one parameter.** -/
theorem eq_of_mem_assignments {a a' : Assignment} (v : Visit) (fields : List Field)
    (hfields : distinctTags fields = true) (ha : a ∈ assignments v fields)
    (ha' : a' ∈ assignments v fields) : a' = a := by
  cases fields with
  | nil =>
      rw [assignments] at ha
      exact absurd ha List.not_mem_nil
  | cons f fs =>
      rw [distinctTags, Bool.and_eq_true, Bool.and_eq_true, List.all_eq_true] at hfields
      obtain ⟨⟨hf, hne⟩, hfs⟩ := hfields
      -- the key is the tag of `f` or one of another field
      have hone : ∀ {b b' : Assignment}, b ∈ f.assignments v → b' ∉ assignments v fs := by
        intro b b' hb hb'
        obtain ⟨g, hg, htag⟩ := exists_tag_of_mem hb'
        exact of_decide_eq_true (hne g hg) (htag.trans (tag_of_mem_field hb).symm)
      rw [assignments, List.mem_append] at ha ha'
      rcases ha with ha | ha
      · exact eq_of_mem_field v f hf ha (ha'.resolve_right (hone ha))
      · exact eq_of_mem_assignments v fs hfs ha (ha'.resolve_left fun hb => hone hb ha)

end

/-- A line assigns to at most one parameter. -/
theorem eq_of_mem_paramSteps {current : Option (Text × Field)} (hcurrent : Known current)
    {key value : Text} {a a' : Assignment} (ha : .assign a ∈ paramSteps initial current key value)
    (ha' : .assign a' ∈ paramSteps initial current key value) : a' = a := by
  rcases current with _ | ⟨tag, _ | ⟨name, stag, propagates, fields⟩⟩
  · simp [paramSteps] at ha
  · simp [paramSteps] at ha
  · have hfields := distinctTags_of_mem distinctTags_sections (hcurrent _ _ rfl)
    rw [Field.distinctTags] at hfields
    obtain ⟨b, hb, heq⟩ := List.mem_map.1 ha
    obtain ⟨b', hb', heq'⟩ := List.mem_map.1 ha'
    cases heq
    cases heq'
    exact eq_of_mem_assignments _ fields hfields hb hb'

/-! ### A reload that returns an error -/

/-- A listener is told about a change. -/
def Notified (ch : Change) (l : Listener) : Prop :=
  ∃ root o, ch.announced = some (root, o) ∧ l ∈ subscribers root

/-- A reload that returns an error leaves the configuration as it was and tells no listener about a
change. -/
def Atomic (P : Parsers) (s : State) (version : Version) : Prop :=
  ∀ e, (load P version s.config false).stop = some (.error e) →
    (reload P s version).config = s.config ∧
      ∀ ch ∈ (load P version s.config false).changes, ∀ l, ¬Notified ch l

/-- Assignments of values that are there already: the last one to each parameter, and every one to a
parameter that somebody listens to. -/
structure Redundant (P : Parsers) (c : Config) (l : List Assignment) : Prop where
  last : ∀ path a, KeyedLog.lastWrite Assignment.path path l = some a → a.given P c = c path
  heard : ∀ a ∈ l, subscribers a.visit.path ≠ [] → a.given P c = c a.path

/-- The assignments of a program are announced to the listeners of their own sections. -/
def Own (steps : List Step) : Prop :=
  ∀ a, .assign a ∈ steps →
    announcesOwn a.visit.path a.visit.sRoot = true ∧ a.visit.initial = false

theorem notified_iff {a : Assignment} {b : Value} {announced : Option (Path × OldNew)}
    (hown : announcesOwn a.visit.path a.visit.sRoot = true)
    (hroot : announced.map Prod.fst = a.visit.sRoot) (l : Listener) :
    Notified ⟨a.path, b, announced⟩ l ↔ l ∈ subscribers a.visit.path := by
  have hiff : a.visit.sRoot = some l.root ↔ a.visit.path = l.root := by
    cases l <;> simp_all [announcesOwn, Listener.root]
  rw [mem_subscribers_iff, ← hiff, ← hroot]
  unfold Notified
  simp only [mem_subscribers_iff]
  rcases announced with _ | ⟨root, o⟩ <;> simp

/-- **Who is told**: the assignments tell no listener exactly when those to a parameter that
somebody listens to give the value that it has. -/
theorem Performs.not_notified_iff {c₀ c : Config} {steps : List Step} {l : List Assignment}
    {o : Outcome} (h : Performs P c steps l o) (hown : Own steps) (hkinds : SameKinds c c₀)
    (hheard : ∀ path name, subscribers path ≠ [] → c (path ++ [name]) = c₀ (path ++ [name])) :
    (∀ ch ∈ o.changes, ∀ l, ¬Notified ch l) ↔
      ∀ a ∈ l, subscribers a.visit.path ≠ [] → a.given P c₀ = c₀ a.path := by
  induction h with
  | nil c => simp [Outcome.done]
  | stopped c s steps stop => simp [Outcome.stopped]
  | @same c a steps l o h hrest ih =>
      have hown' : Own steps := fun a' ha' => hown a' (List.mem_cons_of_mem _ ha')
      rw [ih hown' hkinds hheard, List.forall_mem_cons]
      refine (and_iff_right fun ha => ?_).symm
      rw [← hkinds.given_eq a, h]
      exact hheard _ _ ha
  | @set c a steps l o announced hne hkind hroot hrest ih =>
      obtain ⟨hownA, hinitial⟩ := hown a List.mem_cons_self
      rw [hinitial, if_neg Bool.false_ne_true] at hroot
      rw [List.forall_mem_cons, List.forall_mem_cons]
      by_cases ha : subscribers a.visit.path = []
      · have hsilent : ∀ l, ¬Notified ⟨a.path, a.given P c, announced⟩ l := by
          intro l hl
          rw [notified_iff hownA hroot, ha] at hl
          exact List.not_mem_nil hl
        rw [and_iff_right hsilent, and_iff_right fun h => absurd ha h]
        refine ih (fun a' ha' => hown a' (List.mem_cons_of_mem _ ha')) (hkinds.update hkind) ?_
        intro path name hpath
        have hne' : path ++ [name] ≠ a.path := by
          intro h
          rw [(List.append_inj' h rfl).1] at hpath
          exact hpath ha
        rw [Function.update_of_ne hne']
        exact hheard path name hpath
      · obtain ⟨l', hl'⟩ := List.exists_mem_of_ne_nil _ ha
        constructor
        · intro h
          exact absurd ((notified_iff hownA hroot l').2 hl') (h.1 l')
        · intro h
          have heq := h.1 ha
          rw [← hkinds.given_eq a, Assignment.path, ← hheard _ _ ha] at heq
          exact absurd heq hne

theorem own_paramSteps {current : Option (Text × Field)} (hcurrent : Known current)
    (key value : Text) : Own (paramSteps false current key value) := by
  intro a ha
  rcases current with _ | ⟨tag, f⟩
  · simp [paramSteps] at ha
  · obtain ⟨v, -, -, hinitial, hbelow⟩ :=
      exists_below_of_mem_paramSteps (hcurrent tag f rfl) ha
    exact ⟨hbelow.holds, hbelow.initial_eq.trans hinitial⟩

theorem own_lineSteps {current : Option (Text × Field)} (hcurrent : Known current)
    (lines : List Text) : Own (lineSteps false current lines) := by
  induction lines generalizing current with
  | nil => exact fun a ha => absurd ha List.not_mem_nil
  | cons line lines ih =>
      rw [lineSteps]
      cases readLine line with
      | nothing => exact ih hcurrent
      | header tag => exact ih (hcurrent.enterSection tag)
      | param key value =>
          intro a ha
          rcases List.mem_append.1 ha with ha | ha
          · exact own_paramSteps hcurrent key value a ha
          · exact ih hcurrent a ha
      | malformed => exact fun a ha => by simp at ha

theorem own_program (version : Version) : Own (program false version) := by
  cases version with
  | error e => exact fun a ha => by simp [program] at ha
  | ok file =>
      intro a ha
      rcases List.mem_append.1 ha with ha | ha
      · exact own_lineSteps known_none file.lines a ha
      · cases herr : file.err <;> simp [herr] at ha

/-- **Atomic reloads**: a reload with an error leaves everything as it was exactly when the
assignments before the error are redundant. -/
theorem atomic_iff (P : Parsers) (s : State) (version : Version) :
    Atomic P s version ↔
      ∀ e, (load P version s.config false).stop = some (.error e) →
        Redundant P s.config (performed P s.config (program false version)) := by
  have hperforms := performs_perform P s.config (program false version)
  rw [← load_eq_perform] at hperforms
  have hkinds : SameKinds s.config s.config := fun _ => rfl
  have hconfig : (reload P s version).config = s.config ↔ ∀ path a,
      KeyedLog.lastWrite Assignment.path path (performed P s.config (program false version)) =
        some a → a.given P s.config = s.config path := by
    rw [reload, hperforms.config_eq hkinds, KeyedLog.write_eq_self_iff]
  have hnotified := hperforms.not_notified_iff (own_program version) hkinds fun _ _ _ => rfl
  refine forall_congr' fun e => imp_congr_right fun _ => ?_
  rw [hconfig, hnotified]
  exact ⟨fun h => ⟨h.1, h.2⟩, fun h => ⟨h.last, h.heard⟩⟩

/-- A file that changes the limit of the data API before a parameter that cannot be changed. -/
def halfApplied : Version :=
  .ok ⟨["[api]".toList, "datalimit = 5".toList, "limitter_cache_size = 7".toList], none⟩

/-- The relay as it starts with an empty file. -/
def startedEmpty : State := started decimalParsers (.ok ⟨[], none⟩)

/-- The reload fails, with the new limit in the configuration and in the API. -/
theorem half_applied_not_atomic :
    ¬Atomic decimalParsers startedEmpty halfApplied ∧
      (reload decimalParsers startedEmpty halfApplied).listeners.api.dataLimit = 5 := by
  refine ⟨fun h => ?_, by decide +kernel⟩
  have hstop : (load decimalParsers halfApplied startedEmpty.config false).stop =
      some (.error (.new "dynamic change of limitter_cache_size parameter is not allowed  ")) := by
    decide +kernel
  have hchanged : (reload decimalParsers startedEmpty halfApplied).config ["Api", "DataLimit"] ≠
      startedEmpty.config ["Api", "DataLimit"] := by
    decide +kernel
  exact hchanged (congrFun (h _ hstop).1 _)

/-! ### The lines below a header -/

def header? (line : Text) : Option Text :=
  match readLine line with
  | .header tag => some tag
  | _ => none

/-- The section that the nearest header above names, if it names one. -/
def namedSection (before : List Text) : Option Field :=
  (before.filterMap header?).getLast?.bind findSection

/-- Reading a line below others changes a parameter. -/
def LineChanges (P : Parsers) (initial : Bool) (c : Config) (before : List Text) (line : Text)
    (path : Path) : Prop :=
  (parseLines P initial none c (before ++ [line])).config path ≠
    (parseLines P initial none c before).config path

/-- Every line changes at most one parameter, and one of the section that the nearest header above
it names. -/
def WithinSections (P : Parsers) (initial : Bool) (c : Config) (lines : List Text) : Prop :=
  ∀ before line, before ++ [line] <+: lines → ∀ path, LineChanges P initial c before line path →
    (∃ f, namedSection before = some f ∧ path.head? = some f.name) ∧
      ∀ path', LineChanges P initial c before line path' → path' = path

/-- Every header names a section. -/
def KnownHeaders (lines : List Text) : Prop :=
  ∀ tag ∈ lines.filterMap header?, (findSection tag).isSome = true

/-- The current section below lines. -/
def sectionBelow (current : Option (Text × Field)) (before : List Text) : Option (Text × Field) :=
  (before.filterMap header?).foldl enterSection current

/-- Below a header that names no section only values are assigned that are there already. -/
def StraysRedundant (P : Parsers) (initial : Bool) (c : Config) (lines : List Text) : Prop :=
  ∀ before line key value, before ++ [line] <+: lines → readLine line = .param key value →
    namedSection before = none → (parseLines P initial none c before).stop = none →
      let c' := (parseLines P initial none c before).config
      ∀ a ∈ performed P c' (paramSteps initial (sectionBelow none before) key value),
        a.given P c' = c' a.path

theorem known_sectionBelow {current : Option (Text × Field)} (h : Known current)
    (before : List Text) : Known (sectionBelow current before) := by
  unfold sectionBelow
  induction before.filterMap header? generalizing current with
  | nil => exact h
  | cons tag tags ih => exact ih (h.enterSection tag)

theorem sectionBelow_of_namedSection {before : List Text} {f : Field}
    (h : namedSection before = some f) (current : Option (Text × Field)) :
    ∃ tag, sectionBelow current before = some (tag, f) := by
  obtain ⟨tag, htag, hf⟩ := Option.bind_eq_some_iff.1 h
  obtain ⟨tags, htags⟩ := List.getLast?_eq_some_iff.1 htag
  refine ⟨tag, ?_⟩
  rw [sectionBelow, htags, List.foldl_append, List.foldl_cons, List.foldl_nil, enterSection, hf]
  rfl

/-- Reading goes on below lines that have not stopped it, in the section that is current there. -/
theorem parseLines_append (current : Option (Text × Field)) (c : Config)
    (before after : List Text) :
    parseLines P initial current c (before ++ after) =
      (parseLines P initial current c before).andThen fun c =>
        parseLines P initial (sectionBelow current before) c after := by
  induction before generalizing current c with
  | nil => rw [List.nil_append, parseLines, Outcome.done_andThen]; rfl
  | cons line before ih =>
      rw [List.cons_append, parseLines, parseLines, sectionBelow, List.filterMap_cons, header?]
      cases readLine line with
      | nothing => exact ih current c
      | header tag => exact ih (enterSection current tag) c
      | param key value =>
          simp only [Outcome.andThen_assoc, ih]
          rfl
      | malformed => rfl

theorem config_below_param {c : Config} {before : List Text} {line key value : Text}
    (hline : readLine line = .param key value)
    (hstop : (parseLines P initial none c before).stop = none) :
    (parseLines P initial none c (before ++ [line])).config =
      (perform P (parseLines P initial none c before).config
        (paramSteps initial (sectionBelow none before) key value)).config := by
  rw [parseLines_append, Outcome.andThen, hstop]
  simp only [parseLines, hline, Outcome.andThen_done, parseSectionParam_eq_perform]

/-- Only a line with a key and a value that is reached changes the configuration. -/
theorem exists_param_of_ne {c : Config} {before : List Text} {line : Text}
    (hne : (parseLines P initial none c (before ++ [line])).config ≠
      (parseLines P initial none c before).config) :
    ∃ key value, readLine line = .param key value ∧
      (parseLines P initial none c before).stop = none := by
  rw [parseLines_append, Outcome.andThen] at hne
  cases hstop : (parseLines P initial none c before).stop with
  | some stop =>
      rw [hstop] at hne
      exact absurd rfl hne
  | none =>
      simp only [hstop, parseLines] at hne
      cases hline : readLine line with
      | param key value => exact ⟨key, value, rfl, rfl⟩
      | nothing | header tag | malformed =>
          rw [hline] at hne
          exact absurd rfl hne

/-- **One line without a section** changes nothing exactly when it assigns what is there. -/
theorem config_paramSteps_eq_iff {current : Option (Text × Field)} (hcurrent : Known current)
    (key value : Text) (c : Config) :
    (perform P c (paramSteps initial current key value)).config = c ↔
      ∀ a ∈ performed P c (paramSteps initial current key value), a.given P c = c a.path := by
  have hperforms := performs_perform P c (paramSteps initial current key value)
  rw [hperforms.config_eq fun _ => rfl]
  refine KeyedLog.write_eq_self_iff_of_agree _ _ fun a ha a' ha' _ => ?_
  rw [eq_of_mem_paramSteps hcurrent (hperforms.assign_mem a ha) (hperforms.assign_mem a' ha')]

/-- What a line changes it assigns to. -/
theorem exists_assign_of_ne {current : Option (Text × Field)} {key value : Text} {path : Path}
    (hne : (perform P c (paramSteps initial current key value)).config path ≠ c path) :
    ∃ a, .assign a ∈ paramSteps initial current key value ∧ a.path = path := by
  have hperforms := performs_perform P c (paramSteps initial current key value)
  rw [hperforms.config_eq fun _ => rfl] at hne
  by_contra hnone
  refine hne (KeyedLog.write_of_forall_ne _ _ (fun a ha hpath => hnone ?_) c)
  exact ⟨a, hperforms.assign_mem a ha, hpath⟩

/-- **One line of a section** changes nothing outside the section. -/
theorem head_of_config_ne {tag key value : Text} {f : Field} (hf : f ∈ sections) {path : Path}
    (hne : (perform P c (paramSteps initial (some (tag, f)) key value)).config path ≠ c path) :
    path.head? = some f.name := by
  obtain ⟨a, ha, rfl⟩ := exists_assign_of_ne hne
  obtain ⟨v, hv, -, -, hbelow⟩ := exists_below_of_mem_paramSteps hf ha
  obtain ⟨rest, hrest⟩ := hbelow.path
  rw [Assignment.path, ← hrest, hv]
  rfl

/-- **One line changes at most one parameter.** -/
theorem LineChanges.path_eq {before : List Text} {line : Text} {path path' : Path}
    (h : LineChanges P initial c before line path)
    (h' : LineChanges P initial c before line path') : path' = path := by
  obtain ⟨key, value, hline, hstop⟩ := exists_param_of_ne fun heq => h (congrFun heq path)
  rw [LineChanges, config_below_param hline hstop] at h h'
  obtain ⟨a, ha, rfl⟩ := exists_assign_of_ne h
  obtain ⟨a', ha', rfl⟩ := exists_assign_of_ne h'
  rw [eq_of_mem_paramSteps (known_sectionBelow known_none before) ha ha']

/-- Where every header names a section, no section is current above the first one, and a line
without a section assigns nothing. -/
theorem KnownHeaders.straysRedundant {lines : List Text} (h : KnownHeaders lines) :
    StraysRedundant P initial c lines := by
  intro before line key value hprefix hline hnamed hstop
  have hsub := (((List.prefix_append before [line]).trans hprefix).sublist.filterMap header?).subset
  rcases List.eq_nil_or_concat' (before.filterMap header?) with hnone | ⟨tags, tag, htags⟩
  · simp [sectionBelow, hnone, paramSteps, performed]
  · have hfound := h tag (hsub (by simp [htags]))
    have hmissing : findSection tag = none := by simpa [namedSection, htags] using hnamed
    rw [hmissing] at hfound
    cases hfound

/-- **Sections**: every line changes at most one parameter, of the section of the header above it,
exactly when the lines below a header that names no section assign nothing new; so it is if all
headers name sections. -/
theorem withinSections_iff (P : Parsers) (initial : Bool) (c : Config) (lines : List Text) :
    (WithinSections P initial c lines ↔ StraysRedundant P initial c lines) ∧
      (KnownHeaders lines → WithinSections P initial c lines) := by
  have hiff : WithinSections P initial c lines ↔ StraysRedundant P initial c lines := by
    constructor
    · intro h before line key value hprefix hline hnamed hstop
      refine (config_paramSteps_eq_iff (known_sectionBelow known_none before) key value _).1 ?_
      rw [← config_below_param hline hstop]
      by_contra hne
      obtain ⟨path, hpath⟩ := Function.ne_iff.1 hne
      obtain ⟨⟨f, hf, -⟩, -⟩ := h before line hprefix path hpath
      rw [hnamed] at hf
      cases hf
    · intro h before line hprefix path hne
      refine ⟨?_, fun path' hne' => hne.path_eq hne'⟩
      obtain ⟨key, value, hline, hstop⟩ := exists_param_of_ne fun heq => hne (congrFun heq path)
      rw [LineChanges, config_below_param hline hstop] at hne
      cases hnamed : namedSection before with
      | none =>
          have hredundant := h before line key value hprefix hline hnamed hstop
          rw [(config_paramSteps_eq_iff (known_sectionBelow known_none before) key value _).2
            hredundant] at hne
          exact absurd rfl hne
      | some f =>
          obtain ⟨tag, htag⟩ := sectionBelow_of_namedSection hnamed none
          have hf : f ∈ sections := known_sectionBelow known_none before tag f htag
          rw [htag] at hne
          exact ⟨f, rfl, head_of_config_ne hf hne⟩
  exact ⟨hiff, fun h => hiff.2 h.straysRedundant⟩

/-- A line below a header of no section, which changes a parameter of the section before. -/
def strayHeaders : List Text := ["[api]".toList, "[metrics]".toList]

def strayLine : Text := "datalimit = 5".toList

theorem stray_line_changes_api :
    ¬WithinSections decimalParsers true defaultConfig (strayHeaders ++ [strayLine]) := by
  intro h
  have hchanged : (parseLines decimalParsers true none defaultConfig
        (strayHeaders ++ [strayLine])).config ["Api", "DataLimit"] ≠
      (parseLines decimalParsers true none defaultConfig strayHeaders).config
        ["Api", "DataLimit"] := by
    decide +kernel
  obtain ⟨⟨f, hf, -⟩, -⟩ := h strayHeaders strayLine (List.prefix_refl _) _ hchanged
  have hnamed : (namedSection strayHeaders).isNone = true := by decide +kernel
  rw [hf] at hnamed
  exact Bool.false_ne_true hnamed

end Dreamboat.ConfigFile
