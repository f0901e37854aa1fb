import PromptTemplate.Placeholder.Parser
import PromptTemplate.Template.Scan
import PromptTemplate.Values.Basic

/-!
# Template/Registry — the inputs that a template asks for

Every occurrence that is a placeholder is folded into one entry per identifier; every other one
gives a diagnostic. An entry knows in which ways its identifier occurs, its place among the
definitions, the index of its first occurrence, and its merged parameters: **a repeated key keeps
its first place and takes its last value**.

`inputs` lists the entries that need a value in the order of a form: the definitions as they were
declared, then the rest as they first appeared. `resolve` fills in the declared defaults.
-/

namespace PromptTemplate

open Placeholder

/-- What is known about one identifier. -/
structure Entry where
  identifier : Text
  definition : Bool
  comment : Bool
  referenced : Bool
  /-- The place of the first definition among those of all identifiers. -/
  order : Option Nat
  /-- The index of the first occurrence among all occurrences. -/
  firstSeen : Nat
  parameters : List Parameter
deriving DecidableEq, Repr

/-- An occurrence that is no placeholder; offsets of its faults are those of the template. -/
structure Diagnostic where
  start : Nat
  stop : Nat
  issues : List Issue
deriving DecidableEq, Repr

namespace Entry

def new (identifier : Text) (firstSeen : Nat) : Entry :=
  ⟨identifier, false, false, false, none, firstSeen, []⟩

/-- A new key goes to the end; a known one keeps its place and takes the new value. -/
def putParameter : List Parameter → Parameter → List Parameter
  | [], p => [p]
  | q :: qs, p => if q.key = p.key then ⟨q.key, p.value⟩ :: qs else q :: putParameter qs p

/-- The entry after one more placeholder, `order` being the next place for a definition. -/
def add (e : Entry) (n : Node) (order : Nat) : Entry :=
  match n.modifier with
  | .comment => { e with comment := true }
  | .definition =>
    { e with
      definition := true
      order := e.order <|> some order
      parameters := n.parameters.foldl putParameter e.parameters }
  | .reference =>
    { e with
      referenced := true
      parameters := n.parameters.foldl putParameter e.parameters }

def parameter? (e : Entry) (key : Text) : Option Text := Parameter.find? e.parameters key

/-- The text shown for an input. -/
def label (e : Entry) : Text := (e.parameter? "label".toList).getD e.identifier

def inputType? (e : Entry) : Option Text := e.parameter? "type".toList

def default? (e : Entry) : Option Text := e.parameter? "default".toList

def description? (e : Entry) : Option Text := e.parameter? "description".toList

/-- Whether the entry needs a value: it is more than a comment. -/
def isInput (e : Entry) : Bool := e.definition || e.referenced

/-- Definitions come first, as they were declared, then the others as they were first seen. -/
def precedes (a b : Entry) : Bool :=
  match a.order, b.order with
  | some i, some j => i < j || (i == j && a.firstSeen ≤ b.firstSeen)
  | some _, none => true
  | none, some _ => false
  | none, none => a.firstSeen ≤ b.firstSeen

def toJson (e : Entry) : Json :=
  .object <|
    [("identifier".toList, .string e.identifier), ("definition".toList, .bool e.definition),
      ("comment".toList, .bool e.comment)]
    ++ (e.order.map fun i => ("order".toList, .number (.integer i))).toList
    ++ [("parameters".toList, .array (e.parameters.map Parameter.toJson))]

end Entry

/-- The entries of a template, one per identifier, as they were first seen. -/
structure Registry where
  entries : List Entry
deriving DecidableEq, Repr

namespace Registry

def empty : Registry := ⟨[]⟩

def size (r : Registry) : Nat := r.entries.length

def isEmpty (r : Registry) : Bool := r.entries.isEmpty

def find? (r : Registry) (identifier : Text) : Option Entry :=
  r.entries.find? (·.identifier = identifier)

def contains (r : Registry) (identifier : Text) : Bool := (r.find? identifier).isSome

/-- The number of identifiers with a definition, which is the place of the next one. -/
def nextOrder (r : Registry) : Nat := r.entries.countP (·.definition)

/-- The entries after one more placeholder, the occurrence with the given index. -/
def addTo (n : Node) (index order : Nat) : List Entry → List Entry
  | [] => [(Entry.new n.identifier index).add n order]
  | e :: es => if e.identifier = n.identifier then e.add n order :: es else e :: addTo n index order es

def add (r : Registry) (n : Node) (index : Nat) : Registry := ⟨addTo n index r.nextOrder r.entries⟩

/-- The diagnostic of an occurrence that is no placeholder. -/
def diagnose (o : Template.Occurrence) (f : Fault) : Diagnostic :=
  ⟨o.start, o.stop, [f.issue.shift o.start]⟩

/-- Folds the occurrences from `index` on into a registry and collects the diagnostics. -/
def survey (r : Registry) (index : Nat) : List Template.Occurrence → Registry × List Diagnostic
  | [] => (r, [])
  | o :: os =>
    match Placeholder.parse o.text with
    | .ok n => survey (r.add n index) (index + 1) os
    | .error f =>
      let (r', ds) := survey r (index + 1) os
      (r', diagnose o f :: ds)

/-- The registry of a template. -/
def ofTemplate (s : Text) : Registry := (survey empty 0 (Template.scan s)).1

/-- The occurrences of a template that are no placeholders, in order. -/
def diagnostics (s : Text) : List Diagnostic := (survey empty 0 (Template.scan s)).2

/-- The entries that need a value, in the order of a form. -/
def inputs (r : Registry) : List Entry := (r.entries.filter (·.isInput)).mergeSort Entry.precedes

/-- The entries in the order of their identifiers. -/
def byIdentifier (r : Registry) : List Entry :=
  r.entries.mergeSort fun a b => !decide (b.identifier < a.identifier)

/-- The values with the default of an input in place of a missing or blank one. -/
def resolveEntry (supplied resolved : Values) (e : Entry) : Values :=
  match supplied.nonBlank? e.identifier with
  | some _ => resolved
  | none =>
    match e.default? with
    | some d => if Text.isAllBlank d then resolved else resolved.insert e.identifier (.text d)
    | none => resolved

/-- The supplied values, completed by the declared defaults. -/
def resolve (r : Registry) (supplied : Values) : Values :=
  r.inputs.foldl (resolveEntry supplied) supplied

def toJson (r : Registry) : Json :=
  .object (r.byIdentifier.map fun e => (e.identifier, e.toJson))

end Registry

end PromptTemplate
