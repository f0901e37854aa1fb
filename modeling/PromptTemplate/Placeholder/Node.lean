import PromptTemplate.Json.Basic

/-!
# Placeholder/Node — what a placeholder says

A placeholder defines an input, refers to one, or is a comment. `print` writes it in its plainest
form: one comma and blank before each parameter, every value in quotes.
-/

namespace PromptTemplate.Placeholder

inductive Modifier
  /-- Declares an input; written with `@`. -/
  | definition
  /-- A note of the author; written with `#`. -/
  | comment
  /-- A place for a value; written without a sign. -/
  | reference
deriving DecidableEq, Repr

namespace Modifier

/-- The sign after the opening braces. -/
def sigil : Modifier → Option Char
  | definition => some '@'
  | comment => some '#'
  | reference => none

/-- Definitions and comments leave no text in a prompt. -/
def isMetadata : Modifier → Bool
  | reference => false
  | _ => true

def name : Modifier → String
  | definition => "definition"
  | comment => "comment"
  | reference => "reference"

end Modifier

structure Parameter where
  key : Text
  value : Text
deriving DecidableEq, Repr

/-- The value of the first parameter with a key. -/
def Parameter.find? (ps : List Parameter) (key : Text) : Option Text :=
  (ps.find? (·.key = key)).map (·.value)

def Parameter.toJson (p : Parameter) : Json :=
  .object [("key".toList, .string p.key), ("value".toList, .string p.value)]

/-- One placeholder; the identifier of a comment is its text. -/
structure Node where
  modifier : Modifier
  identifier : Text
  parameters : List Parameter
deriving DecidableEq, Repr

namespace Node

def parameter? (n : Node) (key : Text) : Option Text := Parameter.find? n.parameters key

def printParameter (p : Parameter) : Text := ',' :: ' ' :: p.key ++ '=' :: '"' :: p.value ++ ['"']

/-- The plainest text of a placeholder. -/
def print (n : Node) : Text :=
  '\x7b' :: '\x7b' :: n.modifier.sigil.toList ++ n.identifier
    ++ n.parameters.flatMap printParameter ++ ['\x7d', '\x7d']

def toJson (n : Node) : Json :=
  .object [("modifier".toList, .string n.modifier.name.toList),
    ("identifier".toList, .string n.identifier),
    ("parameters".toList, .array (n.parameters.map Parameter.toJson))]

end Node

end PromptTemplate.Placeholder
