import PromptTemplate.Decimal.Shortest
import PromptTemplate.Json.Basic
import PromptTemplate.Text.Quoted

/-!
# Json/Printer — JSON texts of values

`print` writes a value without any blank. `pretty` writes every item and member of a value that
has some on a line of its own, indented by two spaces a level. Strings escape quotes, backslashes
and controls and nothing else.
-/

namespace PromptTemplate.Json

/-- A character as it stands in a string. -/
def escaped (c : Char) : Text :=
  match c with
  | '"' => ['\\', '"']
  | '\\' => ['\\', '\\']
  | '\x08' => ['\\', 'b']
  | '\t' => ['\\', 't']
  | '\n' => ['\\', 'n']
  | '\x0c' => ['\\', 'f']
  | '\r' => ['\\', 'r']
  | c =>
    if c.toNat < 0x20 then
      ['\\', 'u', '0', '0', Text.hexChar (c.toNat / 16), Text.hexChar (c.toNat % 16)]
    else [c]

def printString (t : Text) : Text := '"' :: t.flatMap escaped ++ ['"']

/-- Doubles are written with the fewest digits; from `1e-5` up to `1e16` without an exponent, and
then always with a fraction. -/
def realLayout : Decimal.Layout where
  tie := .toEven
  positional e := -5 ≤ e && e < 16
  wholeMark := true

/-- What is no finite number is written as `null`. -/
def printReal : Binary64 → Text
  | .finite negative m e => realLayout.finiteText negative m e
  | _ => "null".toList

def printNumber : Number → Text
  | .integer n => Decimal.integerText n
  | .real x => printReal x

mutual

/-- The text of a value, without blanks. -/
def print : Json → Text
  | .null => "null".toList
  | .bool true => "true".toList
  | .bool false => "false".toList
  | .number n => printNumber n
  | .string t => printString t
  | .array [] => ['[', ']']
  | .array (v :: vs) => '[' :: print v ++ printItems vs ++ [']']
  | .object [] => ['\x7b', '\x7d']
  | .object ((k, v) :: ms) =>
    '\x7b' :: printString k ++ ':' :: print v ++ printMembers ms ++ ['\x7d']

/-- The items after the first, each behind its comma. -/
def printItems : List Json → Text
  | [] => []
  | v :: vs => ',' :: print v ++ printItems vs

/-- The members after the first, each behind its comma. -/
def printMembers : List (Text × Json) → Text
  | [] => []
  | (k, v) :: ms => ',' :: printString k ++ ':' :: print v ++ printMembers ms

end

/-- A new line, indented. -/
def newLine (level : Nat) : Text := '\n' :: List.replicate (2 * level) ' '

mutual

/-- The text of a value inside brackets of the given level. -/
def prettyAt (level : Nat) : Json → Text
  | .array [] => ['[', ']']
  | .array (v :: vs) =>
    '[' :: newLine (level + 1) ++ prettyAt (level + 1) v ++ prettyItems level vs
      ++ newLine level ++ [']']
  | .object [] => ['\x7b', '\x7d']
  | .object ((k, v) :: ms) =>
    '\x7b' :: newLine (level + 1) ++ printString k ++ ':' :: ' ' :: prettyAt (level + 1) v
      ++ prettyMembers level ms ++ newLine level ++ ['\x7d']
  | v => print v

def prettyItems (level : Nat) : List Json → Text
  | [] => []
  | v :: vs => ',' :: newLine (level + 1) ++ prettyAt (level + 1) v ++ prettyItems level vs

def prettyMembers (level : Nat) : List (Text × Json) → Text
  | [] => []
  | (k, v) :: ms =>
    ',' :: newLine (level + 1) ++ printString k ++ ':' :: ' ' :: prettyAt (level + 1) v
      ++ prettyMembers level ms

end

/-- The text of a value over several lines. -/
def pretty (v : Json) : Text := prettyAt 0 v

end PromptTemplate.Json
