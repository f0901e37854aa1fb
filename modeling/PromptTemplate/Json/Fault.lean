import PromptTemplate.Json.Printer
import PromptTemplate.Text.Place

/-!
# Json/Fault — what can be wrong with a JSON text, and where

A fault found by a character has its place at once: the number of bytes `left` to read there. One
that a value as a whole is to blame for floats: it keeps the rest of the text, and the reader of
the bracket around it settles the place after it has tried to close that bracket (`settle`).
-/

namespace PromptTemplate.Json

/-- What stands where a value of another shape was expected. -/
inductive Found
  | null
  | bool (b : Bool)
  | number (n : Number)
  | string (t : Text)
  | sequence
  | map

inductive Problem
  | unfinishedValue
  | unfinishedList
  | unfinishedObject
  | unfinishedString
  | expectedColon
  | expectedListEnd
  | expectedObjectEnd
  | expectedWord
  | expectedValue
  | badEscape
  | badNumber
  | numberRange
  | controlInString
  | keyNotString
  | loneSurrogate
  | brokenSurrogate
  | trailingComma
  | trailingText
  | tooDeep
  /-- A value of another shape. -/
  | wrongShape (found : Found) (expected : String)
  /-- A list that is too short for a record. -/
  | tooShort (found : Nat) (expected : String)
  | missingMember (name : String)
  | repeatedMember (name : String)
  /-- A value of none of the shapes that a type allows. -/
  | noShape (type : String)

def Found.describe : Found → String
  | null => "null"
  | bool true => "boolean `true`"
  | bool false => "boolean `false`"
  | number (.integer n) => "integer `" ++ String.ofList (Decimal.integerText n) ++ "`"
  | number (.real x) => "floating point `" ++ String.ofList (printReal x) ++ "`"
  | string t => "string " ++ String.ofList (Text.quoted t)
  | sequence => "sequence"
  | map => "map"

/-- The wording of a problem, without its place. -/
def Problem.describe : Problem → String
  | unfinishedValue => "EOF while parsing a value"
  | unfinishedList => "EOF while parsing a list"
  | unfinishedObject => "EOF while parsing an object"
  | unfinishedString => "EOF while parsing a string"
  | expectedColon => "expected `:`"
  | expectedListEnd => "expected `,` or `]`"
  | expectedObjectEnd => "expected `,` or `\x7d`"
  | expectedWord => "expected ident"
  | expectedValue => "expected value"
  | badEscape => "invalid escape"
  | badNumber => "invalid number"
  | numberRange => "number out of range"
  | controlInString => "control character (\\u0000-\\u001F) found while parsing a string"
  | keyNotString => "key must be a string"
  | loneSurrogate => "lone leading surrogate in hex escape"
  | brokenSurrogate => "unexpected end of hex escape"
  | trailingComma => "trailing comma"
  | trailingText => "trailing characters"
  | tooDeep => "recursion limit exceeded"
  | wrongShape found expected => "invalid type: " ++ found.describe ++ ", expected " ++ expected
  | tooShort found expected =>
    "invalid length " ++ String.ofList (Decimal.digits found) ++ ", expected " ++ expected
  | missingMember name => "missing field `" ++ name ++ "`"
  | repeatedMember name => "duplicate field `" ++ name ++ "`"
  | noShape type => "data did not match any variant of untagged enum " ++ type

inductive Fault
  /-- The place is where `left` bytes remain to be read. -/
  | placed (problem : Problem) (left : Nat)
  /-- The place is not settled; `rest` is the text not yet read. -/
  | floating (problem : Problem) (rest : Text)

namespace Fault

/-- The place just after the next byte of the text; its end if there is none. -/
def peek (problem : Problem) (s : Text) : Fault := placed problem (Text.bytes s - 1)

/-- The place before the text. -/
def here (problem : Problem) (s : Text) : Fault := placed problem (Text.bytes s)

/-- Fixes a floating fault where `close` leaves the text. -/
def settle (close : Text → Text) : Fault → Fault
  | floating problem rest => here problem (close rest)
  | f => f

def problem : Fault → Problem
  | placed problem _ => problem
  | floating problem _ => problem

/-- The number of bytes left to read at the place. -/
def left : Fault → Nat
  | placed _ left => left
  | floating _ rest => Text.bytes rest

/-- The wording with the line, from one, and the column, in bytes, of the place in `whole`. -/
def message (f : Fault) (whole : Text) : String :=
  let place := Place.ofOffset whole (Text.bytes whole - f.left)
  f.problem.describe ++ " at line " ++ String.ofList (Decimal.digits place.line)
    ++ " column " ++ String.ofList (Decimal.digits place.column)

end Fault

end PromptTemplate.Json
