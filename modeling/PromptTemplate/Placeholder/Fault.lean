import PromptTemplate.Decimal.Digits
import PromptTemplate.Placeholder.Token

/-!
# Placeholder/Fault — what can be wrong with a placeholder

A fault has a cause, the bytes it concerns, and the fixed tokens that could have come there; an
identifier or a value that could have come is not listed. An `Issue` is a fault in words, as it is
shown to the author of a template.
-/

namespace PromptTemplate

/-- A complaint about some bytes of a text, with what was expected there. -/
structure Issue where
  start : Nat
  stop : Nat
  message : Text
  expected : List Text
deriving DecidableEq, Repr

namespace Issue

/-- The same complaint about bytes further on. -/
def shift (i : Issue) (offset : Nat) : Issue :=
  { i with start := i.start + offset, stop := i.stop + offset }

/-- The complaint on one line. -/
def describe (i : Issue) : Text :=
  "Parse error at ".toList ++ Decimal.digits i.start ++ '.' :: '.' :: Decimal.digits i.stop
    ++ ':' :: ' ' :: i.message

end Issue

namespace Placeholder

inductive Cause
  /-- A token that cannot come here, or the end of the text. -/
  | unexpected (found : Option Token)
  | emptyComment
  /-- A value without quotes that has blanks around a comma. -/
  | looseValue
deriving DecidableEq, Repr

/-- The tokens that are listed as expected. -/
inductive Expected
  | opening
  | closing
  | atSign
  | comma
  | equals
  | ending
deriving DecidableEq, Repr

structure Fault where
  start : Nat
  stop : Nat
  cause : Cause
  expected : List Expected
deriving DecidableEq, Repr

def Token.describe : Token → Text
  | opening => "'\x7b\x7b'".toList
  | closing => "'\x7d\x7d'".toList
  | atSign => "'@'".toList
  | comma => "','".toList
  | equals => "'='".toList
  | comment _ => "comment".toList
  | ident t => "identifier '".toList ++ t ++ ['\'']
  | word t => "value '".toList ++ t ++ ['\'']
  | quoted t => "string \"".toList ++ t ++ ['"']
  | invalid => "invalid character".toList

def Expected.describe : Expected → Text
  | opening => Token.opening.describe
  | closing => Token.closing.describe
  | atSign => Token.atSign.describe
  | comma => Token.comma.describe
  | equals => Token.equals.describe
  | ending => "end of input".toList

def Cause.describe : Cause → Text
  | unexpected (some t) => "Unexpected ".toList ++ t.describe
  | unexpected none => "Unexpected end of input".toList
  | emptyComment => "comment text cannot be empty".toList
  | looseValue =>
    "unquoted values cannot contain whitespace; wrap the value in double quotes".toList

/-- The fault in words. -/
def Fault.issue (f : Fault) : Issue :=
  ⟨f.start, f.stop, f.cause.describe, f.expected.map Expected.describe⟩

end Placeholder

end PromptTemplate
