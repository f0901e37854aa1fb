import PromptTemplate.Text.Basic
import PromptTemplate.Text.Classes

/-!
# Text/Quoted — a text in quotes, for messages

Everything that a reader could not see or tell apart is escaped: quotes and backslashes, and
characters that are not printable.
-/

namespace PromptTemplate.Text

def hexChar (d : Nat) : Char := if d < 10 then Char.ofNat (48 + d) else Char.ofNat (87 + d)

/-- The hexadecimal digits of a number, in lower case. -/
def hexDigits (n : Nat) : Text :=
  if n < 16 then [hexChar n] else hexDigits (n / 16) ++ [hexChar (n % 16)]
termination_by n
decreasing_by omega

/-- A character as it stands in a quoted text. -/
def quotedChar (c : Char) : Text :=
  match c with
  | '\x00' => ['\\', '0']
  | '\t' => ['\\', 't']
  | '\r' => ['\\', 'r']
  | '\n' => ['\\', 'n']
  | '\\' => ['\\', '\\']
  | '"' => ['\\', '"']
  | c =>
    if inRanges unprintable c then
      ['\\', 'u', '\x7b'] ++ hexDigits c.toNat ++ ['\x7d']
    else [c]

/-- The text in quotes, on one line of visible characters. -/
def quoted (t : Text) : Text := '"' :: t.flatMap quotedChar ++ ['"']

end PromptTemplate.Text
