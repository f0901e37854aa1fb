import PromptTemplate.Text.Basic
import PromptTemplate.Text.Classes

/-!
# Text/Width — columns that a character takes on a screen

A control takes one column, a mark or another character that is ignored by default takes none, an
ideograph two, the sign ៘ three and every other character one.
-/

namespace PromptTemplate.Text

def isControl (c : Char) : Bool := c.toNat < 0x20 || (0x7F ≤ c.toNat && c.toNat < 0xA0)

/-- The number of columns of a character. -/
def width (c : Char) : Nat :=
  if c.toNat < 0x7F || isControl c then 1
  else if inRanges zeroWidth c then 0
  else if inRanges wide c then 2
  else if c = '\u17D8' then 3
  else 1

end PromptTemplate.Text
