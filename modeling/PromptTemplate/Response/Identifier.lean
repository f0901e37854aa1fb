import PromptTemplate.Text.Quoted

/-!
# Response/Identifier — identifiers of variants

An identifier is a number of 128 bits. Its text is the 32 hexadecimal digits in groups of 8, 4, 4,
4 and 12.
-/

namespace PromptTemplate.Response

abbrev Identifier := BitVec 128

namespace Identifier

/-- The `n` last hexadecimal digits of a number. -/
def lastDigits (value : Nat) : (n : Nat) → Text
  | 0 => []
  | n + 1 => lastDigits (value / 16) n ++ [Text.hexChar (value % 16)]

def text (i : Identifier) : Text :=
  let ds := lastDigits i.toNat 32
  ds.take 8 ++ '-' :: (ds.drop 8).take 4 ++ '-' :: (ds.drop 12).take 4
    ++ '-' :: (ds.drop 16).take 4 ++ '-' :: ds.drop 20

/-- A random identifier from 128 random bits: version 4, the variant of the standard. -/
def ofRandom (bits : BitVec 128) : Identifier :=
  let cleared := bits &&& ~~~(0xF000#128 <<< 64) &&& ~~~(0xC#128 <<< 60)
  cleared ||| (0x4000#128 <<< 64) ||| (0x8#128 <<< 60)

end Identifier

end PromptTemplate.Response
