import PromptTemplate.Json.Reader

/-!
# Proofs/Json/Grammar — what a JSON text is, said without the reader

    Document ⊇ blanks · Written maxDepth · blanks
    Written (d + 1) = a scalar, or brackets around texts of Written d

Each rule relates a text to the value it stands for. `Separated` is the one rule for everything
that stands between commas; a list takes it with values, an object with `Member`s. The depth that
`Written` carries bounds how deep brackets nest. Numbers are the one place where the value comes
from the reader: a `Numeral` fixes the shape, and its value is the double rounding of
`readNumber`, which has none where the number is out of range.
-/

namespace PromptTemplate.Json

/-- Spaces, tabs and line ends; the empty text is blank. -/
def Blank (s : Text) : Prop := ∀ c ∈ s, isSpace c = true

/-- Digits only; the empty text has no others. -/
def Digits (s : Text) : Prop := ∀ c ∈ s, Decimal.isDigit c = true

/-- What may stand behind a value: a blank, a comma, a closing bracket, or nothing. -/
def Follows (r : Text) : Prop :=
  ∀ c ∈ r.head?, isSpace c = true ∨ c = ',' ∨ c = ']' ∨ c = '\x7d'

/-! ## Numbers -/

/-- A point with digits, or nothing. -/
inductive Fraction : Text → Prop
  | none : Fraction []
  | some {ds : Text} : Digits ds → ds ≠ [] → Fraction ('.' :: ds)

/-- A power of ten with an optional sign, or nothing. -/
inductive Exponent : Text → Prop
  | none : Exponent []
  | some {e : Char} {sign ds : Text} : e = 'e' ∨ e = 'E' → sign = [] ∨ sign = ['+'] ∨ sign = ['-'] →
      Digits ds → ds ≠ [] → Exponent (e :: (sign ++ ds))

/-- A number without its sign. No other digit follows a zero in front. -/
inductive Numeral : Text → Prop
  | mk {d : Char} {ds f x : Text} : Decimal.isDigit d = true → Digits ds → (d = '0' → ds = []) →
      Fraction f → Exponent x → Numeral (d :: (ds ++ (f ++ x)))

/-! ## Strings -/

/-- What a single character behind a backslash stands for. -/
def shortEscape? : Char → Option Char
  | '"' => some '"'
  | '\\' => some '\\'
  | '/' => some '/'
  | 'b' => some '\x08'
  | 'f' => some '\x0c'
  | 'n' => some '\n'
  | 'r' => some '\r'
  | 't' => some '\t'
  | _ => none

/-- Four hexadecimal digits and their value. -/
inductive HexText : Text → Nat → Prop
  | mk {a b c d : Char} {i j k l : Nat} : hexValue? a = some i → hexValue? b = some j →
      hexValue? c = some k → hexValue? d = some l →
      HexText [a, b, c, d] (((i * 16 + j) * 16 + k) * 16 + l)

/-- What follows a backslash: a short escape, a code unit that is no surrogate, or two that are a
pair of them. -/
inductive Escape : Text → Char → Prop
  | short {c d : Char} : shortEscape? c = some d → Escape [c] d
  | unit {u : Text} {n : Nat} : HexText u n → n < 0xD800 ∨ 0xDFFF < n →
      Escape ('u' :: u) (Char.ofNat n)
  | pair {u w : Text} {n m : Nat} : HexText u n → 0xD800 ≤ n → n ≤ 0xDBFF →
      HexText w m → 0xDC00 ≤ m → m ≤ 0xDFFF →
      Escape ('u' :: (u ++ '\\' :: 'u' :: w))
        (Char.ofNat ((n - 0xD800) * 1024 + (m - 0xDC00) + 0x10000))

/-- What stands between two quotes, and the text it means. -/
inductive StringText : Text → Text → Prop
  | nil : StringText [] []
  | plain {c : Char} {s t : Text} : c ≠ '"' → c ≠ '\\' → 0x20 ≤ c.toNat → StringText s t →
      StringText (c :: s) (c :: t)
  | escape {e s t : Text} {c : Char} : Escape e c → StringText s t →
      StringText ('\\' :: (e ++ s)) (c :: t)

/-! ## Values -/

/-- A value without brackets. -/
inductive Scalar : Text → Json → Prop
  | null : Scalar ['n', 'u', 'l', 'l'] .null
  | true : Scalar ['t', 'r', 'u', 'e'] (.bool Bool.true)
  | false : Scalar ['f', 'a', 'l', 's', 'e'] (.bool Bool.false)
  | number {e : Text} {x : Number} : Numeral e → readNumber Bool.false e = .ok (x, []) →
      Scalar e (.number x)
  | negative {e : Text} {x : Number} : Numeral e → readNumber Bool.true e = .ok (x, []) →
      Scalar ('-' :: e) (.number x)
  | string {k t : Text} : StringText k t → Scalar ('"' :: (k ++ ['"'])) (.string t)

section

variable {α : Type} (P : Text → α → Prop)

/-- One text or more, a comma between any two, each with blanks around it. -/
inductive Separated : Text → List α → Prop
  | one {a e b : Text} {x : α} : Blank a → P e x → Blank b → Separated (a ++ (e ++ b)) [x]
  | cons {a e b s : Text} {x : α} {xs : List α} : Blank a → P e x → Blank b → Separated s xs →
      Separated (a ++ (e ++ (b ++ ',' :: s))) (x :: xs)

/-- What stands between two brackets. -/
inductive Listed : Text → List α → Prop
  | empty {b : Text} : Blank b → Listed b []
  | items {s : Text} {xs : List α} : Separated P s xs → Listed s xs

end

/-- A key, a colon and a value. -/
inductive Member (P : Text → Json → Prop) : Text → Text × Json → Prop
  | mk {k key b c e : Text} {v : Json} : StringText k key → Blank b → Blank c → P e v →
      Member P ('"' :: (k ++ '"' :: (b ++ ':' :: (c ++ e)))) (key, v)

/-- A scalar, or brackets around texts that `P` describes. -/
inductive Bracketed (P : Text → Json → Prop) : Text → Json → Prop
  | scalar {e : Text} {v : Json} : Scalar e v → Bracketed P e v
  | array {s : Text} {vs : List Json} : Listed P s vs → Bracketed P ('[' :: (s ++ [']'])) (.array vs)
  | object {s : Text} {ms : List (Text × Json)} : Listed (Member P) s ms →
      Bracketed P ('\x7b' :: (s ++ ['\x7d'])) (.object (ofWritten ms))

/-- The texts of a value, from its first character to its last, with brackets at most `d` deep. -/
def Written : (d : Nat) → Text → Json → Prop
  | 0 => Scalar
  | d + 1 => Bracketed (Written d)

/-- The texts that hold a value and nothing else but blanks. -/
def Document (s : Text) (v : Json) : Prop :=
  ∃ a e b, Blank a ∧ Written maxDepth e v ∧ Blank b ∧ s = a ++ (e ++ b)

/-- The texts of an object whose members are, as they are written, `ms`. -/
def ObjectText (s : Text) (ms : List (Text × Json)) : Prop :=
  ∃ a t b, Blank a ∧ Listed (Member (Written (maxDepth - 1))) t ms ∧ Blank b ∧
    s = a ++ '\x7b' :: (t ++ '\x7d' :: b)

/-- No two members of the object that a text holds are written with the same key. -/
def DistinctKeys (s : Text) : Prop := ∃ ms, ObjectText s ms ∧ (ms.map Prod.fst).Nodup

end PromptTemplate.Json
