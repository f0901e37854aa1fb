import PromptTemplate.Text.Basic

/-!
# Placeholder/Token — the tokens of a placeholder

Tokens are cut off the front of the text one by one, each as long as possible, and the gaps between
them (spaces, tabs, line ends) are dropped. A run of word characters is an identifier if letters,
digits and underscores are all it has. A character that begins no token is an invalid token of its
own, and so is a string without its closing quote. **The slice of a token and what follows it make
up the text again** (`first_append`).
-/

namespace PromptTemplate.Placeholder

inductive Token
  | opening
  | closing
  | atSign
  | comma
  | equals
  /-- The text behind `#`, trimmed. -/
  | comment (t : Text)
  | ident (t : Text)
  /-- A run of word characters that is no identifier. -/
  | word (t : Text)
  /-- The text between two quotes. -/
  | quoted (t : Text)
  | invalid
deriving DecidableEq, Repr

/-- A token and the bytes of the text that it takes. -/
structure Lexeme where
  token : Token
  start : Nat
  stop : Nat
deriving DecidableEq, Repr

namespace Token

def isGap (c : Char) : Bool := c == ' ' || c == '\t' || c == '\n' || c == '\r'

def isBrace (c : Char) : Bool := c == '\x7b' || c == '\x7d'

/-- Letters and digits of ASCII, and the underscore. -/
def isIdentChar (c : Char) : Bool :=
  ('a' ≤ c && c ≤ 'z') || ('A' ≤ c && c ≤ 'Z') || ('0' ≤ c && c ≤ '9') || c == '_'

/-- The characters of an unquoted value: those of identifiers and some punctuation. -/
def isWordChar (c : Char) : Bool :=
  isIdentChar c || c == '?' || c == ':' || c == '.' || c == '\''

/-- The characters that a string may hold. -/
def isStringChar (c : Char) : Bool := c != '"' && !isBrace c

theorem isWordChar_of_isIdentChar {c : Char} (h : isIdentChar c = true) : isWordChar c = true := by
  simp [isWordChar, h]

theorem isGap_iff {c : Char} : isGap c = true ↔ c = ' ' ∨ c = '\t' ∨ c = '\n' ∨ c = '\r' := by
  simp [isGap, or_assoc]

theorem isWordChar_of_isGap {c : Char} (h : isGap c = true) : isWordChar c = false := by
  obtain rfl | rfl | rfl | rfl := isGap_iff.mp h <;> rfl

theorem isGap_of_isWordChar {c : Char} (h : isWordChar c = true) : isGap c = false := by
  cases hc : isGap c with
  | false => rfl
  | true => rw [isWordChar_of_isGap hc] at h; exact absurd h (by decide)

theorem isBrace_of_isGap {c : Char} (h : isGap c = true) : isBrace c = false := by
  obtain rfl | rfl | rfl | rfl := isGap_iff.mp h <;> rfl

theorem isBlank_of_isGap {c : Char} (h : isGap c = true) : Text.isBlank c = true := by
  obtain rfl | rfl | rfl | rfl := isGap_iff.mp h <;> rfl

theorem utf8Size_of_isGap {c : Char} (h : isGap c = true) : c.utf8Size = 1 := by
  obtain rfl | rfl | rfl | rfl := isGap_iff.mp h <;> rfl

/-- The first token of the text `c :: r`, its slice, and what follows. -/
def first (c : Char) (r : Text) : Token × Text × Text :=
  if isWordChar c then
    let run := c :: r.takeWhile isWordChar
    (if run.all isIdentChar then .ident run else .word run, run, r.dropWhile isWordChar)
  else if c = '#' then
    let body := r.takeWhile (!isBrace ·)
    (.comment (Text.trim body), c :: body, r.dropWhile (!isBrace ·))
  else if c = '"' then
    let body := r.takeWhile isStringChar
    match r.dropWhile isStringChar with
    | '"' :: r' => (.quoted body, c :: body ++ ['"'], r')
    | r' => (.invalid, c :: body, r')
  else if c = '@' then (.atSign, [c], r)
  else if c = ',' then (.comma, [c], r)
  else if c = '=' then (.equals, [c], r)
  else
    match c, r with
    | '\x7b', '\x7b' :: r' => (.opening, ['\x7b', '\x7b'], r')
    | '\x7d', '\x7d' :: r' => (.closing, ['\x7d', '\x7d'], r')
    | c, r => (.invalid, [c], r)

/-- **The slice of a token and what follows it make up the text.** -/
theorem first_append (c : Char) (r : Text) : (first c r).2.1 ++ (first c r).2.2 = c :: r := by
  have hString := List.takeWhile_append_dropWhile (p := isStringChar) (l := r)
  simp only [first]
  repeat' split
  all_goals simp_all

/-- A token takes at least its first character. -/
theorem first_slice_ne_nil (c : Char) (r : Text) : (first c r).2.1 ≠ [] := by
  simp only [first]
  repeat' split
  all_goals simp

theorem first_rest_le (c : Char) (r : Text) : (first c r).2.2.length ≤ r.length := by
  have h := congrArg List.length (first_append c r)
  have h' := List.length_pos_iff.mpr (first_slice_ne_nil c r)
  simp only [List.length_append, List.length_cons] at h
  omega

end Token

/-- The tokens of a text whose first byte is at offset `start`. -/
def lexFrom (start : Nat) (s : Text) : List Lexeme :=
  match s with
  | [] => []
  | c :: r =>
    if Token.isGap c then lexFrom (start + 1) r
    else
      let stop := start + Text.bytes (Token.first c r).2.1
      ⟨(Token.first c r).1, start, stop⟩ :: lexFrom stop (Token.first c r).2.2
termination_by s.length
decreasing_by
  · simp
  · have := Token.first_rest_le c r
    simp only [List.length_cons]
    omega

/-- The tokens of a text, with their offsets in bytes. -/
def lex (s : Text) : List Lexeme := lexFrom 0 s

end PromptTemplate.Placeholder
