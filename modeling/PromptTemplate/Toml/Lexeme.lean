import PromptTemplate.Decimal.Digits
import PromptTemplate.Text.Basic
import PromptTemplate.Values.Basic

/-!
# Toml/Lexeme — gaps, strings, numbers and dates of a TOML text

Each reader takes the text from its first character on and returns what it read with the rest. A
reader that does not apply stops; a **firm** stop says that the text is of this kind but faulty, so
that no other reading is tried.
-/

namespace PromptTemplate.Toml

/-- Where reading stopped: before `rest`. -/
structure Stop where
  rest : Text
  firm : Bool
deriving DecidableEq, Repr

/-- A stop before the text. -/
def Stop.before (s : Text) : Stop := ⟨s, false⟩

/-- A firm stop before the text. -/
def Stop.fault (s : Text) : Stop := ⟨s, true⟩

abbrev Result (α : Type) := Except Stop (α × Text)

/-- The result, a stop being firm. -/
def firmly {α : Type} : Except Stop α → Except Stop α
  | .error e => .error { e with firm := true }
  | r => r

/-! ## Gaps -/

def isSpace (c : Char) : Bool := c == ' ' || c == '\t'

def spaces (s : Text) : Text := s.dropWhile isSpace

def isControl (c : Char) : Bool := c.toNat < 0x20 || c.toNat == 0x7F

/-- The characters that may stand in a comment: all but controls, and tabs. -/
def isCommentChar (c : Char) : Bool := c == '\t' || !isControl c

def newLine? : Text → Option Text
  | '\n' :: r => some r
  | '\r' :: '\n' :: r => some r
  | _ => none

/-- The stop at a place where a line should end: behind the character that does not end it. -/
def Stop.noNewLine (s : Text) : Stop := .before s.tail

/-- Passes over a comment, if one is here. -/
def comment : Text → Text
  | '#' :: r => r.dropWhile isCommentChar
  | s => s

/-- Passes over the rest of a line, which holds no more than a comment. -/
def restOfLine (s : Text) : Except Stop Text :=
  match comment (spaces s) with
  | [] => .ok []
  | r => match newLine? r with
    | some t => .ok t
    | none => .error (.before r)

/-- Passes over blanks, comments and line ends. -/
def gap (s : Text) : Except Stop Text :=
  let r := spaces s
  match r with
  | [] => .ok r
  | c :: _ =>
    if c = '#' ∨ c = '\n' ∨ c = '\r' then
      match newLine? (comment r) with
      | some t => if _h : t.length < s.length then gap t else .ok t
      | none => .error (.noNewLine (comment r))
    else .ok r
termination_by s.length

/-! ## Strings -/

/-- A character that needs no escape in a string between quotes. -/
def isBasicChar (c : Char) : Bool := isCommentChar c && c != '"' && c != '\\'

/-- A character of a string between apostrophes. -/
def isLiteralChar (c : Char) : Bool := isCommentChar c && c != '\''

def hexValue? (c : Char) : Option Nat :=
  if Decimal.isDigit c then some (Decimal.digitValue c)
  else if 'a' ≤ c && c ≤ 'f' then some (c.toNat - 87)
  else if 'A' ≤ c && c ≤ 'F' then some (c.toNat - 55)
  else none

/-- The character that `n` hexadecimal digits stand for. -/
def hexEscape (n : Nat) (s : Text) : Result Char :=
  let ds := (s.take n).takeWhile fun c => (hexValue? c).isSome
  let v := ds.foldl (fun v c => 16 * v + (hexValue? c).getD 0) 0
  if ds.length = n ∧ v.isValidChar then .ok (Char.ofNat v, s.drop n) else .error (.fault s)

/-- What follows a backslash, which is `here`. -/
def escape (here : Text) : Text → Result Char
  | [] => .error (.before here)
  | c :: r =>
    match c with
    | 'b' => .ok ('\x08', r)
    | 'f' => .ok ('\x0c', r)
    | 'n' => .ok ('\n', r)
    | 'r' => .ok ('\r', r)
    | 't' => .ok ('\t', r)
    | '\\' => .ok ('\\', r)
    | '"' => .ok ('"', r)
    | 'u' => hexEscape 4 r
    | 'U' => hexEscape 8 r
    | c => if c.utf8Size = 1 then .error (.fault r) else .error (.fault (c :: r))

/-- The rest of a string between quotes. -/
def basicBody (s : Text) : Result Text :=
  match s with
  | [] => .error (.fault [])
  | c :: r =>
    if c = '"' then .ok ([], r)
    else if c = '\\' then
      match escape (c :: r) r with
      | .error e => .error { e with firm := true }
      | .ok (d, t) =>
        if _h : t.length < (c :: r).length then (basicBody t).map fun (b, u) => (d :: b, u)
        else .error (.fault (c :: r))
    else if isBasicChar c then (basicBody r).map fun (b, u) => (c :: b, u)
    else .error (.fault (c :: r))
termination_by s.length
decreasing_by
  · assumption
  · exact Nat.lt_succ_self r.length

/-- Passes over blanks and line ends. -/
def blankLines (s : Text) : Text :=
  match s with
  | [] => []
  | c :: r =>
    if isSpace c || c = '\n' then blankLines r
    else
      match c, r with
      | '\r', '\n' :: t => blankLines t
      | c, r => c :: r
termination_by s.length

/-- One piece of a string over several lines: a character, an escape, a line end, or an escaped
line end, which stands for nothing and takes the blanks behind it. -/
def basicPiece : Text → Result Text
  | [] => .error (.before [])
  | c :: r =>
    if c = '\\' then
      match newLine? (spaces r) with
      | some t => .ok ([], blankLines t)
      | none => (escape (c :: r) r).map fun (d, t) => ([d], t)
    else if isBasicChar c then .ok ([c], r)
    else match newLine? (c :: r) with
      | some t => .ok (['\n'], t)
      | none => .error (.before (c :: r))

/-- One piece of a string over several lines between apostrophes. -/
def literalPiece : Text → Result Text
  | [] => .error (.before [])
  | c :: r =>
    if isLiteralChar c then .ok ([c], r)
    else match newLine? (c :: r) with
      | some t => .ok (['\n'], t)
      | none => .error (.before (c :: r))

/-- The rest of a string over several lines, its pieces read by `piece`. One or two quotes that a
piece follows belong to the string, and so do up to two before the three that close it. Where no
piece can be read, reading stops behind such quotes if `taken` says that they count before what
follows them is known, and else before them. -/
def longBody (quote : Char) (taken : Bool) (piece : Text → Result Text) (s : Text) : Result Text :=
  let run := (s.takeWhile (· = quote)).length
  if 3 ≤ run then
    let kept := min (run - 3) 2
    .ok (List.replicate kept quote, s.drop (kept + 3))
  else
    let t := s.drop run
    match piece t with
    | .error e =>
      if e.firm then .error e else .error (.fault (if taken && !t.isEmpty then t else s))
    | .ok (p, u) =>
      if _h : u.length < s.length then
        (longBody quote taken piece u).map fun (b, v) => (List.replicate run quote ++ p ++ b, v)
      else .error (.fault s)
termination_by s.length

/-- The text without the line end at its front. -/
def dropNewLine (s : Text) : Text := (newLine? s).getD s

/-- A string on one line. -/
def shortString : Text → Result Text
  | '"' :: r => basicBody r
  | '\'' :: r =>
    match r.dropWhile isLiteralChar with
    | '\'' :: t => .ok (r.takeWhile isLiteralChar, t)
    | t => .error (.fault t)
  | s => .error (.before s)

/-- A string. -/
def string : Text → Result Text
  | '"' :: '"' :: '"' :: r => longBody '"' true basicPiece (dropNewLine r)
  | '\'' :: '\'' :: '\'' :: r => longBody '\'' false literalPiece (dropNewLine r)
  | s => shortString s

/-! ## Numbers -/

/-- The digits that go on a number, of which single underscores are dropped. -/
def moreDigits (isDigit : Char → Bool) : Text → Result Text
  | '_' :: d :: r =>
    if isDigit d then (moreDigits isDigit r).map fun (ds, t) => (d :: ds, t)
    else .error (.fault (d :: r))
  | '_' :: [] => .error (.fault [])
  | d :: r =>
    if isDigit d then (moreDigits isDigit r).map fun (ds, t) => (d :: ds, t) else .ok ([], d :: r)
  | [] => .ok ([], [])

/-- Digits, leading zeros allowed. -/
def someDigits (isDigit : Char → Bool) : Text → Result Text
  | d :: r =>
    if isDigit d then (moreDigits isDigit r).map fun (ds, t) => (d :: ds, t)
    else .error (.before (d :: r))
  | [] => .error (.before [])

def sign : Text → Bool × Text
  | '+' :: r => (false, r)
  | '-' :: r => (true, r)
  | s => (false, s)

/-- The digits of a whole decimal number, after its sign: a zero stands alone. -/
def wholeDigits : Text → Result Text
  | '0' :: r => .ok (['0'], r)
  | s => someDigits Decimal.isDigit s

/-- The digits behind the point. -/
def fraction : Text → Result Text
  | '.' :: r => firmly (someDigits Decimal.isDigit r)
  | s => .error (.before s)

/-- The exponent of ten. -/
def exponent : Text → Result Int
  | c :: r =>
    if c = 'e' ∨ c = 'E' then
      let (negative, t) := sign r
      (firmly (someDigits Decimal.isDigit t)).map fun (ds, u) =>
        (if negative then -(Decimal.value ds : Int) else Decimal.value ds, u)
    else .error (.before (c :: r))
  | [] => .error (.before [])

/-- The exponent of ten, or zero where none is. -/
def exponentOrZero (s : Text) : Result Int :=
  match exponent s with
  | .error e => if e.firm then .error e else .ok (0, s)
  | r => r

/-- A number with a fraction or an exponent; positive infinity is out of range. -/
def realNumber (s : Text) : Except Stop (Binary64 × Text) := do
  let (negative, t) := sign s
  let (whole, t) ← wholeDigits t
  let ((frac, e), rest) ← match exponent t with
    | .ok (e, u) => .ok (([], e), u)
    | .error x =>
      if x.firm then .error x
      else do
        let (frac, u) ← fraction t
        let (e, u) ← exponentOrZero u
        .ok ((frac, e), u)
  match Binary64.ofDecimal negative (Decimal.value (whole ++ frac)) (e - frac.length) with
  | .infinite false => .error (.fault s)
  | x => .ok (x, rest)

/-- An infinity or no number. -/
def specialNumber (s : Text) : Result Binary64 :=
  match sign s with
  | (negative, 'i' :: 'n' :: 'f' :: r) => .ok (.infinite negative, r)
  | (_, 'n' :: 'a' :: 'n' :: r) => .ok (.nan, r)
  | (_, t) => .error (.before t)

/-- An integer of 64 bits whose text begins at `start`. -/
def bounded (start : Text) (n : Int) (rest : Text) : Result Int64 :=
  if Int64.minValue.toInt ≤ n ∧ n ≤ Int64.maxValue.toInt then .ok (Int64.ofInt n, rest) else .error (.fault start)

/-- A whole number in a base, after its two-character mark. -/
def based (start : Text) (base : Nat) (s : Text) : Except Stop (Int64 × Text) := do
  let isDigit (c : Char) := (hexValue? c).any (· < base)
  let (ds, rest) ← firmly (someDigits isDigit s)
  bounded start (ds.foldl (fun v c => base * v + (hexValue? c).getD 0) 0 : Nat) rest

/-- A whole number. -/
def integer (s : Text) : Except Stop (Int64 × Text) :=
  match s with
  | '0' :: 'x' :: r => based s 16 r
  | '0' :: 'o' :: r => based s 8 r
  | '0' :: 'b' :: r => based s 2 r
  | s => do
    let (negative, t) := sign s
    let (ds, rest) ← wholeDigits t
    bounded s (if negative then -(Decimal.value ds : Int) else Decimal.value ds) rest

/-! ## Dates and times -/

/-- A number of exactly two digits within bounds. -/
def twoDigits (low high : Nat) (s : Text) : Result Nat :=
  match s with
  | a :: b :: r =>
    let n := 10 * Decimal.digitValue a + Decimal.digitValue b
    if Decimal.isDigit a && Decimal.isDigit b && low ≤ n && n ≤ high then .ok (n, r)
    else .error (.before s)
  | s => .error (.before s)

def char (c : Char) : Text → Except Stop Text
  | d :: r => if d = c then .ok r else .error (.before (d :: r))
  | [] => .error (.before [])

/-- Hours, minutes and seconds, with a fraction. -/
def time (s : Text) : Except Stop Text := do
  let (_, t) ← twoDigits 0 23 s
  let t ← char ':' t
  firmly do
    let (_, t) ← twoDigits 0 59 t
    let t ← char ':' t
    let (_, t) ← twoDigits 0 60 t
    match t with
    | '.' :: d :: r =>
      if Decimal.isDigit d then .ok (r.dropWhile Decimal.isDigit) else .ok ('.' :: d :: r)
    | t => .ok t

def daysOf (year month : Nat) : Nat :=
  if month = 2 then if year % 4 = 0 ∧ (year % 100 ≠ 0 ∨ year % 400 = 0) then 29 else 28
  else if [4, 6, 9, 11].contains month then 30
  else 31

/-- Year, month and day. -/
def date (s : Text) : Except Stop Text := do
  let year := s.take 4
  if year.length = 4 ∧ year.all Decimal.isDigit then
    let t ← char '-' (s.drop 4)
    firmly do
      let (month, t) ← twoDigits 1 12 t
      let t ← char '-' t
      let (day, r) ← twoDigits 1 31 t
      if daysOf (Decimal.value year) month < day then .error (.before t) else .ok r
  else .error (.before s)

/-- The distance to universal time. -/
def zone : Text → Except Stop Text
  | c :: r =>
    if c = 'Z' ∨ c = 'z' then .ok r
    else if c = '+' ∨ c = '-' then firmly do
      let (_, t) ← twoDigits 0 23 r
      let t ← char ':' t
      let (_, t) ← twoDigits 0 59 t
      .ok t
    else .error (.before (c :: r))
  | [] => .error (.before [])

/-- Tries a reading of what may follow; where it does not apply, nothing is read. -/
def optional (read : Text → Except Stop Text) (s : Text) : Except Stop Text :=
  match read s with
  | .error e => if e.firm then .error e else .ok s
  | r => r

/-- The time of day behind a date. -/
def timeOfDay : Text → Except Stop Text
  | c :: r =>
    if c = 'T' ∨ c = 't' ∨ c = ' ' then time r >>= optional zone else .error (.before (c :: r))
  | [] => .error (.before [])

/-- A date, a time, or both. -/
def dateTime (s : Text) : Except Stop Text :=
  match date s with
  | .ok r => optional timeOfDay r
  | .error e => if e.firm then .error e else time s

end PromptTemplate.Toml
