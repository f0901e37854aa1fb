import PromptTemplate.Json.Fault

/-!
# Json/Lexeme — blanks, words, numbers and strings of a JSON text

Each reader takes the text from its first character on, and returns what it read with the rest,
which is **never longer than what it was given** (the `_le` lemmas); a fault says where it stopped.
-/

namespace PromptTemplate.Json

/-- The four characters that may stand between lexemes. -/
def isSpace (c : Char) : Bool := c == ' ' || c == '\n' || c == '\t' || c == '\r'

def blanks (s : Text) : Text := s.dropWhile isSpace

theorem blanks_le (s : Text) : (blanks s).length ≤ s.length :=
  (List.dropWhile_sublist isSpace).length_le

/-- Reads the rest of a word such as `null`; a wrong character is the place of the fault. -/
def word : Text → Text → Except Fault Text
  | [], s => .ok s
  | _ :: _, [] => .error (.placed .unfinishedValue 0)
  | e :: w, c :: s => if c = e then word w s else .error (.peek .expectedWord (c :: s))

theorem word_le {w s r : Text} (h : word w s = .ok r) : r.length ≤ s.length := by
  induction w generalizing s with
  | nil => simp [word] at h; simp [h]
  | cons e w ih =>
    cases s with
    | nil => simp [word] at h
    | cons c s =>
      simp only [word] at h
      split at h
      · exact Nat.le_succ_of_le (ih h)
      · simp at h

/-! ## Numbers

A number keeps at most as many leading digits as fit in 64 bits and counts the others as powers of
ten. The kept digits are rounded to a double first, and that double is then multiplied or divided
by the double next to the power of ten: two roundings, or more below the smallest doubles. -/

def maxWhole : Nat := UInt64.size - 1

/-- Continues a whole number by digits while it fits; the digits that do not fit are counted. -/
def absorb (n : Nat) : Text → Nat × Nat
  | [] => (n, 0)
  | d :: ds =>
    let n' := 10 * n + Decimal.digitValue d
    if n' ≤ maxWhole then absorb n' ds else (n, ds.length + 1)

/-- The double next to `10 ^ k`. -/
def powerOfTen (k : Nat) : Binary64 := Binary64.ofNat (Nat.pow 10 k)

/-- The product of a magnitude with `10 ^ k`, rounded. -/
def timesPower (m : Nat) (e : Int) (k : Nat) : Binary64 :=
  match powerOfTen k with
  | .finite _ m' e' =>
    let (a, b) := Binary64.ratio m e
    let (c, d) := Binary64.ratio m' e'
    .ofRatio false (a * c) (b * d)
  | x => x

/-- The quotient of a magnitude by `10 ^ k`, rounded. -/
def overPower (m : Nat) (e : Int) (k : Nat) : Binary64 :=
  match powerOfTen k with
  | .finite _ m' e' =>
    let (a, b) := Binary64.ratio m e
    let (c, d) := Binary64.ratio m' e'
    .ofRatio false (a * d) (b * c)
  | x => x

/-- The magnitude divided by `10 ^ 308` a number of times and by `10 ^ last` at the end, rounded
each time. -/
def shrink (m : Nat) (e : Int) (last : Nat) : (steps : Nat) → Binary64
  | 0 => overPower m e last
  | steps + 1 =>
    if m = 0 then .zero false
    else
      match overPower m e 308 with
      | .finite _ m' e' => shrink m' e' last steps
      | x => x

/-- The magnitude of `n * 10 ^ exponent`; none where it is out of range. -/
def magnitude? (n : Nat) (exponent : Int) : Option (Nat × Int) :=
  match Binary64.ofNat n with
  | .finite _ m e =>
    if exponent < 0 then
      let steps := (exponent.natAbs - 1) / 308
      match shrink m e (exponent.natAbs - 308 * steps) steps with
      | .finite _ m' e' => some (m', e')
      | _ => none
    else if m = 0 then some (m, e)
    else if 308 < exponent then none
    else match timesPower m e exponent.toNat with
      | .finite _ m' e' => some (m', e')
      | _ => none
  | _ => none

/-- The number `± n * 10 ^ exponent`; it is out of range where `rest` begins. -/
def realNumber (negative : Bool) (n : Nat) (exponent : Int) (rest : Text) :
    Except Fault (Number × Text) :=
  match magnitude? n exponent with
  | some (m, e) => .ok (.real (.finite negative m e), rest)
  | none => .error (.here .numberRange rest)

/-- The digits of an exponent, up to 31 bits; otherwise what follows the digit that is too much. -/
def exponentValue (n : Nat) : Text → Nat × Text ⊕ Text
  | [] => .inl (n, [])
  | c :: s =>
    if Decimal.isDigit c then
      let n' := 10 * n + Decimal.digitValue c
      if n' ≤ Int32.maxValue.toInt.toNat then exponentValue n' s else .inr s
    else .inl (n, c :: s)

/-- Whether an exponent is negative, and what follows its sign. -/
def exponentSign : Text → Bool × Text
  | '+' :: s => (false, s)
  | '-' :: s => (true, s)
  | s => (false, s)

/-- The number with the digits of its exponent. -/
def exponentDigits (negative : Bool) (n : Nat) (exponent : Int) (down : Bool) :
    Text → Except Fault (Number × Text)
  | [] => .error (.placed .unfinishedValue 0)
  | c :: r =>
    if Decimal.isDigit c then
      match exponentValue (Decimal.digitValue c) r with
      | .inl (k, rest) => realNumber negative n (if down then exponent - k else exponent + k) rest
      | .inr rest =>
        if n ≠ 0 && !down then .error (.here .numberRange rest)
        else .ok (.real (.zero negative), rest.dropWhile Decimal.isDigit)
    else .error (.peek .badNumber (c :: r))

/-- The number with what follows its `e`. -/
def exponentPart (negative : Bool) (n : Nat) (exponent : Int) (s : Text) :
    Except Fault (Number × Text) :=
  exponentDigits negative n exponent (exponentSign s).1 (exponentSign s).2

/-- The number with what follows its point. -/
def fractionPart (negative : Bool) (n : Nat) (exponent : Int) (s : Text) :
    Except Fault (Number × Text) :=
  let ds := s.takeWhile Decimal.isDigit
  let rest := s.dropWhile Decimal.isDigit
  if ds.isEmpty then
    match rest with
    | [] => .error (.placed .unfinishedValue 0)
    | c :: r => .error (.peek .badNumber (c :: r))
  else
    let (n, dropped) := absorb n ds
    let exponent := exponent - (ds.length - dropped : Nat)
    match rest with
    | 'e' :: r => exponentPart negative n exponent r
    | 'E' :: r => exponentPart negative n exponent r
    | rest => realNumber negative n exponent rest

/-- A whole number, as an integer where one of 64 bits has that value. Minus zero is none. -/
def wholeNumber (negative : Bool) (n : Nat) (rest : Text) : Except Fault (Number × Text) :=
  if negative then
    if 0 < n ∧ Int64.minValue.toInt ≤ -n then .ok (.integer (-n), rest) else realNumber true n 0 rest
  else .ok (.integer n, rest)

/-- A number after its sign. -/
def readNumber (negative : Bool) : Text → Except Fault (Number × Text)
  | [] => .error (.placed .unfinishedValue 0)
  | c :: s =>
    if Decimal.isDigit c then
      let ds := s.takeWhile Decimal.isDigit
      if c = '0' && !ds.isEmpty then .error (.peek .badNumber s)
      else
        let (n, dropped) := absorb (Decimal.digitValue c) ds
        match s.dropWhile Decimal.isDigit with
        | '.' :: r => fractionPart negative n dropped r
        | 'e' :: r => exponentPart negative n dropped r
        | 'E' :: r => exponentPart negative n dropped r
        | rest => if dropped = 0 then wholeNumber negative n rest
          else realNumber negative n dropped rest
    else .error (.peek .badNumber (c :: s))

theorem realNumber_rest {neg : Bool} {n : Nat} {e : Int} {s : Text} {x : Number} {r : Text}
    (h : realNumber neg n e s = .ok (x, r)) : r = s := by
  simp only [realNumber] at h
  split at h <;> simp_all

theorem exponentValue_le {n k : Nat} {s r : Text} (h : exponentValue n s = .inl (k, r)) :
    r.length ≤ s.length := by
  induction s generalizing n with
  | nil => simp [exponentValue] at h; simp [h]
  | cons c s ih =>
    simp only [exponentValue] at h
    split at h
    · split at h
      · exact Nat.le_succ_of_le (ih h)
      · simp at h
    · simp at h; simp [← h.2]

theorem exponentValue_over_le {n : Nat} {s r : Text} (h : exponentValue n s = .inr r) :
    r.length ≤ s.length := by
  induction s generalizing n with
  | nil => simp [exponentValue] at h
  | cons c s ih =>
    simp only [exponentValue] at h
    split at h
    · split at h
      · exact Nat.le_succ_of_le (ih h)
      · simp at h; simp [h]
    · simp at h

theorem exponentSign_le (s : Text) : (exponentSign s).2.length ≤ s.length := by
  fun_cases exponentSign s <;> simp

theorem exponentDigits_le {neg down : Bool} {n : Nat} {e : Int} {s : Text} {x : Number} {r : Text}
    (h : exponentDigits neg n e down s = .ok (x, r)) : r.length ≤ s.length := by
  cases s with
  | nil => simp [exponentDigits] at h
  | cons c s =>
    simp only [exponentDigits] at h
    split at h
    · split at h
      · rename_i hv
        have := exponentValue_le hv
        rw [realNumber_rest h]
        exact Nat.le_succ_of_le this
      · rename_i rest hv
        have := exponentValue_over_le hv
        split at h
        · simp at h
        · simp only [Except.ok.injEq, Prod.mk.injEq] at h
          rw [← h.2]
          exact Nat.le_succ_of_le (Nat.le_trans (List.dropWhile_sublist _).length_le this)
    · simp at h

theorem exponentPart_le {neg : Bool} {n : Nat} {e : Int} {s : Text} {x : Number} {r : Text}
    (h : exponentPart neg n e s = .ok (x, r)) : r.length ≤ s.length :=
  Nat.le_trans (exponentDigits_le h) (exponentSign_le s)

theorem fractionPart_le {neg : Bool} {n : Nat} {e : Int} {s : Text} {x : Number} {r : Text}
    (h : fractionPart neg n e s = .ok (x, r)) : r.length ≤ s.length := by
  have hd := (List.dropWhile_sublist Decimal.isDigit (l := s)).length_le
  simp only [fractionPart] at h
  split at h
  · split at h <;> simp at h
  · split at h
    · rename_i hr
      have := exponentPart_le h
      rw [hr] at hd
      simp only [List.length_cons] at hd
      omega
    · rename_i hr
      have := exponentPart_le h
      rw [hr] at hd
      simp only [List.length_cons] at hd
      omega
    · rw [realNumber_rest h]
      exact hd

/-- A number takes at least one character. -/
theorem readNumber_lt {neg : Bool} {s : Text} {x : Number} {r : Text}
    (h : readNumber neg s = .ok (x, r)) : r.length < s.length := by
  cases s with
  | nil => simp [readNumber] at h
  | cons c s =>
    have hd := (List.dropWhile_sublist Decimal.isDigit (l := s)).length_le
    simp only [readNumber] at h
    split at h
    · split at h
      · simp at h
      · split at h
        · rename_i hr
          have := fractionPart_le h
          rw [hr] at hd
          simp only [List.length_cons] at hd ⊢
          omega
        · rename_i hr
          have := exponentPart_le h
          rw [hr] at hd
          simp only [List.length_cons] at hd ⊢
          omega
        · rename_i hr
          have := exponentPart_le h
          rw [hr] at hd
          simp only [List.length_cons] at hd ⊢
          omega
        · split at h
          · simp only [wholeNumber] at h
            split at h
            · split at h
              · simp at h; rw [← h.2]; simp only [List.length_cons]; omega
              · rw [realNumber_rest h]; simp only [List.length_cons]; omega
            · simp at h; rw [← h.2]; simp only [List.length_cons]; omega
          · rw [realNumber_rest h]; simp only [List.length_cons]; omega
    · simp at h

/-! ## Strings -/

def hexValue? (c : Char) : Option Nat :=
  if Decimal.isDigit c then some (Decimal.digitValue c)
  else if 'a' ≤ c && c ≤ 'f' then some (c.toNat - 87)
  else if 'A' ≤ c && c ≤ 'F' then some (c.toNat - 55)
  else none

/-- Four hexadecimal digits. Four bytes are taken also where they are no digits. -/
def hexUnit (s : Text) : Except Fault (Nat × Text) :=
  match s with
  | a :: b :: c :: d :: r =>
    match hexValue? a, hexValue? b, hexValue? c, hexValue? d with
    | some a, some b, some c, some d => .ok (((a * 16 + b) * 16 + c) * 16 + d, r)
    | _, _, _, _ => .error (.placed .badEscape (Text.bytes s - 4))
  | s =>
    if Text.bytes s < 4 then .error (.placed .unfinishedString 0)
    else .error (.placed .badEscape (Text.bytes s - 4))

/-- What follows the first of two surrogates: another escape with the second of them. -/
def lowSurrogate : Text → Except Fault (Nat × Text)
  | [] => .error (.placed .unfinishedString 0)
  | '\\' :: [] => .error (.placed .unfinishedString 0)
  | '\\' :: 'u' :: r =>
    match hexUnit r with
    | .error f => .error f
    | .ok (n, r') =>
      if 0xDC00 ≤ n ∧ n ≤ 0xDFFF then .ok (n, r') else .error (.here .loneSurrogate r')
  | '\\' :: c :: r => .error (.peek .brokenSurrogate (c :: r))
  | c :: r => .error (.peek .brokenSurrogate (c :: r))

/-- What follows a backslash and a `u`. -/
def unicodeEscape (s : Text) : Except Fault (Char × Text) :=
  match hexUnit s with
  | .error f => .error f
  | .ok (n, r) =>
    if 0xDC00 ≤ n ∧ n ≤ 0xDFFF then .error (.here .loneSurrogate r)
    else if 0xD800 ≤ n ∧ n ≤ 0xDBFF then
      match lowSurrogate r with
      | .error f => .error f
      | .ok (n', r') => .ok (Char.ofNat ((n - 0xD800) * 1024 + (n' - 0xDC00) + 0x10000), r')
    else .ok (Char.ofNat n, r)

/-- What follows a backslash. -/
def escape : Text → Except Fault (Char × Text)
  | [] => .error (.placed .unfinishedString 0)
  | c :: r =>
    match c with
    | '"' => .ok ('"', r)
    | '\\' => .ok ('\\', r)
    | '/' => .ok ('/', r)
    | 'b' => .ok ('\x08', r)
    | 'f' => .ok ('\x0c', r)
    | 'n' => .ok ('\n', r)
    | 'r' => .ok ('\r', r)
    | 't' => .ok ('\t', r)
    | 'u' => unicodeEscape r
    | c => .error (.peek .badEscape (c :: r))

theorem hexUnit_lt {s r : Text} {n : Nat} (h : hexUnit s = .ok (n, r)) : r.length < s.length := by
  simp only [hexUnit] at h
  split at h
  · split at h
    · simp only [Except.ok.injEq, Prod.mk.injEq] at h
      simp [← h.2]
      omega
    · simp at h
  · split at h <;> simp at h

theorem lowSurrogate_lt {s r : Text} {n : Nat} (h : lowSurrogate s = .ok (n, r)) :
    r.length < s.length := by
  fun_cases lowSurrogate s with
  | case1 => simp [lowSurrogate] at h
  | case2 => simp [lowSurrogate] at h
  | case3 r' f hf => simp [lowSurrogate, hf] at h
  | case4 r' n' r'' hu hn =>
    simp only [lowSurrogate, hu, hn, and_self, if_true, Except.ok.injEq, Prod.mk.injEq] at h
    have := hexUnit_lt hu
    rw [← h.2]
    simp only [List.length_cons]
    omega
  | case5 r' n' r'' hu hn => simp [lowSurrogate, hu, hn] at h
  | case6 c r' hc => simp [lowSurrogate] at h
  | case7 c r' hc => simp [lowSurrogate] at h

theorem unicodeEscape_lt {s r : Text} {c : Char} (h : unicodeEscape s = .ok (c, r)) :
    r.length < s.length := by
  simp only [unicodeEscape] at h
  split at h
  · simp at h
  · rename_i hu
    have := hexUnit_lt hu
    split at h
    · simp at h
    · split at h
      · split at h
        · simp at h
        · rename_i hl
          have := lowSurrogate_lt hl
          simp only [Except.ok.injEq, Prod.mk.injEq] at h
          rw [← h.2]
          omega
      · simp only [Except.ok.injEq, Prod.mk.injEq] at h
        rw [← h.2]
        omega

theorem escape_lt {s r : Text} {c : Char} (h : escape s = .ok (c, r)) : r.length < s.length := by
  cases s with
  | nil => simp [escape] at h
  | cons a s =>
    simp only [escape] at h
    split at h
    case h_9 => exact Nat.lt_succ_of_lt (unicodeEscape_lt h)
    case h_10 => simp at h
    all_goals
      simp only [Except.ok.injEq, Prod.mk.injEq] at h
      simp [← h.2]

/-- The characters of a string after its opening quote, and what follows its closing one. -/
def stringBody (s : Text) : Except Fault (Text × Text) :=
  match s with
  | [] => .error (.placed .unfinishedString 0)
  | c :: r =>
    if c = '"' then .ok ([], r)
    else if c = '\\' then
      match _h : escape r with
      | .error f => .error f
      | .ok (d, r') =>
        match stringBody r' with
        | .error f => .error f
        | .ok (t, r'') => .ok (d :: t, r'')
    else if c.toNat < 0x20 then .error (.here .controlInString r)
    else
      match stringBody r with
      | .error f => .error f
      | .ok (t, r') => .ok (c :: t, r')
termination_by s.length
decreasing_by
  · have := escape_lt _h
    simp only [List.length_cons]
    omega
  · simp

theorem stringBody_lt {s t r : Text} (h : stringBody s = .ok (t, r)) : r.length < s.length := by
  fun_induction stringBody s generalizing t r with
  | case1 => simp at h
  | case2 r' => simp at h; simp [h]
  | case3 => simp at h
  | case4 => simp at h
  | case5 r' d r'' he t' u hs _ ih =>
    have := ih hs
    have := escape_lt he
    simp only [Except.ok.injEq, Prod.mk.injEq] at h
    rw [← h.2]
    simp only [List.length_cons]
    omega
  | case6 => simp at h
  | case7 => simp at h
  | case8 c r' _ _ _ t' u hs ih =>
    have := ih hs
    simp only [Except.ok.injEq, Prod.mk.injEq] at h
    rw [← h.2]
    simp only [List.length_cons]
    omega

end PromptTemplate.Json
