import PromptTemplate.Json.Reader

/-!
# Json/Skip — passing over a value that is not kept

A value that nobody asked for only has to be well formed. It may nest at any depth, its numbers
may lie out of range and its escapes may stand for lone surrogates; the open brackets are kept in
a list, so no nesting of calls is needed.
-/

namespace PromptTemplate.Json

/-- Passes over an exponent, after its `e`. -/
def skipExponent (s : Text) : Except Fault Text :=
  match (match s with | '+' :: r => r | '-' :: r => r | s => s) with
  | [] => .error (.placed .badNumber 0)
  | c :: r =>
    if Decimal.isDigit c then .ok (r.dropWhile Decimal.isDigit)
    else .error (.peek .badNumber (c :: r))

/-- Passes over a fraction, after its point, and over an exponent. -/
def skipFraction (s : Text) : Except Fault Text :=
  let rest := s.dropWhile Decimal.isDigit
  if (s.takeWhile Decimal.isDigit).isEmpty then .error (.peek .badNumber rest)
  else
    match rest with
    | 'e' :: r => skipExponent r
    | 'E' :: r => skipExponent r
    | r => .ok r

/-- Passes over a number, after its sign. -/
def skipNumber : Text → Except Fault Text
  | [] => .error (.placed .badNumber 0)
  | c :: s =>
    if Decimal.isDigit c then
      if c = '0' && !(s.takeWhile Decimal.isDigit).isEmpty then .error (.peek .badNumber s)
      else
        match s.dropWhile Decimal.isDigit with
        | '.' :: r => skipFraction r
        | 'e' :: r => skipExponent r
        | 'E' :: r => skipExponent r
        | r => .ok r
    else .error (.peek .badNumber (c :: s))

/-- Passes over an escape, after its backslash. -/
def skipEscape : Text → Except Fault Text
  | [] => .error (.placed .unfinishedString 0)
  | c :: r =>
    if c = 'u' then (hexUnit r).map (·.2)
    else if ['"', '\\', '/', 'b', 'f', 'n', 'r', 't'].contains c then .ok r
    else .error (.peek .badEscape (c :: r))

theorem skipExponent_le {s r : Text} (h : skipExponent s = .ok r) : r.length ≤ s.length := by
  have key : ∀ t : Text, t.length ≤ s.length → (match t with
      | [] => .error (.placed .badNumber 0)
      | c :: r => if Decimal.isDigit c then .ok (r.dropWhile Decimal.isDigit)
        else .error (.peek .badNumber (c :: r))) = (Except.ok r : Except Fault Text) →
      r.length ≤ s.length := by
    intro t ht h
    split at h
    · simp at h
    · rename_i c r'
      split at h
      · simp at h
        have := (List.dropWhile_sublist Decimal.isDigit (l := r')).length_le
        simp only [List.length_cons] at ht
        rw [← h]
        omega
      · simp at h
  refine key _ ?_ h
  split <;> simp

theorem skipFraction_le {s r : Text} (h : skipFraction s = .ok r) : r.length ≤ s.length := by
  have hd := (List.dropWhile_sublist Decimal.isDigit (l := s)).length_le
  simp only [skipFraction] at h
  split at h
  · simp at h
  · split at h
    · rename_i hr
      have := skipExponent_le h
      rw [hr, List.length_cons] at hd
      omega
    · rename_i hr
      have := skipExponent_le h
      rw [hr, List.length_cons] at hd
      omega
    · simp at h
      exact h ▸ hd

theorem skipNumber_lt {s r : Text} (h : skipNumber s = .ok r) : r.length < s.length := by
  cases s with
  | nil => simp [skipNumber] at h
  | cons c s =>
    have hd := (List.dropWhile_sublist Decimal.isDigit (l := s)).length_le
    simp only [skipNumber] at h
    split at h
    · split at h
      · simp at h
      · split at h
        · rename_i hr
          have := skipFraction_le h
          rw [hr, List.length_cons] at hd
          simp only [List.length_cons]
          omega
        · rename_i hr
          have := skipExponent_le h
          rw [hr, List.length_cons] at hd
          simp only [List.length_cons]
          omega
        · rename_i hr
          have := skipExponent_le h
          rw [hr, List.length_cons] at hd
          simp only [List.length_cons]
          omega
        · simp at h
          rw [← h, List.length_cons]
          omega
    · simp at h

theorem skipEscape_lt {s r : Text} (h : skipEscape s = .ok r) : r.length < s.length := by
  cases s with
  | nil => simp [skipEscape] at h
  | cons c s =>
    simp only [skipEscape] at h
    split at h
    · obtain ⟨x, hx, rfl⟩ := map_eq_ok h
      exact Nat.lt_succ_of_lt (hexUnit_lt (n := x.1) hx)
    · split at h
      · simp at h
        simp [h]
      · simp at h

/-- Passes over a string, after its opening quote. -/
def skipString (s : Text) : Except Fault Text :=
  match s with
  | [] => .error (.placed .unfinishedString 0)
  | c :: r =>
    if c = '"' then .ok r
    else if c = '\\' then
      match _h : skipEscape r with
      | .error f => .error f
      | .ok r' => skipString r'
    else if c.toNat < 0x20 then .error (.here .controlInString (c :: r))
    else skipString r
termination_by s.length
decreasing_by
  · have := skipEscape_lt _h
    simp only [List.length_cons]
    omega
  · simp

theorem skipString_lt {s r : Text} (h : skipString s = .ok r) : r.length < s.length := by
  fun_induction skipString s with
  | case1 => simp at h
  | case2 => simp at h; simp [h]
  | case3 => simp at h
  | case4 r' t ht _ ih =>
    have := ih h
    have := skipEscape_lt ht
    simp only [List.length_cons]
    omega
  | case5 => simp at h
  | case6 c r' _ _ _ ih =>
    have := ih h
    simp only [List.length_cons]
    omega

/-- Passes over a key and its colon; `s` begins with no blank. -/
def skipKey (s : Text) : Except Fault Text :=
  match s with
  | [] => .error (.placed .unfinishedObject 0)
  | c :: r =>
    if c = '"' then
      match skipString r with
      | .error f => .error f
      | .ok r' => colon r'
    else .error (.peek .keyNotString (c :: r))

theorem skipKey_lt {s r : Text} (h : skipKey s = .ok r) : r.length < s.length := by
  cases s with
  | nil => simp [skipKey] at h
  | cons c s =>
    simp only [skipKey] at h
    split at h
    · split at h
      · simp at h
      · rename_i hs
        have := skipString_lt hs
        have := colon_lt h
        simp only [List.length_cons]
        omega
    · simp at h

inductive Bracket
  | list
  | object
deriving DecidableEq

namespace Bracket

def closing : Bracket → Char
  | list => ']'
  | object => '\x7d'

def unfinished : Bracket → Problem
  | list => .unfinishedList
  | object => .unfinishedObject

def expectedEnd : Bracket → Problem
  | list => .expectedListEnd
  | object => .expectedObjectEnd

end Bracket

/-- Passes over a scalar that begins with `c`; none where `c` begins no scalar. -/
def skipScalar (c : Char) (r : Text) : Option (Except Fault Text) :=
  if c = 'n' then some (word ['u', 'l', 'l'] r)
  else if c = 't' then some (word ['r', 'u', 'e'] r)
  else if c = 'f' then some (word ['a', 'l', 's', 'e'] r)
  else if c = '-' then some (skipNumber r)
  else if Decimal.isDigit c then some (skipNumber (c :: r))
  else if c = '"' then some (skipString r)
  else none

theorem skipScalar_lt {c : Char} {r t : Text} (h : skipScalar c r = some (.ok t)) :
    t.length ≤ r.length := by
  simp only [skipScalar] at h
  repeat' split at h
  all_goals simp only [Option.some.injEq, reduceCtorEq] at h
  · exact word_le h
  · exact word_le h
  · exact word_le h
  · exact Nat.le_of_lt (skipNumber_lt h)
  · exact Nat.le_of_lt_succ (skipNumber_lt h)
  · exact Nat.le_of_lt (skipString_lt h)

mutual

/-- Passes over a value inside the `outer` brackets and on to the end of the outermost one. -/
def skipValue (outer : List Bracket) (s : Text) : Except Fault Text :=
  match _hb : blanks s with
  | [] => .error (.placed .unfinishedValue 0)
  | c :: r =>
    match _hs : skipScalar c r with
    | some (.error f) => .error f
    | some (.ok t) => skipRest outer t
    | none =>
      if c = '[' then skipOpened .list outer r
      else if c = '\x7b' then skipOpened .object outer r
      else .error (.peek .expectedValue (c :: r))
termination_by (s.length, 0)
decreasing_by
  all_goals
    have hle := blanks_le s
    rw [_hb, List.length_cons] at hle
  · have := skipScalar_lt _hs
    exact Prod.Lex.left _ _ (by omega)
  · exact Prod.Lex.left _ _ (by omega)
  · exact Prod.Lex.left _ _ (by omega)

/-- Goes on after an opening bracket. -/
def skipOpened (b : Bracket) (outer : List Bracket) (s : Text) : Except Fault Text :=
  match _hb : blanks s with
  | [] => .error (.placed b.unfinished 0)
  | c :: r =>
    if c = b.closing then skipRest outer r
    else
      match b with
      | .list => skipValue (.list :: outer) (c :: r)
      | .object =>
        match _hk : skipKey (c :: r) with
        | .error f => .error f
        | .ok t => skipValue (.object :: outer) t
termination_by (s.length, 1)
decreasing_by
  all_goals
    have hle := blanks_le s
    rw [_hb, List.length_cons] at hle
  · exact Prod.Lex.left _ _ (by omega)
  · have heq : (c :: r).length = s.length ∨ (c :: r).length < s.length := by
      simp only [List.length_cons]; omega
    rcases heq with heq | hlt
    · rw [heq]
      exact Prod.Lex.right _ (by decide)
    · exact Prod.Lex.left _ _ hlt
  · have := skipKey_lt _hk
    simp only [List.length_cons] at this
    exact Prod.Lex.left _ _ (by omega)

/-- Goes on after a value. -/
def skipRest (brackets : List Bracket) (s : Text) : Except Fault Text :=
  match brackets with
  | [] => .ok s
  | b :: outer =>
    match _hb : blanks s with
    | [] => .error (.placed b.unfinished 0)
    | c :: r =>
      if c = ',' then
        match b with
        | .list => skipValue (.list :: outer) r
        | .object =>
          match _hk : skipKey (blanks r) with
          | .error f => .error f
          | .ok t => skipValue (.object :: outer) t
      else if c = b.closing then skipRest outer r
      else .error (.peek b.expectedEnd (c :: r))
termination_by (s.length, 1)
decreasing_by
  all_goals
    have hle := blanks_le s
    rw [_hb, List.length_cons] at hle
  · exact Prod.Lex.left _ _ (by omega)
  · have := skipKey_lt _hk
    have := blanks_le r
    exact Prod.Lex.left _ _ (by omega)
  · exact Prod.Lex.left _ _ (by omega)

end

private theorem skip_le (n : Nat) :
    (∀ outer s r, s.length ≤ n → skipValue outer s = .ok r → r.length ≤ s.length) ∧
    (∀ b outer s r, s.length ≤ n → skipOpened b outer s = .ok r → r.length ≤ s.length) ∧
    (∀ brackets s r, s.length ≤ n → skipRest brackets s = .ok r → r.length ≤ s.length) := by
  induction n with
  | zero =>
    have hnil : ∀ s : Text, s.length ≤ 0 → s = [] := fun s h => by simpa using h
    refine ⟨?_, ?_, ?_⟩
    · intro outer s r hs h
      rw [hnil s hs, skipValue] at h
      simp [blanks] at h
    · intro b outer s r hs h
      rw [hnil s hs, skipOpened] at h
      simp [blanks] at h
    · intro brackets s r hs h
      rw [hnil s hs] at h
      cases brackets with
      | nil => simp [skipRest] at h; simp [h]
      | cons b outer => rw [skipRest] at h; simp [blanks] at h
  | succ n ih =>
    obtain ⟨ihValue, ihOpened, ihRest⟩ := ih
    have hValue : ∀ outer s r, s.length ≤ n + 1 → skipValue outer s = .ok r →
        r.length ≤ s.length := by
      intro outer s r hs h
      have hle := blanks_le s
      rw [skipValue] at h
      split at h
      · simp at h
      · rename_i c r' hb
        rw [hb, List.length_cons] at hle
        split at h
        · simp at h
        · rename_i t ht
          have := skipScalar_lt ht
          have := ihRest _ _ _ (by omega) h
          omega
        · split at h
          · have := ihOpened _ _ _ _ (by omega) h
            omega
          · split at h
            · have := ihOpened _ _ _ _ (by omega) h
              omega
            · simp at h
    refine ⟨hValue, ?_, ?_⟩
    · intro b outer s r hs h
      have hle := blanks_le s
      rw [skipOpened] at h
      split at h
      · simp at h
      · rename_i c r' hb
        rw [hb, List.length_cons] at hle
        split at h
        · have := ihRest _ _ _ (by omega) h
          omega
        · split at h
          · have := hValue _ _ _ (by simp only [List.length_cons]; omega) h
            simp only [List.length_cons] at this
            omega
          · split at h
            · simp at h
            · rename_i t hk
              have := skipKey_lt hk
              simp only [List.length_cons] at this
              have := ihValue _ _ _ (by omega) h
              omega
    · intro brackets s r hs h
      have hle := blanks_le s
      cases brackets with
      | nil => simp [skipRest] at h; simp [h]
      | cons b outer =>
        rw [skipRest] at h
        split at h
        · simp at h
        · rename_i c r' hb
          rw [hb, List.length_cons] at hle
          split at h
          · split at h
            · have := ihValue _ _ _ (by omega) h
              omega
            · split at h
              · simp at h
              · rename_i t hk
                have := skipKey_lt hk
                have := blanks_le r'
                have := ihValue _ _ _ (by omega) h
                omega
          · split at h
            · have := ihRest _ _ _ (by omega) h
              omega
            · simp at h

theorem skipValue_le {outer : List Bracket} {s r : Text} (h : skipValue outer s = .ok r) :
    r.length ≤ s.length :=
  (skip_le s.length).1 outer s r (Nat.le_refl _) h

end PromptTemplate.Json
