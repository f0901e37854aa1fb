import PromptTemplate.Placeholder.Fault
import PromptTemplate.Placeholder.Node

/-!
# Placeholder/Parser — reading a placeholder

A placeholder is a comment, or an identifier behind an optional `@` with any number of parameters
`, key=value`. A value is a string, or words joined by commas without a gap. A comma belongs to
the value unless the word behind it is the next key, that is, unless `=` follows.

A text that is no placeholder has one fault. It is at the first token that fits no placeholder,
but for two cases: a value whose pieces do not touch is faulty as a whole, and a comma that was
given back because `=` followed makes that `=` the fault if no parameter begins there.
-/

namespace PromptTemplate.Placeholder

/-- The bytes of the end of a text. -/
structure Ending where
  start : Nat
  stop : Nat

/-- The end lies behind the last byte of the text; it reaches back to the end of the last token. -/
def Ending.of (s : Text) (ls : List Lexeme) : Ending :=
  ⟨Text.bytes s, match ls.getLast? with | some l => l.stop | none => Text.bytes s⟩

def Lexeme.fault (l : Lexeme) (expected : List Expected) : Fault :=
  ⟨l.start, l.stop, .unexpected (some l.token), expected⟩

/-- The fault of the next token, or of the end. -/
def unexpected (ending : Ending) (ls : List Lexeme) (expected : List Expected) : Fault :=
  match ls with
  | l :: _ => l.fault expected
  | [] => ⟨ending.start, ending.stop, .unexpected none, expected⟩

/-- The text of a token that may be part of a value without quotes. -/
def Token.bare? : Token → Option Text
  | .ident t => some t
  | .word t => some t
  | _ => none

/-- Whether a value can begin here. -/
def beginsValue : List Lexeme → Bool
  | l :: _ => match l.token with
    | .quoted _ => true
    | t => t.bare?.isSome
  | [] => false

/-- The pieces of a value after its first word, commas included, and the tokens that follow. -/
def pieces : List Lexeme → List Lexeme × List Lexeme
  | c :: w :: ls =>
    if c.token = .comma ∧ w.token.bare?.isSome ∧ ls.head?.map (·.token) ≠ some .equals then
      let (ps, rest) := pieces ls
      (c :: w :: ps, rest)
    else ([], c :: w :: ls)
  | ls => ([], ls)

theorem pieces_le (ls : List Lexeme) : (pieces ls).2.length ≤ ls.length := by
  fun_induction pieces ls with
  | case1 c w ls h ps rest hp ih =>
    simp only [hp, List.length_cons] at ih ⊢
    omega
  | case2 => simp
  | case3 => simp

/-- The text of a piece of a value. -/
def pieceText (l : Lexeme) : Text :=
  match l.token.bare? with
  | some t => t
  | none => [',']

/-- Whether each piece begins where the one before it ends. -/
def touching : List Lexeme → Bool
  | a :: b :: ls => a.stop = b.start && touching (b :: ls)
  | _ => true

/-- The `=` that follows a value, a comma and a word, where no parameter begins at that comma. -/
def strayEquals : List Lexeme → Option Lexeme
  | c :: w :: e :: ls =>
    if c.token = .comma ∧ e.token = .equals then
      match w.token with
      | .word _ => some e
      | .ident _ => if beginsValue ls then none else some e
      | _ => none
    else none
  | _ => none

/-- A value without quotes whose first word is `w`, and the tokens that follow it. -/
def bareValue (w : Lexeme) (ls : List Lexeme) : Except Fault (Text × List Lexeme) :=
  let (ps, rest) := pieces ls
  if touching (w :: ps) then
    match strayEquals rest with
    | some e => .error (e.fault [])
    | none => .ok ((w :: ps).flatMap pieceText, rest)
  else .error ⟨w.start, ((w :: ps).getLast (by simp)).stop, .looseValue, []⟩

/-- A value and the tokens that follow it. -/
def value (ending : Ending) : List Lexeme → Except Fault (Text × List Lexeme)
  | [] => .error (unexpected ending [] [])
  | l :: ls =>
    match l.token with
    | .quoted t => .ok (t, ls)
    | .ident _ => bareValue l ls
    | .word _ => bareValue l ls
    | _ => .error (l.fault [])

theorem bareValue_le {w : Lexeme} {ls rest : List Lexeme} {t : Text}
    (h : bareValue w ls = .ok (t, rest)) : rest.length ≤ ls.length := by
  simp only [bareValue] at h
  split at h
  · split at h
    · simp at h
    · simp only [Except.ok.injEq, Prod.mk.injEq] at h
      exact h.2 ▸ pieces_le ls
  · simp at h

theorem value_lt {ending : Ending} {ls rest : List Lexeme} {t : Text}
    (h : value ending ls = .ok (t, rest)) : rest.length < ls.length := by
  cases ls with
  | nil => simp [value] at h
  | cons l ls =>
    simp only [value] at h
    split at h
    · simp at h
      simp [h]
    · exact Nat.lt_succ_of_le (bareValue_le h)
    · exact Nat.lt_succ_of_le (bareValue_le h)
    · simp at h

/-- A key and its `=`, after the comma, and the tokens that follow. -/
def parameterKey (ending : Ending) (ls : List Lexeme) : Except Fault (Text × List Lexeme) :=
  match ls with
  | [] => .error (unexpected ending [] [])
  | l :: ls =>
    match l.token with
    | .ident key =>
      match ls with
      | e :: ls' =>
        if e.token = .equals then .ok (key, ls') else .error (e.fault [.equals])
      | [] => .error (unexpected ending [] [.equals])
    | _ => .error (l.fault [])

theorem parameterKey_lt {ending : Ending} {ls rest : List Lexeme} {t : Text}
    (h : parameterKey ending ls = .ok (t, rest)) : rest.length < ls.length := by
  simp only [parameterKey] at h
  split at h
  · simp at h
  · split at h
    · split at h
      · split at h
        · simp only [Except.ok.injEq, Prod.mk.injEq] at h
          rw [← h.2]
          simp only [List.length_cons]
          omega
        · simp at h
      · simp at h
    · simp at h

/-- Parameters, up to the first token that is no comma. -/
def parameters (ending : Ending) (ls : List Lexeme) :
    Except Fault (List Parameter × List Lexeme) :=
  match ls with
  | [] => .ok ([], [])
  | c :: ls =>
    if c.token = .comma then
      match _hk : parameterKey ending ls with
      | .error f => .error f
      | .ok (key, afterKey) =>
        match _hv : value ending afterKey with
        | .error f => .error f
        | .ok (v, rest) =>
          match parameters ending rest with
          | .error f => .error f
          | .ok (ps, rest') => .ok (⟨key, v⟩ :: ps, rest')
    else .ok ([], c :: ls)
termination_by ls.length
decreasing_by
  have := parameterKey_lt _hk
  have := value_lt _hv
  simp only [List.length_cons]
  omega

/-- The closing braces, with nothing behind them. -/
def close (ending : Ending) (expected : List Expected) (n : Node) :
    List Lexeme → Except Fault Node
  | [] => .error (unexpected ending [] expected)
  | l :: ls =>
    if l.token = .closing then
      if ls.isEmpty then .ok n else .error (unexpected ending ls [.ending])
    else .error (l.fault expected)

/-- A definition or reference, after its sign. -/
def named (ending : Ending) (m : Modifier) (expected : List Expected) :
    List Lexeme → Except Fault Node
  | [] => .error (unexpected ending [] expected)
  | l :: ls =>
    match l.token with
    | .ident name =>
      match parameters ending ls with
      | .error f => .error f
      | .ok (ps, rest) => close ending [.comma, .closing] ⟨m, name, ps⟩ rest
    | _ => .error (l.fault expected)

/-- What stands after the opening braces. -/
def body (ending : Ending) : List Lexeme → Except Fault Node
  | [] => .error (unexpected ending [] [.atSign])
  | l :: ls =>
    match l.token with
    | .comment t =>
      if t.isEmpty then .error ⟨l.start, l.stop, .emptyComment, []⟩
      else close ending [.closing] ⟨.comment, t, []⟩ ls
    | .atSign => named ending .definition [] ls
    | _ => named ending .reference [.atSign] (l :: ls)

/-- A placeholder from its tokens. -/
def ofLexemes (ending : Ending) : List Lexeme → Except Fault Node
  | [] => .error (unexpected ending [] [.opening])
  | l :: ls =>
    if l.token = .opening then body ending ls else .error (l.fault [.opening])

/-- The placeholder that a text is. -/
def parse (s : Text) : Except Fault Node := ofLexemes (.of s (lex s)) (lex s)

end PromptTemplate.Placeholder
