import PromptTemplate.Proofs.Placeholder.Soundness

/-!
# Proofs/Placeholder/Stages — the tokens that can come next

    {{  a  ,  b  =  c  ,  d  =
    │   │  │  │  │  │  │  │  └ laterEquals
    │   │  │  │  │  │  │  └ bareIdent: a word of the value, or the next key
    │   │  │  │  │  │  └ bareComma
    │   │  │  │  │  └ bare
    │   │  comma, key, equals
    │   settled
    opened

A `Stage` is what the tokens so far leave open, blanks aside. The parser is followed part by part:
what it takes leads from one stage to another (`Leads`), and where it stops with a fault, the fault
is in one of four places (`Misplaced`): at a token that cannot come next, at an end that cannot come
yet, over a value whose pieces do not touch, or at the `=` of a later key. So **the tokens of a
placeholder lead to the closed stage** (`parse_leads`), and **the fault of any other text is
misplaced** (`parse_misplaced`).
-/

namespace PromptTemplate.Placeholder

/-- The tokens of a text, or of a part of it, without their places. -/
def tokens (ls : List Lexeme) : List Token := ls.map (·.token)

@[simp] theorem tokens_nil : tokens [] = [] := rfl

@[simp] theorem tokens_cons (l : Lexeme) (ls : List Lexeme) :
    tokens (l :: ls) = l.token :: tokens ls := rfl

@[simp] theorem tokens_append (ls ls' : List Lexeme) :
    tokens (ls ++ ls') = tokens ls ++ tokens ls' := List.map_append

/-! ## Stages -/

/-- What tokens leave open. -/
inductive Stage
  | start
  /-- Behind the opening braces. -/
  | opened
  /-- Behind the sign of a definition. -/
  | signed
  /-- Behind a remark. -/
  | remarked
  /-- Behind the name or a string: an argument can follow. -/
  | settled
  /-- Behind a comma that begins an argument. -/
  | comma
  | key
  | equals
  /-- Behind a word of a value. -/
  | bare
  /-- Behind a comma that goes on with a value or begins an argument. -/
  | bareComma
  /-- Behind an identifier that goes on with a value or is a key. -/
  | bareIdent
  /-- Behind the equals sign that makes it a key. -/
  | laterEquals
  | closed
deriving DecidableEq, Repr

namespace Stage

/-- The stage behind one more token, if it can come. -/
def next? : Stage → Token → Option Stage
  | start, .opening => some opened
  | opened, .comment t => if t.isEmpty then none else some remarked
  | opened, .atSign => some signed
  | opened, .ident _ => some settled
  | signed, .ident _ => some settled
  | remarked, .closing => some closed
  | settled, .comma => some comma
  | settled, .closing => some closed
  | comma, .ident _ => some key
  | key, .equals => some equals
  | equals, .quoted _ => some settled
  | equals, .ident _ => some bare
  | equals, .word _ => some bare
  | bare, .comma => some bareComma
  | bare, .closing => some closed
  | bareComma, .ident _ => some bareIdent
  | bareComma, .word _ => some bare
  | bareIdent, .comma => some bareComma
  | bareIdent, .closing => some closed
  | bareIdent, .equals => some laterEquals
  | laterEquals, .quoted _ => some settled
  | laterEquals, .ident _ => some bare
  | laterEquals, .word _ => some bare
  | _, _ => none

/-- The steps from stage to stage. -/
inductive Step : Stage → Token → Stage → Prop
  | opening : Step start .opening opened
  | comment {t : Text} : t ≠ [] → Step opened (.comment t) remarked
  | sign : Step opened .atSign signed
  | name {t : Text} : Step opened (.ident t) settled
  | signedName {t : Text} : Step signed (.ident t) settled
  | remarkedClosing : Step remarked .closing closed
  | comma : Step settled .comma comma
  | settledClosing : Step settled .closing closed
  | key {t : Text} : Step comma (.ident t) key
  | equals : Step key .equals equals
  | quoted {t : Text} : Step equals (.quoted t) settled
  | ident {t : Text} : Step equals (.ident t) bare
  | word {t : Text} : Step equals (.word t) bare
  | bareComma : Step bare .comma bareComma
  | bareClosing : Step bare .closing closed
  | bareIdent {t : Text} : Step bareComma (.ident t) bareIdent
  | bareWord {t : Text} : Step bareComma (.word t) bare
  | identComma : Step bareIdent .comma bareComma
  | identClosing : Step bareIdent .closing closed
  | laterEquals : Step bareIdent .equals laterEquals
  | laterQuoted {t : Text} : Step laterEquals (.quoted t) settled
  | laterIdent {t : Text} : Step laterEquals (.ident t) bare
  | laterWord {t : Text} : Step laterEquals (.word t) bare

theorem step_of_next? {q q' : Stage} {t : Token} (h : q.next? t = some q') : Step q t q' := by
  rw [next?.eq_def] at h
  split at h
  case h_2 =>
    split at h
    · exact absurd h (by simp)
    · obtain rfl := Option.some.inj h
      exact .comment (by simpa using ‹¬List.isEmpty _ = true›)
  case h_24 => exact absurd h (by simp)
  all_goals
    obtain rfl := Option.some.inj h
    constructor

/-- The stage behind a row of tokens. -/
def after? (q : Stage) (ts : List Token) : Option Stage := ts.foldlM next? q

variable {q q' q'' : Stage} {t : Token} {ts ts' : List Token}

@[simp] theorem after?_nil : q.after? [] = some q := rfl

@[simp] theorem after?_cons : q.after? (t :: ts) = (q.next? t).bind (·.after? ts) :=
  List.foldlM_cons

theorem after?_append : q.after? (ts ++ ts') = (q.after? ts).bind (·.after? ts') :=
  List.foldlM_append

theorem after?_append_of_eq_some (h : q.after? ts = some q') :
    q.after? (ts ++ ts') = q'.after? ts' := by
  rw [after?_append, h, Option.bind_some]

/-- Tokens that lead somewhere do so token by token. -/
theorem after?_isSome_of_isPrefix (h : ts <+: ts') (hs : (q.after? ts').isSome) :
    (q.after? ts).isSome := by
  obtain ⟨us, rfl⟩ := h
  rw [after?_append] at hs
  cases hq : q.after? ts with
  | none => simp [hq] at hs
  | some q' => rfl

/-- What a value can begin with leads into it from both equals signs. -/
theorem next?_laterEquals (t : Token) : laterEquals.next? t = equals.next? t := by
  cases t <;> rfl

/-- Nothing comes behind the closing braces. -/
theorem eq_closed_of_mem (h : q.after? ts = some q') (hmem : .closing ∈ ts) : q' = closed := by
  obtain ⟨us, us', rfl⟩ := List.append_of_mem hmem
  rw [after?_append, Option.bind_eq_some_iff] at h
  obtain ⟨q₁, -, h⟩ := h
  rw [after?_cons, Option.bind_eq_some_iff] at h
  obtain ⟨q₂, hclosing, h⟩ := h
  obtain rfl : q₂ = closed := by cases step_of_next? hclosing <;> rfl
  cases us' with
  | nil => exact (Option.some.inj h).symm
  | cons t us' => exact absurd h (by simp [after?_cons, next?])

/-- A token that is listed as expected can come next, or the end can. -/
def Admits (q : Stage) : Expected → Prop
  | .opening => (q.next? .opening).isSome
  | .closing => (q.next? .closing).isSome
  | .atSign => (q.next? .atSign).isSome
  | .comma => (q.next? .comma).isSome
  | .equals => (q.next? .equals).isSome
  | .ending => q = closed

end Stage

/-! ## Tokens that are taken -/

/-- What is left when tokens are taken that lead from one stage to another. -/
def Leads (q : Stage) (ls : List Lexeme) (q' : Stage) (rest : List Lexeme) : Prop :=
  ∃ taken, ls = taken ++ rest ∧ q.after? (tokens taken) = some q'

section

variable {q q' q'' : Stage} {l : Lexeme} {ls ls' rest : List Lexeme}

theorem Leads.refl (q : Stage) (ls : List Lexeme) : Leads q ls q ls := ⟨[], rfl, rfl⟩

theorem Leads.cons {p : Stage} (hl : q.next? l.token = some p) (h : Leads p ls q' rest) :
    Leads q (l :: ls) q' rest := by
  obtain ⟨taken, rfl, htaken⟩ := h
  refine ⟨l :: taken, rfl, ?_⟩
  rw [tokens_cons, Stage.after?_cons, hl, Option.bind_some, htaken]

theorem Leads.trans (h : Leads q ls q' ls') (h' : Leads q' ls' q'' rest) :
    Leads q ls q'' rest := by
  obtain ⟨taken, rfl, htaken⟩ := h
  obtain ⟨taken', rfl, htaken'⟩ := h'
  refine ⟨taken ++ taken', (List.append_assoc _ _ _).symm, ?_⟩
  rw [tokens_append, Stage.after?_append_of_eq_some htaken, htaken']

end

/-! ## Where a fault lies -/

/-- Where the fault of tokens lies that are read from a stage on. -/
inductive Misplaced (ending : Ending) (q : Stage) (ls : List Lexeme) (f : Fault) : Prop
  /-- At a token that cannot come next. -/
  | token {l : Lexeme} {rest : List Lexeme} {q' : Stage} : Leads q ls q' (l :: rest) →
      q' ≠ .laterEquals → q'.next? l.token = none → f.start = l.start → f.stop = l.stop →
      f.cause ≠ .unexpected none → (∀ e ∈ f.expected, q'.Admits e) → Misplaced ending q ls f
  /-- At the end, which cannot come yet. -/
  | ending {q' : Stage} : Leads q ls q' [] → q' ≠ .laterEquals → q' ≠ .closed →
      f.start = ending.start → f.stop = ending.stop → f.cause = .unexpected none →
      (∀ e ∈ f.expected, q'.Admits e) → Misplaced ending q ls f
  /-- Over a value whose pieces do not touch. -/
  | loose {w : Lexeme} {rest : List Lexeme} {q' : Stage} : Leads q ls q' (w :: rest) →
      q' = .equals ∨ q' = .laterEquals → w.token.bare?.isSome →
      touching (w :: (pieces rest).1) = false →
      f = ⟨w.start, ((w :: (pieces rest).1).getLast (List.cons_ne_nil _ _)).stop, .looseValue, []⟩ →
      Misplaced ending q ls f
  /-- At the equals sign of a later key, behind which no value begins. -/
  | stray {e : Lexeme} {rest : List Lexeme} : Leads q ls .bareIdent (e :: rest) →
      e.token = .equals → beginsValue rest = false → f = e.fault [] → Misplaced ending q ls f

section

variable {ending : Ending} {q q' : Stage} {l : Lexeme} {ls rest : List Lexeme} {f : Fault}

theorem Misplaced.of_leads (h : Misplaced ending q' rest f) (hleads : Leads q ls q' rest) :
    Misplaced ending q ls f := by
  cases h with
  | token hl hlater hnext hstart hstop hcause hexpected =>
    exact .token (hleads.trans hl) hlater hnext hstart hstop hcause hexpected
  | ending hl hlater hclosed hstart hstop hcause hexpected =>
    exact .ending (hleads.trans hl) hlater hclosed hstart hstop hcause hexpected
  | loose hl hq hw htouch hf => exact .loose (hleads.trans hl) hq hw htouch hf
  | stray hl he hvalue hf => exact .stray (hleads.trans hl) he hvalue hf

theorem Misplaced.cons {p : Stage} (hl : q.next? l.token = some p) (h : Misplaced ending p ls f) :
    Misplaced ending q (l :: ls) f :=
  h.of_leads (.cons hl (.refl p ls))

/-- The fault of the first token, which cannot come next. -/
theorem misplaced_fault {expected : List Expected} (ending : Ending) (ls : List Lexeme)
    (hq : q ≠ .laterEquals) (hl : q.next? l.token = none) (hexpected : ∀ e ∈ expected, q.Admits e) :
    Misplaced ending q (l :: ls) (l.fault expected) := by
  refine .token (.refl q (l :: ls)) hq hl rfl rfl ?_ hexpected
  simp [Lexeme.fault]

/-- The fault of the end, where tokens are missing. -/
theorem misplaced_nil {expected : List Expected} (ending : Ending)
    (hq : q ≠ .laterEquals) (hclosed : q ≠ .closed) (hexpected : ∀ e ∈ expected, q.Admits e) :
    Misplaced ending q [] (unexpected ending [] expected) :=
  .ending (.refl q []) hq hclosed rfl rfl rfl hexpected

end

/-! ## Values -/

/-- Behind the last piece of a value, which is a key only where an equals sign follows. -/
def BehindPiece (q : Stage) (ls : List Lexeme) : Prop :=
  q = .bare ∨ q = .bareIdent ∧ ls.head?.map (·.token) ≠ some .equals

theorem BehindPiece.next?_comma {q : Stage} {ls : List Lexeme} (h : BehindPiece q ls) :
    q.next? .comma = some .bareComma := by
  obtain rfl | ⟨rfl, -⟩ := h
  · rfl
  · rfl

theorem next?_of_bare {t : Token} (h : t.bare?.isSome = true) :
    Stage.equals.next? t = some .bare ∧
      (Stage.bareComma.next? t = some .bare ∨ Stage.bareComma.next? t = some .bareIdent) := by
  cases t <;> simp_all [Token.bare?, Stage.next?]

/-- Pieces lead from word to word. -/
theorem leads_pieces {q : Stage} {ls : List Lexeme} (h : BehindPiece q ls) :
    ∃ q', Leads q ls q' (pieces ls).2 ∧ BehindPiece q' (pieces ls).2 := by
  fun_induction pieces ls generalizing q with
  | case1 c w ls hpiece ps rest hp ih =>
    obtain ⟨hc, hw, hnext⟩ := hpiece
    rw [hp] at ih
    have hcomma : q.next? c.token = some .bareComma := hc ▸ h.next?_comma
    obtain hword | hword := (next?_of_bare hw).2
    · obtain ⟨q', hleads, hbehind⟩ := ih (.inl rfl)
      exact ⟨q', .cons hcomma (.cons hword hleads), hbehind⟩
    · obtain ⟨q', hleads, hbehind⟩ := ih (.inr ⟨rfl, hnext⟩)
      exact ⟨q', .cons hcomma (.cons hword hleads), hbehind⟩
  | case2 => exact ⟨q, .refl q _, h⟩
  | case3 => exact ⟨q, .refl q _, h⟩

/-- The pieces of a value and the tokens left make up the tokens. -/
theorem pieces_append (ls : List Lexeme) : (pieces ls).1 ++ (pieces ls).2 = ls := by
  fun_induction pieces ls with
  | case1 c w ls hpiece ps rest hp ih =>
    rw [hp] at ih
    rw [← ih]
    rfl
  | case2 => rfl
  | case3 => rfl

/-- No piece is left behind the pieces. -/
theorem pieces_pieces (ls : List Lexeme) : pieces (pieces ls).2 = ([], (pieces ls).2) := by
  fun_induction pieces ls with
  | case1 c w ls hpiece ps rest hp ih => rwa [hp] at ih
  | case2 c w ls hpiece => rw [pieces, if_neg hpiece]
  | case3 ls hls => exact pieces.eq_2 ls hls

/-- Where no piece is left and no equals sign is stray, a comma begins an argument. -/
structure Unpieced (ls : List Lexeme) : Prop where
  pieces_eq : pieces ls = ([], ls)
  strayEquals_eq : strayEquals ls = none

/-- A comma and a word begin an argument only where an equals sign follows, and a value. -/
theorem Unpieced.cases {c w : Lexeme} {ls : List Lexeme} (h : Unpieced (c :: w :: ls))
    (hc : c.token = .comma) (hw : w.token.bare?.isSome = true) :
    ∃ t e rest, w.token = .ident t ∧ ls = e :: rest ∧ e.token = .equals ∧
      beginsValue rest = true := by
  obtain ⟨hpieces, hstray⟩ := h
  have hequals : ls.head?.map (·.token) = some .equals := by
    by_contra hne
    rw [pieces, if_pos ⟨hc, hw, hne⟩] at hpieces
    simp at hpieces
  cases ls with
  | nil => simp at hequals
  | cons e rest =>
    have he : e.token = .equals := by simpa using hequals
    cases ht : w.token with
    | ident t =>
      refine ⟨t, e, rest, rfl, rfl, he, ?_⟩
      by_contra hvalue
      simp [strayEquals, hc, he, ht, hvalue] at hstray
    | word t => simp [strayEquals, hc, he, ht] at hstray
    | _ => simp [ht, Token.bare?] at hw

/-- The equals sign behind a comma and a word: no key, or a key without a value. -/
theorem strayEquals_cases {ls : List Lexeme} {e : Lexeme} (h : strayEquals ls = some e) :
    ∃ c w rest, ls = c :: w :: e :: rest ∧ c.token = .comma ∧ e.token = .equals ∧
      ((∃ t, w.token = .word t) ∨ (∃ t, w.token = .ident t) ∧ beginsValue rest = false) := by
  rw [strayEquals.eq_def] at h
  split at h
  · rename_i c w e' rest
    split at h
    · rename_i hmarks
      split at h
      · obtain rfl := Option.some.inj h
        exact ⟨c, w, rest, rfl, hmarks.1, hmarks.2, .inl ⟨_, ‹_›⟩⟩
      · split at h
        · exact absurd h (by simp)
        · obtain rfl := Option.some.inj h
          have hvalue := Bool.eq_false_iff.mpr ‹¬beginsValue _ = true›
          exact ⟨c, w, rest, rfl, hmarks.1, hmarks.2, .inr ⟨⟨_, ‹_›⟩, hvalue⟩⟩
      · exact absurd h (by simp)
    · exact absurd h (by simp)
  · exact absurd h (by simp)

/-- Between two arguments. -/
def BehindValue (q : Stage) (ls : List Lexeme) : Prop :=
  q = .settled ∨ BehindPiece q ls ∧ Unpieced ls

/-- The stages where a value comes next; behind a later key the parser has looked at what follows
before it gets there. -/
def BeforeValue (q : Stage) (ls : List Lexeme) : Prop :=
  q = .equals ∨ q = .laterEquals ∧ beginsValue ls = true

theorem BeforeValue.next? {q : Stage} {ls : List Lexeme} (h : BeforeValue q ls) (t : Token) :
    q.next? t = Stage.equals.next? t := by
  obtain rfl | ⟨rfl, -⟩ := h
  · rfl
  · exact Stage.next?_laterEquals t

theorem bareValue_leads {w : Lexeme} {ls rest : List Lexeme} {v : Text}
    (h : bareValue w ls = .ok (v, rest)) : ∃ q', Leads .bare ls q' rest ∧ BehindValue q' rest := by
  simp only [bareValue] at h
  split at h
  · split at h
    · exact absurd h (by simp)
    · obtain ⟨-, rfl⟩ := Prod.mk.inj (Except.ok.inj h)
      obtain ⟨q', hleads, hbehind⟩ := @leads_pieces .bare ls (.inl rfl)
      exact ⟨q', hleads, .inr ⟨hbehind, pieces_pieces ls, ‹_›⟩⟩
  · exact absurd h (by simp)

theorem bareValue_misplaced {q : Stage} {w : Lexeme} {ls : List Lexeme} {f : Fault}
    (ending : Ending) (hq : BeforeValue q (w :: ls)) (hw : w.token.bare?.isSome = true)
    (h : bareValue w ls = .error f) : Misplaced ending q (w :: ls) f := by
  simp only [bareValue] at h
  split at h
  · split at h
    · rename_i e hstray
      obtain rfl := Except.error.inj h
      obtain ⟨q', hleads, hbehind⟩ := @leads_pieces .bare ls (.inl rfl)
      obtain ⟨c, x, rest, hrest, hc, he, hx⟩ := strayEquals_cases hstray
      have hcomma : q'.next? c.token = some .bareComma := hc ▸ hbehind.next?_comma
      have hword : q.next? w.token = some .bare := (hq.next? _).trans (next?_of_bare hw).1
      rw [hrest] at hleads
      refine .cons hword (.of_leads ?_ hleads)
      obtain ⟨t, ht⟩ | ⟨⟨t, ht⟩, hvalue⟩ := hx
      · refine .cons hcomma (.cons (p := .bare) (by simp [ht, Stage.next?]) ?_)
        exact misplaced_fault ending rest (by simp) (by simp [he, Stage.next?])
          (List.forall_mem_nil _)
      · refine .cons hcomma (.cons (p := .bareIdent) (by simp [ht, Stage.next?]) ?_)
        exact .stray (.refl _ _) he hvalue rfl
    · exact absurd h (by simp)
  · obtain rfl := Except.error.inj h
    have htouch := Bool.eq_false_iff.mpr ‹¬touching _ = true›
    exact .loose (.refl q _) (hq.imp_right And.left) hw htouch rfl

theorem value_leads {ending : Ending} {q : Stage} {ls rest : List Lexeme} {v : Text}
    (hq : BeforeValue q ls) (h : value ending ls = .ok (v, rest)) :
    ∃ q', Leads q ls q' rest ∧ BehindValue q' rest := by
  obtain ⟨l, ls, rfl, ⟨hquoted, rfl⟩ | ⟨t, ht, hbare⟩⟩ := value_cases h
  · refine ⟨.settled, .cons ?_ (.refl _ _), .inl rfl⟩
    rw [hq.next?, hquoted]
    rfl
  · obtain ⟨q', hleads, hbehind⟩ := bareValue_leads hbare
    refine ⟨q', .cons ?_ hleads, hbehind⟩
    rw [hq.next?, (next?_of_bare (by simp [ht])).1]

theorem value_misplaced {ending : Ending} {q : Stage} {ls : List Lexeme} {f : Fault}
    (hq : BeforeValue q ls) (h : value ending ls = .error f) : Misplaced ending q ls f := by
  cases ls with
  | nil =>
    obtain rfl | ⟨-, hvalue⟩ := hq
    · exact Except.error.inj h ▸ misplaced_nil ending (by simp) (by simp) (List.forall_mem_nil _)
    · exact absurd hvalue (by simp [beginsValue])
  | cons l ls =>
    simp only [value] at h
    split at h
    · exact absurd h (by simp)
    · exact bareValue_misplaced ending hq (by simp [‹l.token = _›, Token.bare?]) h
    · exact bareValue_misplaced ending hq (by simp [‹l.token = _›, Token.bare?]) h
    · obtain rfl := Except.error.inj h
      obtain rfl | ⟨-, hvalue⟩ := hq
      · refine misplaced_fault ending ls (by simp) ?_ (List.forall_mem_nil _)
        cases ht : l.token <;> simp_all [Stage.next?]
      · exact absurd hvalue (by cases ht : l.token <;> simp_all [beginsValue, Token.bare?])

/-! ## Arguments -/

/-- The comma of an argument leads to one of two stages, and from both a key and its equals sign
lead to the value. -/
theorem BehindValue.comma {q : Stage} {ls : List Lexeme} (h : BehindValue q ls) :
    q.next? .comma = some .comma ∨ q.next? .comma = some .bareComma ∧ Unpieced ls := by
  obtain rfl | ⟨hbehind, hunpieced⟩ := h
  · exact .inl rfl
  · exact .inr ⟨hbehind.next?_comma, hunpieced⟩

theorem parameterKey_leads {ending : Ending} {q : Stage} {c : Lexeme} {ls rest : List Lexeme}
    {k : Text} (hq : BehindValue q (c :: ls)) (hc : c.token = .comma)
    (h : parameterKey ending ls = .ok (k, rest)) :
    ∃ q', Leads q (c :: ls) q' rest ∧ BeforeValue q' rest := by
  obtain ⟨l, e, rfl, hl, he⟩ := parameterKey_cases h
  obtain hcomma | ⟨hcomma, hunpieced⟩ := hq.comma
  · refine ⟨.equals, .cons (hc ▸ hcomma) (.cons (p := .key) ?_ (.cons ?_ (.refl _ _))), .inl rfl⟩
    · simp [hl, Stage.next?]
    · simp [he, Stage.next?]
  · obtain ⟨t, e', rest', -, heq, -, hvalue⟩ := hunpieced.cases hc (by simp [hl, Token.bare?])
    obtain ⟨rfl, rfl⟩ := List.cons.inj heq
    refine ⟨.laterEquals, .cons (hc ▸ hcomma) (.cons (p := .bareIdent) ?_
      (.cons ?_ (.refl _ _))), .inr ⟨rfl, hvalue⟩⟩
    · simp [hl, Stage.next?]
    · simp [he, Stage.next?]

/-- Behind the comma of an argument no key is there, or no equals sign behind it. -/
theorem parameterKey_misplaced {ending : Ending} {q : Stage} {c : Lexeme} {ls : List Lexeme}
    {f : Fault} (hq : BehindValue q (c :: ls)) (hc : c.token = .comma)
    (h : parameterKey ending ls = .error f) : Misplaced ending q (c :: ls) f := by
  have hkey : ∀ {l : Lexeme} {t : Text}, l.token = .ident t →
      Stage.comma.next? l.token = some .key := fun hl => by simp [hl, Stage.next?]
  obtain hcomma | ⟨hcomma, hunpieced⟩ := hq.comma
  · refine .cons (hc ▸ hcomma) ?_
    rw [parameterKey.eq_def] at h
    split at h
    · exact Except.error.inj h ▸ misplaced_nil ending (by simp) (by simp) (List.forall_mem_nil _)
    · split at h
      · refine .cons (hkey ‹_›) ?_
        split at h
        · split at h
          · exact absurd h (by simp)
          · obtain rfl := Except.error.inj h
            refine misplaced_fault ending _ (by simp) ?_ (by simp [Stage.Admits, Stage.next?])
            rename_i e _ he
            cases ht : e.token <;> simp_all [Stage.next?]
        · exact Except.error.inj h ▸
            misplaced_nil ending (by simp) (by simp) (by simp [Stage.Admits, Stage.next?])
      · obtain rfl := Except.error.inj h
        refine misplaced_fault ending _ (by simp) ?_ (List.forall_mem_nil _)
        rename_i l _ _ hl
        cases ht : l.token <;> simp_all [Stage.next?]
  · refine .cons (hc ▸ hcomma) ?_
    cases ls with
    | nil =>
      exact Except.error.inj h ▸ misplaced_nil ending (by simp) (by simp) (List.forall_mem_nil _)
    | cons l ls =>
      -- a word here is a key with its equals sign, so that no fault is at either
      by_cases hl : l.token.bare?.isSome
      · obtain ⟨t, e, rest, ht, rfl, he, -⟩ := hunpieced.cases hc hl
        simp [parameterKey, ht, he] at h
      · have hfault : f = l.fault [] := by
          rw [parameterKey] at h
          split at h
          · simp_all [Token.bare?]
          · exact (Except.error.inj h).symm
        obtain rfl := hfault
        refine misplaced_fault ending ls (by simp) ?_ (List.forall_mem_nil _)
        cases ht : l.token <;> simp_all [Stage.next?, Token.bare?]

theorem parameters_leads {ending : Ending} {q : Stage} {ls rest : List Lexeme}
    {ps : List Parameter} (hq : BehindValue q ls) (h : parameters ending ls = .ok (ps, rest)) :
    ∃ q', Leads q ls q' rest ∧ BehindValue q' rest ∧ ∀ l ∈ rest.head?, l.token ≠ .comma := by
  fun_induction parameters ending ls generalizing q ps rest with
  | case1 =>
    obtain ⟨-, rfl⟩ := Prod.mk.inj (Except.ok.inj h)
    exact ⟨q, .refl q [], hq, by simp⟩
  | case5 c ls hc k afterKey hk v afterValue hv ps' rest' hps ih =>
    obtain ⟨-, rfl⟩ := Prod.mk.inj (Except.ok.inj h)
    obtain ⟨q₁, hleads₁, hbefore⟩ := parameterKey_leads hq hc hk
    obtain ⟨q₂, hleads₂, hbehind⟩ := value_leads hbefore hv
    obtain ⟨q', hleads, hrest⟩ := ih hbehind hps
    exact ⟨q', hleads₁.trans (hleads₂.trans hleads), hrest⟩
  | case6 c ls hc =>
    obtain ⟨-, rfl⟩ := Prod.mk.inj (Except.ok.inj h)
    exact ⟨q, .refl q _, hq, by simpa using hc⟩
  | case2 => exact absurd h (by simp)
  | case3 => exact absurd h (by simp)
  | case4 => exact absurd h (by simp)

theorem parameters_misplaced {ending : Ending} {q : Stage} {ls : List Lexeme} {f : Fault}
    (hq : BehindValue q ls) (h : parameters ending ls = .error f) : Misplaced ending q ls f := by
  fun_induction parameters ending ls generalizing q with
  | case2 c ls hc f' hk =>
    obtain rfl := Except.error.inj h
    exact parameterKey_misplaced hq hc hk
  | case3 c ls hc k afterKey hk f' hv =>
    obtain rfl := Except.error.inj h
    obtain ⟨q', hleads, hbefore⟩ := parameterKey_leads hq hc hk
    exact (value_misplaced hbefore hv).of_leads hleads
  | case4 c ls hc k afterKey hk v afterValue hv f' hps ih =>
    obtain rfl := Except.error.inj h
    obtain ⟨q₁, hleads₁, hbefore⟩ := parameterKey_leads hq hc hk
    obtain ⟨q₂, hleads₂, hbehind⟩ := value_leads hbefore hv
    exact (ih hbehind hps).of_leads (hleads₁.trans hleads₂)
  | case1 => exact absurd h (by simp)
  | case5 => exact absurd h (by simp)
  | case6 => exact absurd h (by simp)

/-! ## Whole placeholders -/

/-- Nothing but the closing braces can come first. -/
def Stops (q : Stage) (ls : List Lexeme) : Prop :=
  q.next? .closing = some .closed ∧ ∀ l ∈ ls.head?, l.token ≠ .closing → q.next? l.token = none

/-- Behind the last argument only the closing braces can come. -/
theorem BehindValue.stops {q : Stage} {ls : List Lexeme} (h : BehindValue q ls)
    (hcomma : ∀ l ∈ ls.head?, l.token ≠ .comma) : Stops q ls := by
  obtain rfl | ⟨rfl | ⟨rfl, hequals⟩, -⟩ := h
  all_goals
    refine ⟨rfl, fun l hl hclosing => ?_⟩
    have hne := hcomma l hl
    cases ht : l.token <;> simp_all [Stage.next?]

theorem close_leads {ending : Ending} {q : Stage} {expected : List Expected} {n n' : Node}
    {ls : List Lexeme} (hq : q.next? .closing = some .closed)
    (h : close ending expected n ls = .ok n') : Leads q ls .closed [] := by
  obtain ⟨l, rfl, hl, -⟩ := close_cases h
  exact .cons (hl ▸ hq) (.refl _ _)

theorem close_misplaced {ending : Ending} {q : Stage} {expected : List Expected} {n : Node}
    {ls : List Lexeme} {f : Fault} (hq : Stops q ls) (hexpected : ∀ e ∈ expected, q.Admits e)
    (h : close ending expected n ls = .error f) : Misplaced ending q ls f := by
  obtain ⟨hclosing, hstops⟩ := hq
  have hlater : q ≠ .laterEquals := fun heq => by simp [heq, Stage.next?] at hclosing
  have hclosed : q ≠ .closed := fun heq => by simp [heq, Stage.next?] at hclosing
  cases ls with
  | nil => exact Except.error.inj h ▸ misplaced_nil ending hlater hclosed hexpected
  | cons l ls =>
    simp only [close] at h
    split at h
    · cases ls with
      | nil => exact absurd h (by simp)
      | cons l' ls =>
        obtain rfl := Except.error.inj h
        refine .cons (‹l.token = _› ▸ hclosing) ?_
        exact misplaced_fault ending ls (by simp) (by simp [Stage.next?]) (by simp [Stage.Admits])
    · obtain rfl := Except.error.inj h
      exact misplaced_fault ending ls hlater (hstops l rfl ‹_›) hexpected

/-- Before a name: the sign of a definition may have been there. -/
def BeforeName (q : Stage) (ls : List Lexeme) : Prop :=
  (∀ t, q.next? (.ident t) = some .settled) ∧
    ∀ l ∈ ls.head?, (∀ t, l.token ≠ .ident t) → q.next? l.token = none

theorem named_leads {ending : Ending} {q : Stage} {m : Modifier} {expected : List Expected}
    {ls : List Lexeme} {n : Node} (hq : BeforeName q ls)
    (h : named ending m expected ls = .ok n) : Leads q ls .closed [] := by
  cases ls with
  | nil => exact absurd h (by simp [named])
  | cons l ls =>
    simp only [named] at h
    split at h
    · split at h
      · exact absurd h (by simp)
      · obtain ⟨q', hleads, hbehind, hcomma⟩ := parameters_leads (.inl rfl) ‹_›
        have hname : q.next? l.token = some .settled := ‹l.token = _› ▸ hq.1 _
        exact .cons hname (hleads.trans (close_leads (hbehind.stops hcomma).1 h))
    · exact absurd h (by simp)

theorem named_misplaced {ending : Ending} {q : Stage} {m : Modifier} {expected : List Expected}
    {ls : List Lexeme} {f : Fault} (hq : BeforeName q ls)
    (hexpected : ∀ e ∈ expected, q.Admits e) (h : named ending m expected ls = .error f) :
    Misplaced ending q ls f := by
  obtain ⟨hname, hstops⟩ := hq
  have hlater : q ≠ .laterEquals := fun heq => by simpa [heq, Stage.next?] using hname []
  have hclosed : q ≠ .closed := fun heq => by simpa [heq, Stage.next?] using hname []
  cases ls with
  | nil => exact Except.error.inj h ▸ misplaced_nil ending hlater hclosed hexpected
  | cons l ls =>
    simp only [named] at h
    split at h
    · refine .cons (‹l.token = _› ▸ hname _) ?_
      split at h
      · obtain rfl := Except.error.inj h
        exact parameters_misplaced (.inl rfl) ‹_›
      · obtain ⟨q', hleads, hbehind, hcomma⟩ := parameters_leads (.inl rfl) ‹_›
        refine (close_misplaced (hbehind.stops hcomma) ?_ h).of_leads hleads
        obtain rfl | ⟨rfl | ⟨rfl, -⟩, -⟩ := hbehind
        all_goals simp [Stage.Admits, Stage.next?]
    · obtain rfl := Except.error.inj h
      exact misplaced_fault ending ls hlater (hstops l rfl ‹_›) hexpected

theorem beforeName_signed (ls : List Lexeme) : BeforeName .signed ls := by
  refine ⟨fun t => rfl, fun l _ hname => ?_⟩
  cases ht : l.token <;> simp_all [Stage.next?]

theorem beforeName_opened {l : Lexeme} {ls : List Lexeme} (hcomment : ∀ t, l.token ≠ .comment t)
    (hsign : l.token ≠ .atSign) : BeforeName .opened (l :: ls) := by
  refine ⟨fun t => rfl, fun l' hl' hname => ?_⟩
  obtain rfl : l = l' := by simpa using hl'
  cases ht : l.token <;> simp_all [Stage.next?]

theorem body_leads {ending : Ending} {ls : List Lexeme} {n : Node} (h : body ending ls = .ok n) :
    Leads .opened ls .closed [] := by
  cases ls with
  | nil => exact absurd h (by simp [body])
  | cons l ls =>
    simp only [body] at h
    split at h
    · split at h
      · exact absurd h (by simp)
      · refine .cons (p := .remarked) ?_ (close_leads rfl h)
        simp_all [Stage.next?]
    · exact .cons (p := .signed) (by simp [‹l.token = _›, Stage.next?])
        (named_leads (beforeName_signed ls) h)
    · exact named_leads (beforeName_opened ‹_› ‹_›) h

theorem body_misplaced {ending : Ending} {ls : List Lexeme} {f : Fault}
    (h : body ending ls = .error f) : Misplaced ending .opened ls f := by
  cases ls with
  | nil =>
    exact Except.error.inj h ▸
      misplaced_nil ending (by simp) (by simp) (by simp [Stage.Admits, Stage.next?])
  | cons l ls =>
    simp only [body] at h
    split at h
    · split at h
      · obtain rfl := Except.error.inj h
        refine .token (.refl _ _) (by simp) ?_ rfl rfl (by simp) (List.forall_mem_nil _)
        simp_all [Stage.next?]
      · refine .cons (p := .remarked) (by simp_all [Stage.next?]) (close_misplaced ?_ ?_ h)
        · refine ⟨rfl, fun l' _ hclosing => ?_⟩
          cases ht : l'.token <;> simp_all [Stage.next?]
        · simp [Stage.Admits, Stage.next?]
    · exact .cons (p := .signed) (by simp [‹l.token = _›, Stage.next?])
        (named_misplaced (beforeName_signed ls) (List.forall_mem_nil _) h)
    · exact named_misplaced (beforeName_opened ‹_› ‹_›) (by simp [Stage.Admits, Stage.next?]) h

/-- **The tokens of a placeholder lead to the closed stage.** -/
theorem parse_leads {s : Text} {n : Node} (h : parse s = .ok n) :
    Stage.start.after? (tokens (lex s)) = some .closed := by
  have hleads : Leads .start (lex s) .closed [] := by
    rw [parse] at h
    cases hl : lex s with
    | nil =>
      rw [hl] at h
      exact absurd h (by simp [ofLexemes])
    | cons l ls =>
      rw [hl] at h
      simp only [ofLexemes] at h
      split at h
      · exact .cons (p := .opened) (by simp [‹l.token = _›, Stage.next?]) (body_leads h)
      · exact absurd h (by simp)
  obtain ⟨taken, htaken, hclosed⟩ := hleads
  rwa [htaken, List.append_nil]

/-- **The fault of any other text is misplaced.** -/
theorem parse_misplaced {s : Text} {f : Fault} (h : parse s = .error f) :
    Misplaced (.of s (lex s)) .start (lex s) f := by
  rw [parse] at h
  cases hl : lex s with
  | nil =>
    rw [hl] at h
    exact Except.error.inj h ▸
      misplaced_nil _ (by simp) (by simp) (by simp [Stage.Admits, Stage.next?])
  | cons l ls =>
    rw [hl] at h
    simp only [ofLexemes] at h
    split at h
    · exact .cons (p := .opened) (by simp [‹l.token = _›, Stage.next?]) (body_misplaced h)
    · obtain rfl := Except.error.inj h
      refine misplaced_fault _ ls (by simp) ?_ (by simp [Stage.Admits, Stage.next?])
      cases ht : l.token <;> simp_all [Stage.next?]

end PromptTemplate.Placeholder
