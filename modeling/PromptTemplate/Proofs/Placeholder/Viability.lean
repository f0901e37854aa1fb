import Mathlib.Data.List.Chain
import PromptTemplate.Proofs.Placeholder.Offsets
import PromptTemplate.Proofs.Placeholder.Stages

/-!
# Proofs/Placeholder/Viability — what the tokens of placeholders begin with

    {{ a , b =     viable: {{a,b=""}} begins so
    {{ a b         not viable

Tokens are a `Sentence` if they are those of a placeholder, and `Viable` if those of one begin with
them. Both are told by their stage. For the one direction the parser has been followed; for the
other, tokens that lead somewhere are written one behind the other without blanks (`exists_text`),
and no fault is left for such a text, as it would be misplaced (`exists_parse_of_isChain`). So
**a sentence leads to the closed stage** (`sentence_iff`), and as every stage can be gone on from to
that one, **what leads to any stage is viable** (`viable_iff`).
-/

namespace PromptTemplate.Placeholder

open Text

/-! ## Rows of tokens -/

/-- The tokens of a placeholder. -/
def Sentence (ts : List Token) : Prop := ∃ s n, parse s = .ok n ∧ tokens (lex s) = ts

/-- Tokens that those of a placeholder begin with. -/
def Viable (ts : List Token) : Prop := ∃ s n, parse s = .ok n ∧ ts <+: tokens (lex s)

/-- Tokens that some text has. -/
def Token.Readable (t : Token) : Prop := ∃ w, t.Spelled w

/-- The second token begins where the first one ends. -/
def Touches (a b : Lexeme) : Prop := a.stop = b.start

instance : DecidableRel Touches := fun a b => inferInstanceAs (Decidable (a.stop = b.start))

variable {s : Text} {f : Fault} {q q' : Stage} {t u : Token} {ts : List Token}
  {l : Lexeme} {ls rest : List Lexeme}

theorem readable_of_mem_lexFrom {i : Nat} (h : l ∈ lexFrom i s) (hl : l.token ≠ .invalid) :
    l.token.Readable := by
  obtain ⟨a, c, r, -, -, rfl⟩ := exists_first_of_mem_lexFrom h
  exact ⟨_, Token.first_spelled c r hl⟩

theorem invalid_not_mem_of_after? (h : (q.after? ts).isSome) : .invalid ∉ ts := by
  induction ts generalizing q with
  | nil => exact List.not_mem_nil
  | cons t ts ih =>
    rw [Stage.after?_cons] at h
    cases hq : q.next? t with
    | none => simp [hq] at h
    | some q' =>
      rw [hq, Option.bind_some] at h
      intro hmem
      obtain rfl | hmem := List.mem_cons.mp hmem
      · cases Stage.step_of_next? hq
      · exact ih h hmem

/-- Tokens of a text that lead somewhere. -/
theorem readable_of_after? (hls : ls ⊆ lex s) (h : (q.after? (tokens ls)).isSome) :
    ∀ t ∈ tokens ls, t.Readable := by
  intro t ht
  obtain ⟨l, hl, rfl⟩ := List.mem_map.mp ht
  exact readable_of_mem_lexFrom (hls hl) fun hinvalid =>
    invalid_not_mem_of_after? h (hinvalid ▸ ht)

/-! ## Writing tokens without blanks -/

/-- Behind a word or an identifier a mark comes. -/
theorem Stage.Step.behind_word {q'' : Stage} (h : Step q t q') (ht : t.bare?.isSome = true)
    (hu : Step q' u q'') : u = .comma ∨ u = .equals ∨ u = .closing := by
  have hq' : q' = .settled ∨ q' = .key ∨ q' = .bare ∨ q' = .bareIdent := by
    cases h <;> simp_all [Token.bare?]
  obtain rfl | rfl | rfl | rfl := hq'
  all_goals cases hu <;> simp

/-- Two tokens that can come one behind the other are read as two without a blank between. -/
theorem Stage.Step.stops {q'' : Stage} {w : Text} (h : Step q t q') (hu : Step q' u q'')
    (hw : u.Spelled w) (r : Text) : t.Stops (w ++ r) := by
  have hword : t.bare?.isSome = true → Ends Token.isWordChar (w ++ r) := by
    intro ht
    obtain rfl | rfl | rfl := h.behind_word ht hu
    all_goals
      cases hw
      exact ends_cons.mpr rfl
  cases t with
  | comment t =>
    cases h
    cases hu
    cases hw
    exact ends_cons.mpr rfl
  | ident t => exact hword rfl
  | word t => exact hword rfl
  | _ => trivial

theorem stops_nil (t : Token) : t.Stops [] := by
  cases t with
  | comment t => exact ends_nil
  | ident t => exact ends_nil
  | word t => exact ends_nil
  | _ => trivial

/-- **Tokens that lead somewhere can be written without blanks.** -/
theorem exists_text (hts : ∀ t ∈ ts, t.Readable) (h : (q.after? ts).isSome) :
    ∃ s : Text, (∀ t q₀, Stage.Step q₀ t q → t.Stops s) ∧
      ∀ l : Lexeme, tokens (lexFrom l.stop s) = ts ∧ (l :: lexFrom l.stop s).IsChain Touches := by
  induction ts generalizing q with
  | nil => exact ⟨[], fun t _ _ => stops_nil t, fun l => by simp [lexFrom_nil]⟩
  | cons t ts ih =>
    obtain ⟨⟨w, hw⟩, hts⟩ := List.forall_mem_cons.mp hts
    rw [Stage.after?_cons] at h
    cases hq : q.next? t with
    | none => simp [hq] at h
    | some q' =>
      rw [hq, Option.bind_some] at h
      obtain ⟨s, hstops, hs⟩ := ih hts h
      have hstep := Stage.step_of_next? hq
      refine ⟨w ++ s, fun t₀ q₀ h₀ => h₀.stops hstep hw s, fun l => ?_⟩
      have hlex := lexFrom_append (List.forall_mem_nil _) hw (hstops t q hstep) l.stop
      rw [List.nil_append, bytes_nil, Nat.add_zero] at hlex
      obtain ⟨htokens, hchain⟩ := hs ⟨t, l.stop, l.stop + bytes w⟩
      rw [hlex]
      exact ⟨congrArg (t :: ·) htokens, hchain.cons_cons rfl⟩

/-! ## Which tokens are viable -/

theorem touching_of_isChain (h : ls.IsChain Touches) : touching ls = true := by
  fun_induction touching ls with
  | case1 a b ls ih =>
    obtain ⟨hab, hchain⟩ := List.isChain_cons_cons.mp h
    simp only [Bool.and_eq_true, decide_eq_true_eq]
    exact ⟨hab, ih hchain⟩
  | case2 => rfl

theorem beginsValue_cons (l : Lexeme) (ls : List Lexeme) :
    beginsValue (l :: ls) = (Stage.equals.next? l.token).isSome := by
  cases h : l.token <;> simp [beginsValue, h, Token.bare?, Stage.next?]

/-- **A text without blanks has no fault if its tokens lead to the closed stage.** -/
theorem exists_parse_of_isChain (hchain : (lex s).IsChain Touches)
    (h : Stage.start.after? (tokens (lex s)) = some .closed) : ∃ n, parse s = .ok n := by
  cases hparse : parse s with
  | ok n => exact ⟨n, rfl⟩
  | error f =>
    exfalso
    cases parse_misplaced hparse with
    | token hleads _ hnext =>
      obtain ⟨taken, htaken, hq⟩ := hleads
      rw [htaken, tokens_append, Stage.after?_append_of_eq_some hq, tokens_cons,
        Stage.after?_cons, hnext] at h
      exact absurd h (by simp)
    | ending hleads _ hclosed =>
      obtain ⟨taken, htaken, hq⟩ := hleads
      rw [htaken, List.append_nil, hq] at h
      exact hclosed (Option.some.inj h)
    | @loose w rest q' hleads _ _ htouch =>
      obtain ⟨taken, htaken, -⟩ := hleads
      have hpieces : w :: rest = (w :: (pieces rest).1) ++ (pieces rest).2 :=
        congrArg (w :: ·) (pieces_append rest).symm
      rw [htaken, hpieces] at hchain
      have hvalue := hchain.right_of_append.left_of_append
      rw [touching_of_isChain hvalue] at htouch
      exact absurd htouch (by simp)
    | @stray e rest hleads he hvalue =>
      obtain ⟨taken, htaken, hq⟩ := hleads
      rw [htaken, tokens_append, Stage.after?_append_of_eq_some hq, tokens_cons, he,
        Stage.after?_cons] at h
      cases rest with
      | nil => exact absurd h (by simp [Stage.next?])
      | cons l rest =>
        rw [beginsValue_cons] at hvalue
        have hnone : Stage.equals.next? l.token = none := by simpa using hvalue
        have hlater : Stage.bareIdent.next? .equals = some .laterEquals := rfl
        rw [hlater, Option.bind_some, tokens_cons, Stage.after?_cons, Stage.next?_laterEquals,
          hnone] at h
        exact absurd h (by simp)

/-- The tokens of a placeholder lead to the closed stage. -/
theorem after?_of_sentence (h : Sentence ts) : Stage.start.after? ts = some .closed := by
  obtain ⟨s, n, hparse, rfl⟩ := h
  exact parse_leads hparse

theorem sentence_of_after? (hts : ∀ t ∈ ts, t.Readable)
    (h : Stage.start.after? ts = some .closed) : Sentence ts := by
  have hsome : (Stage.start.after? ts).isSome := by simp [h]
  obtain ⟨s, -, hs⟩ := exists_text hts hsome
  obtain ⟨htokens, hchain⟩ := hs ⟨.invalid, 0, 0⟩
  have hlex : tokens (lex s) = ts := htokens
  obtain ⟨n, hn⟩ := exists_parse_of_isChain hchain.tail (by rw [hlex, h])
  exact ⟨s, n, hn, hlex⟩

/-- **Tokens are those of a placeholder if they lead to the closed stage.** -/
theorem sentence_iff (hts : ∀ t ∈ ts, t.Readable) :
    Sentence ts ↔ Stage.start.after? ts = some .closed :=
  ⟨after?_of_sentence, sentence_of_after? hts⟩

theorem Sentence.viable (h : Sentence ts) : Viable ts := by
  obtain ⟨s, n, hparse, rfl⟩ := h
  exact ⟨s, n, hparse, List.prefix_rfl⟩

theorem isSome_of_viable (h : Viable ts) : (Stage.start.after? ts).isSome := by
  obtain ⟨s, n, hparse, hprefix⟩ := h
  exact Stage.after?_isSome_of_isPrefix hprefix (by simp [parse_leads hparse])

/-- The shortest way from a stage to the closed one. -/
def Stage.completion : Stage → List Token
  | start => [.opening, .ident ['x'], .closing]
  | opened => [.ident ['x'], .closing]
  | signed => [.ident ['x'], .closing]
  | comma => [.ident ['x'], .equals, .quoted [], .closing]
  | key => [.equals, .quoted [], .closing]
  | equals => [.quoted [], .closing]
  | laterEquals => [.quoted [], .closing]
  | bareComma => [.ident ['x'], .closing]
  | closed => []
  | _ => [.closing]

theorem Stage.after?_completion (q : Stage) : q.after? q.completion = some .closed := by
  cases q <;> rfl

theorem readable_of_mem_completion (q : Stage) : ∀ t ∈ q.completion, t.Readable := by
  have hident : (Token.ident ['x']).Readable :=
    ⟨_, .ident (List.cons_ne_nil _ _) (List.forall_mem_singleton.mpr rfl)⟩
  have hquoted : (Token.quoted []).Readable := ⟨_, .quoted (List.forall_mem_nil _)⟩
  have hclosing : Token.closing.Readable := ⟨_, .closing⟩
  have hequals : Token.equals.Readable := ⟨_, .equals⟩
  have hopening : Token.opening.Readable := ⟨_, .opening⟩
  cases q <;> simp [Stage.completion, hident, hquoted, hclosing, hequals, hopening]

/-- **Tokens are viable if they lead to some stage.** -/
theorem viable_iff (hts : ∀ t ∈ ts, t.Readable) : Viable ts ↔ (Stage.start.after? ts).isSome := by
  refine ⟨isSome_of_viable, fun h => ?_⟩
  obtain ⟨q, hq⟩ := Option.isSome_iff_exists.mp h
  have hcompleted : Sentence (ts ++ q.completion) := by
    refine sentence_of_after? (List.forall_mem_append.mpr ⟨hts, readable_of_mem_completion q⟩) ?_
    rw [Stage.after?_append_of_eq_some hq, Stage.after?_completion]
  obtain ⟨s, n, hparse, htokens⟩ := hcompleted
  exact ⟨s, n, hparse, q.completion, htokens.symm⟩

end PromptTemplate.Placeholder
