import PromptTemplate.Placeholder.Parser
import PromptTemplate.Proofs.Placeholder.Grammar
import PromptTemplate.Proofs.Placeholder.Lexing

/-!
# Proofs/Placeholder/Soundness — what is read as a placeholder has a derivation

Each part of the parser is followed with the text that its tokens come from: what it takes off the
front of the tokens is, in the text, a part of a derivation, and the tokens it leaves are those of
what is left of the text. Where the parser asks that tokens touch, their gap is empty. **Every
placeholder has a derivation** (`parse_sound`).
-/

namespace PromptTemplate.Placeholder

open Text Grammar

/-- The first token of a text, taken apart. -/
theorem exists_gap {i : Nat} {s : Text} {l : Lexeme} {ls : List Lexeme} {t : Token}
    (h : lexFrom i s = l :: ls) (hl : l.token = t) (ht : t ≠ .invalid) :
    ∃ (g : Gap) (w r : Text), s = g.val ++ (w ++ r) ∧ l.start = i + bytes g.val ∧
      ls = lexFrom l.stop r ∧ t.Spelled w := by
  obtain ⟨g, w, r, hg, hs, hstart, hrest, hw⟩ := exists_of_lexFrom_eq_cons h
  exact ⟨⟨g, hg⟩, w, r, hs, hstart, hrest.symm, hl ▸ hw (hl ▸ ht)⟩

/-! ## Values -/

/-- The slice of a token that can be part of an unquoted value. -/
theorem Token.Spelled.of_bare {t : Token} {w v : Text} (h : t.Spelled w) (hv : t.bare? = some v) :
    ∃ x : Word, x.val = w ∧ v = w := by
  cases h with
  | ident hne hw =>
    exact ⟨⟨w, hne, fun c hc => Token.isWordChar_of_isIdentChar (hw c hc)⟩, rfl,
      (Option.some.inj hv).symm⟩
  | word hne hw _ => exact ⟨⟨w, hne, hw⟩, rfl, (Option.some.inj hv).symm⟩
  | _ => exact absurd hv (by simp [Token.bare?])

theorem ne_invalid_of_bare {t : Token} {v : Text} (hv : t.bare? = some v) : t ≠ .invalid := by
  rintro rfl
  exact absurd hv (by simp [Token.bare?])

theorem Gap.eq_nil {g : Gap} {i j : Nat} (h : i = j) (hj : j = i + bytes g.val) : g.val = [] :=
  bytes_eq_zero.mp (by omega)

theorem pieceText_of_bare {l : Lexeme} {t : Text} (h : l.token.bare? = some t) :
    pieceText l = t := by rw [pieceText, h]

theorem pieceText_comma {l : Lexeme} (h : l.token = .comma) : pieceText l = [','] := by
  rw [pieceText, h]
  rfl

theorem pieces_sound {w : Lexeme} {r : Text} {ls : List Lexeme} (h : ls = lexFrom w.stop r)
    (htouch : touching (w :: (pieces ls).1) = true) :
    ∃ (ws : List Word) (i : Nat) (r' : Text), (pieces ls).1.flatMap pieceText = wordsText ws ∧
      r = wordsText ws ++ r' ∧ (pieces ls).2 = lexFrom i r' := by
  fun_induction pieces ls generalizing w r with
  | case1 c x ls hpiece ps rest hp ih =>
    obtain ⟨hc, hx, -⟩ := hpiece
    obtain ⟨v, hv⟩ := Option.isSome_iff_exists.mp hx
    obtain ⟨g, _, r₁, rfl, hstart, hrest, ⟨⟩⟩ := exists_gap h.symm hc (by simp)
    obtain ⟨g', y, r₂, rfl, hstart', hrest', hy⟩ :=
      exists_gap hrest.symm rfl (ne_invalid_of_bare hv)
    simp only [touching, Bool.and_eq_true, decide_eq_true_eq] at htouch
    obtain ⟨hwc, hcx, htouch⟩ := htouch
    obtain ⟨y', rfl, rfl⟩ := hy.of_bare hv
    obtain ⟨ws, i, r', htext, rfl, hls⟩ := ih hrest' (by rw [hp]; exact htouch)
    rw [hp] at htext hls
    refine ⟨y' :: ws, i, r', ?_, ?_, hls⟩
    · simp [htext, pieceText_comma hc, pieceText_of_bare hv, wordsText]
    · simp [Gap.eq_nil hwc hstart, Gap.eq_nil hcx hstart', wordsText]
  | case2 => exact ⟨[], _, r, rfl, rfl, h⟩
  | case3 => exact ⟨[], _, r, rfl, rfl, h⟩

theorem bareValue_sound {w : Lexeme} {r v : Text} {rest : List Lexeme} {x : Word}
    (hx : w.token.bare? = some x.val) (h : bareValue w (lexFrom w.stop r) = .ok (v, rest)) :
    ∃ (V : Value) (i : Nat) (r' : Text), x.val ++ r = V.text ++ r' ∧ V.content = v ∧
      rest = lexFrom i r' := by
  simp only [bareValue] at h
  split at h
  · split at h
    · exact absurd h (by simp)
    · obtain ⟨rfl, rfl⟩ := Prod.mk.inj (Except.ok.inj h)
      obtain ⟨ws, i, r', htext, rfl, hrest⟩ := pieces_sound rfl ‹_›
      refine ⟨.bare x ws, i, r', ?_, ?_, hrest⟩
      · rw [Value.text, List.append_assoc]
      · rw [List.flatMap_cons, htext, pieceText, hx, Value.content]
  · exact absurd h (by simp)

/-- The two kinds of values. -/
theorem value_cases {ending : Ending} {ls rest : List Lexeme} {v : Text}
    (h : value ending ls = .ok (v, rest)) :
    ∃ l ls', ls = l :: ls' ∧ (l.token = .quoted v ∧ rest = ls' ∨
      ∃ t, l.token.bare? = some t ∧ bareValue l ls' = .ok (v, rest)) := by
  cases ls with
  | nil => exact absurd h (by simp [value])
  | cons l ls' =>
    refine ⟨l, ls', rfl, ?_⟩
    simp only [value] at h
    split at h
    · obtain ⟨rfl, rfl⟩ := Prod.mk.inj (Except.ok.inj h)
      exact .inl ⟨‹_›, rfl⟩
    · exact .inr ⟨_, by rw [‹l.token = _›]; rfl, h⟩
    · exact .inr ⟨_, by rw [‹l.token = _›]; rfl, h⟩
    · exact absurd h (by simp)

theorem value_sound {ending : Ending} {i : Nat} {s v : Text} {rest : List Lexeme}
    (h : value ending (lexFrom i s) = .ok (v, rest)) :
    ∃ (g : Gap) (V : Value) (j : Nat) (r : Text), s = g.val ++ (V.text ++ r) ∧ V.content = v ∧
      rest = lexFrom j r := by
  obtain ⟨l, ls, hl, ⟨hquoted, rfl⟩ | ⟨t, ht, hbare⟩⟩ := value_cases h
  · obtain ⟨g, _, r, rfl, -, hrest, hw⟩ := exists_gap hl hquoted (by simp)
    cases hw with
    | quoted ht => exact ⟨g, .quoted ⟨v, ht⟩, _, r, rfl, rfl, hrest⟩
  · obtain ⟨g, _, r, rfl, -, rfl, hw⟩ := exists_gap hl rfl (ne_invalid_of_bare ht)
    obtain ⟨x, rfl, rfl⟩ := hw.of_bare ht
    obtain ⟨V, j, r', htext, hv, hrest⟩ := bareValue_sound ht hbare
    exact ⟨g, V, j, r', by rw [htext], hv, hrest⟩

/-! ## Arguments -/

theorem parameterKey_cases {ending : Ending} {ls rest : List Lexeme} {k : Text}
    (h : parameterKey ending ls = .ok (k, rest)) :
    ∃ l e, ls = l :: e :: rest ∧ l.token = .ident k ∧ e.token = .equals := by
  simp only [parameterKey] at h
  split at h
  · exact absurd h (by simp)
  · split at h
    · split at h
      · split at h
        · obtain ⟨rfl, rfl⟩ := Prod.mk.inj (Except.ok.inj h)
          exact ⟨_, _, rfl, ‹_›, ‹_›⟩
        · exact absurd h (by simp)
      · exact absurd h (by simp)
    · exact absurd h (by simp)

theorem Token.Spelled.of_ident {t w : Text} (h : (Token.ident t).Spelled w) :
    ∃ n : Name, n.val = w ∧ t = w := by
  cases h with
  | ident hne hw => exact ⟨⟨_, hne, hw⟩, rfl, rfl⟩

theorem parameters_sound {ending : Ending} {i : Nat} {s : Text} {ls rest : List Lexeme}
    {ps : List Parameter} (hs : ls = lexFrom i s) (h : parameters ending ls = .ok (ps, rest)) :
    ∃ (as : List Argument) (j : Nat) (r : Text), s = as.flatMap Argument.text ++ r ∧
      as.map Argument.parameter = ps ∧ rest = lexFrom j r := by
  fun_induction parameters ending ls generalizing i s ps rest with
  | case1 =>
    obtain ⟨rfl, rfl⟩ := Prod.mk.inj (Except.ok.inj h)
    exact ⟨[], i, s, rfl, rfl, hs⟩
  | case5 c ls hc k afterKey hk v afterValue hv ps' rest' hps ih =>
    obtain ⟨rfl, rfl⟩ := Prod.mk.inj (Except.ok.inj h)
    obtain ⟨l, e, rfl, hl, he⟩ := parameterKey_cases hk
    obtain ⟨g₁, _, r₁, rfl, -, h₁, ⟨⟩⟩ := exists_gap hs.symm hc (by simp)
    obtain ⟨g₂, _, r₂, rfl, -, h₂, hkey⟩ := exists_gap h₁.symm hl (by simp)
    obtain ⟨key, rfl, rfl⟩ := hkey.of_ident
    obtain ⟨g₃, _, r₃, rfl, -, rfl, ⟨⟩⟩ := exists_gap h₂.symm he (by simp)
    obtain ⟨g₄, V, j, r₄, rfl, rfl, hrest⟩ := value_sound hv
    obtain ⟨as, j', r', rfl, rfl, hrest'⟩ := ih hrest hps
    refine ⟨⟨g₁, g₂, key, g₃, g₄, V⟩ :: as, j', r', ?_, rfl, hrest'⟩
    simp [Argument.text]
  | case6 c ls hc =>
    obtain ⟨rfl, rfl⟩ := Prod.mk.inj (Except.ok.inj h)
    exact ⟨[], i, s, rfl, rfl, hs⟩
  | case2 => exact absurd h (by simp)
  | case3 => exact absurd h (by simp)
  | case4 => exact absurd h (by simp)

/-! ## Whole placeholders -/

theorem close_cases {ending : Ending} {expected : List Expected} {n n' : Node} {ls : List Lexeme}
    (h : close ending expected n ls = .ok n') : ∃ l, ls = [l] ∧ l.token = .closing ∧ n' = n := by
  cases ls with
  | nil => exact absurd h (by simp [close])
  | cons l ls =>
    simp only [close] at h
    split at h
    · split at h
      · exact ⟨l, by simpa using ‹ls.isEmpty = true›, ‹_›, (Except.ok.inj h).symm⟩
      · exact absurd h (by simp)
    · exact absurd h (by simp)

theorem close_sound {ending : Ending} {expected : List Expected} {n n' : Node} {i : Nat} {s : Text}
    (h : close ending expected n (lexFrom i s) = .ok n') :
    n' = n ∧ ∃ behind after : Gap, s = closingText behind after := by
  obtain ⟨l, hl, hclosing, rfl⟩ := close_cases h
  obtain ⟨g, _, r, rfl, -, hr, ⟨⟩⟩ := exists_gap hl hclosing (by simp)
  exact ⟨rfl, g, ⟨r, gap_of_lexFrom_eq_nil hr.symm⟩, rfl⟩

theorem named_sound {ending : Ending} {m : Modifier} {expected : List Expected} {n : Node} {i : Nat}
    {s : Text} (h : named ending m expected (lexFrom i s) = .ok n) :
    ∃ (g : Gap) (name : Name) (as : List Argument) (behind after : Gap),
      s = g.val ++ (name.val ++ tailText as behind after) ∧
        n = ⟨m, name.val, as.map Argument.parameter⟩ := by
  cases hl : lexFrom i s with
  | nil =>
    rw [hl] at h
    exact absurd h (by simp [named])
  | cons l ls =>
    rw [hl] at h
    simp only [named] at h
    split at h
    · split at h
      · exact absurd h (by simp)
      · obtain ⟨g, _, r, rfl, -, rfl, hname⟩ := exists_gap hl ‹_› (by simp)
        obtain ⟨name, rfl, rfl⟩ := hname.of_ident
        obtain ⟨as, j, r', rfl, rfl, rfl⟩ := parameters_sound rfl ‹_›
        obtain ⟨rfl, behind, after, rfl⟩ := close_sound h
        exact ⟨g, name, as, behind, after, rfl, rfl⟩
    · exact absurd h (by simp)

theorem body_sound {ending : Ending} {n : Node} {i : Nat} {s : Text}
    (h : body ending (lexFrom i s) = .ok n) :
    ∃ (inside : Gap) (b : Body) (behind after : Gap),
      s = inside.val ++ (b.text ++ closingText behind after) ∧ n = b.node := by
  cases hl : lexFrom i s with
  | nil =>
    rw [hl] at h
    exact absurd h (by simp [body])
  | cons l ls =>
    rw [hl] at h
    simp only [body] at h
    split at h
    · split at h
      · exact absurd h (by simp)
      · obtain ⟨g, _, r, rfl, -, rfl, hw⟩ := exists_gap hl ‹_› (by simp)
        obtain ⟨rfl, behind, after, rfl⟩ := close_sound h
        cases hw with
        | comment ht =>
          have hblank : isAllBlank _ = false :=
            Bool.eq_false_iff.mpr (mt trim_eq_nil.mpr (by simpa using ‹¬List.isEmpty _ = true›))
          exact ⟨g, .comment ⟨_, ht, hblank⟩, behind, after, rfl, rfl⟩
    · obtain ⟨g, _, r, rfl, -, rfl, ⟨⟩⟩ := exists_gap hl ‹_› (by simp)
      obtain ⟨g', name, as, behind, after, rfl, rfl⟩ := named_sound h
      refine ⟨g, .named (some g') name as, behind, after, ?_, rfl⟩
      simp [Body.text, signText, tailText]
    · rw [← hl] at h
      obtain ⟨g, name, as, behind, after, rfl, rfl⟩ := named_sound h
      refine ⟨g, .named none name as, behind, after, ?_, rfl⟩
      simp [Body.text, signText, tailText]

/-- **Every placeholder has a derivation.** -/
theorem parse_sound {s : Text} {n : Node} (h : parse s = .ok n) :
    ∃ d : Derivation, d.text = s ∧ d.node = n := by
  rw [parse, lex] at h
  cases hl : lexFrom 0 s with
  | nil =>
    rw [hl] at h
    exact absurd h (by simp [ofLexemes])
  | cons l ls =>
    rw [hl] at h
    simp only [ofLexemes] at h
    split at h
    · obtain ⟨before, _, r, rfl, -, rfl, ⟨⟩⟩ := exists_gap hl ‹_› (by simp)
      obtain ⟨inside, b, behind, after, rfl, rfl⟩ := body_sound h
      exact ⟨⟨before, inside, b, behind, after⟩, rfl, rfl⟩
    · exact absurd h (by simp)

end PromptTemplate.Placeholder
