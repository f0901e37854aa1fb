import PromptTemplate.Proofs.Placeholder.Offsets
import PromptTemplate.Proofs.Placeholder.Stages
import PromptTemplate.Proofs.Text.Slice

/-!
# Proofs/Placeholder/Placement — the two ends of a fault

    {{a b}}     from 4 to 5, the token `b`
    {{a,␣␣      from 6 to 4, behind the last byte and where the comma ends

A fault takes tokens in a row, or it is where the text ends, which it is only if no closing braces
have been read. So **the fault of an occurrence takes a part of it that is not empty**
(`exists_slice_of_parse`). The end of any other text starts behind the last byte, and stops where
the last token does. If blanks follow that token, the two are the wrong way round. **Both ends
always lie between characters of the text, and they are in order but for the end of a text with
blanks behind its last token** (`liesIn_of_parse`).
-/

namespace PromptTemplate.Placeholder

open Text Template

/-! ## Faults over tokens -/

/-- The fault takes tokens in a row. -/
def Fault.Covers (f : Fault) (ls : List Lexeme) : Prop :=
  ∃ m, ∃ h : m ≠ [], m <:+: ls ∧ f.start = (m.head h).start ∧ f.stop = (m.getLast h).stop

/-- A fault takes tokens in a row, or it is the one that tokens are missing at the end, where no
closing braces have been read. -/
theorem Misplaced.covers_or {ending : Ending} {q : Stage} {ls : List Lexeme} {f : Fault}
    (h : Misplaced ending q ls f) :
    f.Covers ls ∧ f.cause ≠ .unexpected none ∨
      f.start = ending.start ∧ f.stop = ending.stop ∧ f.cause = .unexpected none ∧
        ∀ l ∈ ls, l.token ≠ .closing := by
  cases h with
  | @token l rest q' hleads _ _ hstart hstop hcause _ =>
    obtain ⟨taken, rfl, -⟩ := hleads
    exact .inl ⟨⟨[l], List.cons_ne_nil _ _, ⟨taken, rest, by simp⟩, hstart, hstop⟩, hcause⟩
  | @ending q' hleads _ hclosed hstart hstop hcause _ =>
    obtain ⟨taken, rfl, hq'⟩ := hleads
    rw [List.append_nil]
    refine .inr ⟨hstart, hstop, hcause, fun l hl hclosing => hclosed ?_⟩
    exact Stage.eq_closed_of_mem hq' (List.mem_map.mpr ⟨l, hl, hclosing⟩)
  | @loose w rest q' hleads _ _ _ hf =>
    obtain ⟨taken, rfl, -⟩ := hleads
    subst hf
    refine .inl ⟨⟨w :: (pieces rest).1, List.cons_ne_nil _ _, ⟨taken, (pieces rest).2, ?_⟩,
      rfl, rfl⟩, by simp⟩
    rw [List.append_assoc, List.cons_append, pieces_append]
  | @stray e rest hleads _ _ hf =>
    obtain ⟨taken, rfl, -⟩ := hleads
    subst hf
    refine .inl ⟨⟨[e], List.cons_ne_nil _ _, ⟨taken, rest, by simp⟩, rfl, rfl⟩, ?_⟩
    simp [Lexeme.fault]

/-- **The fault of an occurrence takes a part of it that is not empty.** -/
theorem exists_slice_of_parse {body : Text} {f : Fault} (hbody : Unbraced body)
    (h : parse (braced body) = .error f) :
    ∃ a w b, w ≠ [] ∧ braced body = a ++ (w ++ b) ∧ f.start = bytes a ∧
      f.stop = bytes a + bytes w := by
  obtain ⟨⟨m, hne, hinfix, hstart, hstop⟩, -⟩ | ⟨-, -, -, hnone⟩ := (parse_misplaced h).covers_or
  · rw [hstart, hstop]
    exact exists_slice_of_infix hne hinfix
  · obtain ⟨l, hl, hclosing⟩ := exists_closing_mem_lex hbody
    exact absurd hclosing (hnone l hl)

/-! ## Blanks behind the last token -/

/-- Nothing but a gap stands behind the last token. -/
theorem exists_gap_of_getLast? {i : Nat} {s : Text} {l : Lexeme}
    (h : (lexFrom i s).getLast? = some l) :
    ∃ a g, s = a ++ g ∧ (∀ c ∈ g, Token.isGap c = true) ∧ l.stop = i + bytes a := by
  fun_induction lexFrom i s with
  | case1 => exact absurd h (by simp)
  | case2 i c r hc ih =>
    obtain ⟨a, g, rfl, hg, hstop⟩ := ih h
    refine ⟨c :: a, g, rfl, hg, ?_⟩
    rw [hstop, bytes_cons, Token.utf8Size_of_isGap hc, Nat.add_assoc]
  | case3 i c r hc stop ih =>
    have hslice := Token.first_append c r
    -- what is left behind the last token has no tokens, so it is a gap
    cases hrest : lexFrom stop (Token.first c r).2.2 with
    | nil =>
      rw [hrest] at h
      obtain rfl := Option.some.inj h
      exact ⟨_, _, hslice.symm, gap_of_lexFrom_eq_nil hrest, rfl⟩
    | cons l' ls =>
      rw [hrest, List.getLast?_cons_cons, ← hrest] at h
      obtain ⟨a, g, ha, hg, hstop⟩ := ih h
      refine ⟨(Token.first c r).2.1 ++ a, g, ?_, hg, ?_⟩
      · rw [List.append_assoc, ← ha, hslice]
      · rw [hstop, bytes_append, ← Nat.add_assoc]

/-- The text has tokens, and blanks behind the last one. -/
def TrailsBlank (s : Text) : Prop :=
  ∃ l a g, (lex s).getLast? = some l ∧ s = a ++ g ∧ g ≠ [] ∧ (∀ c ∈ g, Token.isGap c = true) ∧
    l.stop = bytes a

/-- The end of a text stops between two characters of it, and it stops before it starts just when
blanks trail. -/
theorem Ending.of_stop (s : Text) :
    (∃ a g, s = a ++ g ∧ (Ending.of s (lex s)).stop = bytes a) ∧
      ((Ending.of s (lex s)).stop < bytes s ↔ TrailsBlank s) := by
  rw [Ending.of]
  cases hlast : (lex s).getLast? with
  | none => exact ⟨⟨s, [], by simp, rfl⟩, by simp [TrailsBlank, hlast]⟩
  | some l =>
    obtain ⟨a, g, hs, hg, hstop⟩ := exists_gap_of_getLast? hlast
    rw [Nat.zero_add] at hstop
    refine ⟨⟨a, g, hs, hstop⟩, fun hlt => ?_, ?_⟩
    · refine ⟨l, a, g, hlast, hs, ?_, hg, hstop⟩
      rintro rfl
      rw [hs, List.append_nil] at hlt
      exact absurd hlt (by simp [hstop])
    · rintro ⟨l', a', g', hlast', rfl, hne, -, hstop'⟩
      obtain rfl := Option.some.inj (hlast.symm.trans hlast')
      rw [bytes_append]
      change l.stop < _
      rw [hstop']
      exact Nat.lt_add_of_pos_right (bytes_pos hne)

/-! ## The two ends of a fault -/

/-- The two ends of the fault lie in the text, between characters. -/
structure Fault.LiesIn (f : Fault) (s : Text) : Prop where
  start_le : f.start ≤ bytes s
  stop_le : f.stop ≤ bytes s
  isValid_start : String.Pos.Raw.IsValid (String.ofList s) ⟨f.start⟩
  isValid_stop : String.Pos.Raw.IsValid (String.ofList s) ⟨f.stop⟩

theorem Fault.LiesIn.of_cuts {f : Fault} {s a b c d : Text} (hab : s = a ++ b) (hcd : s = c ++ d)
    (hstart : f.start = bytes a) (hstop : f.stop = bytes c) : f.LiesIn s where
  start_le := by rw [hstart, hab, bytes_append]; exact Nat.le_add_right _ _
  stop_le := by rw [hstop, hcd, bytes_append]; exact Nat.le_add_right _ _
  isValid_start := by rw [hstart, hab]; exact isValid_append a b
  isValid_stop := by rw [hstop, hcd]; exact isValid_append c d

/-- **The two ends of a fault lie in the text and between characters**, and the end comes before the
start just when the text ends too early and blanks trail. -/
theorem liesIn_of_parse {s : Text} {f : Fault} (h : parse s = .error f) :
    f.LiesIn s ∧ (f.stop < f.start ↔ f.cause = .unexpected none ∧ TrailsBlank s) := by
  obtain ⟨⟨m, hne, hinfix, hstart, hstop⟩, hcause⟩ | ⟨hstart, hstop, hcause, -⟩ :=
    (parse_misplaced h).covers_or
  · obtain ⟨a, w, b, -, hs, hhead, hlast⟩ := exists_slice_of_infix hne hinfix
    have hs' : s = (a ++ w) ++ b := by rw [hs, List.append_assoc]
    rw [hhead] at hstart
    rw [hlast, ← bytes_append] at hstop
    refine ⟨.of_cuts hs hs' hstart hstop, fun hlt => ?_, fun hends => absurd hends.1 hcause⟩
    rw [hstart, hstop, bytes_append] at hlt
    omega
  · obtain ⟨⟨a, g, hs, hend⟩, htrails⟩ := Ending.of_stop s
    have hwhole : s = s ++ [] := (List.append_nil s).symm
    refine ⟨.of_cuts hwhole hs hstart (hstop.trans hend), ?_⟩
    rw [hstart, hstop, hcause]
    exact ⟨fun hlt => ⟨rfl, htrails.mp hlt⟩, fun hends => htrails.mpr hends.2⟩

/-- Two characters that take two bytes each, in a string that never ends. -/
theorem liesIn_of_parse_string :
    parse "\x7b\x7ba, b=\"éü".toList = .error ⟨7, 12, .unexpected (some .invalid), []⟩ ∧
      String.Pos.Raw.IsValid (String.ofList "\x7b\x7ba, b=\"éü".toList) ⟨12⟩ := by
  have h : parse "\x7b\x7ba, b=\"éü".toList = .error ⟨7, 12, .unexpected (some .invalid), []⟩ := by
    decide +kernel
  exact ⟨h, (liesIn_of_parse h).1.isValid_stop⟩

/-- The blank behind the opening braces puts the two ends of the fault the wrong way round. -/
theorem exists_parse_stop_lt_start :
    ∃ s f, parse s = .error f ∧ f.stop < f.start :=
  ⟨"\x7b\x7b ".toList, ⟨3, 2, .unexpected none, [.atSign]⟩, by decide +kernel, by decide⟩

end PromptTemplate.Placeholder
