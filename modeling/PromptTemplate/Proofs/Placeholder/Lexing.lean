import PromptTemplate.Proofs.Text.Run
import PromptTemplate.Placeholder.Token

/-!
# Proofs/Placeholder/Lexing — a token is what its slice spells

    "tone = dry}}"   →   gap "", slice "tone"; gap " ", slice "="; …

`Spelled` says which slices are a token, and `Stops` what may stand behind one. **A slice behind a
gap is the first token of a text** (`lexFrom_append`), and the first token of a text is a slice
behind a gap (`exists_of_lexFrom_eq_cons`), so that a text and its tokens can be taken apart side
by side.
-/

namespace PromptTemplate.Placeholder

open Text

namespace Token

/-! ## One token -/

/-- The slices that are read as a token. -/
inductive Spelled : Token → Text → Prop
  | opening : Spelled .opening ['\x7b', '\x7b']
  | closing : Spelled .closing ['\x7d', '\x7d']
  | atSign : Spelled .atSign ['@']
  | comma : Spelled .comma [',']
  | equals : Spelled .equals ['=']
  | comment {t : Text} : (∀ c ∈ t, isBrace c = false) → Spelled (.comment (trim t)) ('#' :: t)
  | ident {t : Text} : t ≠ [] → (∀ c ∈ t, isIdentChar c = true) → Spelled (.ident t) t
  | word {t : Text} : t ≠ [] → (∀ c ∈ t, isWordChar c = true) →
      ¬ (∀ c ∈ t, isIdentChar c = true) → Spelled (.word t) t
  | quoted {t : Text} : (∀ c ∈ t, isStringChar c = true) → Spelled (.quoted t) ('"' :: (t ++ ['"']))

/-- What can stand behind a token without making it longer. -/
def Stops (t : Token) (s : Text) : Prop :=
  match t with
  | .ident _ => Ends isWordChar s
  | .word _ => Ends isWordChar s
  | .comment _ => Ends (!isBrace ·) s
  | _ => True

theorem first_spelled (c : Char) (r : Text) (h : (first c r).1 ≠ .invalid) :
    Spelled (first c r).1 (first c r).2.1 := by
  revert h
  simp only [first]
  split
  · rename_i hc
    intro _
    have hrun : ∀ d ∈ c :: r.takeWhile isWordChar, isWordChar d = true :=
      List.forall_mem_cons.mpr ⟨hc, fun d hd => List.mem_takeWhile_imp hd⟩
    split
    · exact .ident (List.cons_ne_nil _ _) (List.all_eq_true.mp ‹_›)
    · exact .word (List.cons_ne_nil _ _) hrun (mt List.all_eq_true.mpr ‹_›)
  split
  · rename_i hc
    intro _
    exact hc ▸ .comment fun d hd => by simpa using List.mem_takeWhile_imp hd
  split
  · rename_i hc
    split
    · intro _
      rw [hc]
      exact .quoted fun d hd => List.mem_takeWhile_imp hd
    · intro h
      exact absurd rfl h
  split
  · rename_i hc
    exact fun _ => hc ▸ .atSign
  split
  · rename_i hc
    exact fun _ => hc ▸ .comma
  split
  · rename_i hc
    exact fun _ => hc ▸ .equals
  split
  · exact fun _ => .opening
  · exact fun _ => .closing
  · exact fun h => absurd rfl h

/-- A run of word characters is one token. -/
theorem first_word {c : Char} {v r : Text} (hv : ∀ d ∈ c :: v, isWordChar d = true)
    (hr : Ends isWordChar r) :
    first c (v ++ r) =
      (if (c :: v).all isIdentChar then .ident (c :: v) else .word (c :: v), c :: v, r) := by
  obtain ⟨hc, hv⟩ := List.forall_mem_cons.mp hv
  simp only [first, hc, if_true, takeWhile_of_ends hv hr, dropWhile_of_ends hv hr]

/-- **A slice is read as its token** where the text does not make it longer. -/
theorem Spelled.first_append {t : Token} {w r : Text} (h : Spelled t w) (hr : t.Stops r) :
    ∃ c v, w = c :: v ∧ isGap c = false ∧ first c (v ++ r) = (t, w, r) := by
  cases h with
  | opening => exact ⟨_, _, rfl, rfl, rfl⟩
  | closing => exact ⟨_, _, rfl, rfl, rfl⟩
  | atSign => exact ⟨_, _, rfl, rfl, rfl⟩
  | comma => exact ⟨_, _, rfl, rfl, rfl⟩
  | equals => exact ⟨_, _, rfl, rfl, rfl⟩
  | @comment t ht =>
    have ht' : ∀ c ∈ t, (!isBrace c) = true := fun c hc => by simp [ht c hc]
    refine ⟨'#', t, rfl, rfl, ?_⟩
    have hsign : isWordChar '#' = false := rfl
    simp [first, hsign, takeWhile_of_ends ht' hr, dropWhile_of_ends ht' hr]
  | ident hne ht =>
    obtain ⟨c, v, rfl⟩ := List.exists_cons_of_ne_nil hne
    have hword : ∀ d ∈ c :: v, isWordChar d = true :=
      fun d hd => isWordChar_of_isIdentChar (ht d hd)
    refine ⟨c, v, rfl, isGap_of_isWordChar (hword c List.mem_cons_self), ?_⟩
    rw [first_word hword hr, if_pos (List.all_eq_true.mpr ht)]
  | word hne hword hident =>
    obtain ⟨c, v, rfl⟩ := List.exists_cons_of_ne_nil hne
    refine ⟨c, v, rfl, isGap_of_isWordChar (hword c List.mem_cons_self), ?_⟩
    rw [first_word hword hr, if_neg (mt List.all_eq_true.mp hident)]
  | @quoted t ht =>
    have hstop : Ends isStringChar ('"' :: r) := ends_cons.mpr rfl
    have hquote : isWordChar '"' = false := rfl
    refine ⟨'"', t ++ ['"'], rfl, rfl, ?_⟩
    simp [first, hquote, takeWhile_of_ends ht hstop, dropWhile_of_ends ht hstop]

end Token

/-! ## Whole texts -/

theorem lexFrom_nil (i : Nat) : lexFrom i [] = [] := by rw [lexFrom]

theorem lexFrom_gap {g : Text} (hg : ∀ c ∈ g, Token.isGap c = true) (i : Nat) (s : Text) :
    lexFrom i (g ++ s) = lexFrom (i + bytes g) s := by
  induction g generalizing i with
  | nil => rfl
  | cons c g ih =>
    obtain ⟨hc, hg⟩ := List.forall_mem_cons.mp hg
    rw [List.cons_append, lexFrom, if_pos hc, ih hg, bytes_cons, Token.utf8Size_of_isGap hc,
      Nat.add_assoc]

theorem lexFrom_of_gap {g : Text} (hg : ∀ c ∈ g, Token.isGap c = true) (i : Nat) :
    lexFrom i g = [] := by
  have h := lexFrom_gap hg i []
  rwa [List.append_nil, lexFrom_nil] at h

/-- **A slice behind a gap is the first token.** -/
theorem lexFrom_append {g w r : Text} {t : Token} (hg : ∀ c ∈ g, Token.isGap c = true)
    (hw : t.Spelled w) (hr : t.Stops r) (i : Nat) :
    lexFrom i (g ++ (w ++ r)) =
      ⟨t, i + bytes g, i + bytes g + bytes w⟩ :: lexFrom (i + bytes g + bytes w) r := by
  obtain ⟨c, v, rfl, hc, hfirst⟩ := hw.first_append hr
  rw [lexFrom_gap hg, List.cons_append, lexFrom, if_neg (by simp [hc]), hfirst]

theorem gap_of_lexFrom_eq_nil {i : Nat} {s : Text} (h : lexFrom i s = []) :
    ∀ c ∈ s, Token.isGap c = true := by
  fun_induction lexFrom i s with
  | case1 => exact List.forall_mem_nil _
  | case2 i c r hc ih => exact List.forall_mem_cons.mpr ⟨hc, ih h⟩
  | case3 => exact absurd h (List.cons_ne_nil _ _)

/-- A text with a token is a gap, the slice of the token, and what is read behind it. -/
theorem exists_of_lexFrom_eq_cons {i : Nat} {s : Text} {l : Lexeme} {ls : List Lexeme}
    (h : lexFrom i s = l :: ls) :
    ∃ g w r, (∀ c ∈ g, Token.isGap c = true) ∧ s = g ++ (w ++ r) ∧ l.start = i + bytes g ∧
      lexFrom l.stop r = ls ∧ (l.token ≠ .invalid → l.token.Spelled w) := by
  fun_induction lexFrom i s with
  | case1 => exact absurd h.symm (List.cons_ne_nil _ _)
  | case2 i c r hc ih =>
    obtain ⟨g, w, r, hg, rfl, hstart, hrest, hspelled⟩ := ih h
    refine ⟨c :: g, w, r, List.forall_mem_cons.mpr ⟨hc, hg⟩, rfl, ?_, hrest, hspelled⟩
    rw [hstart, bytes_cons, Token.utf8Size_of_isGap hc, Nat.add_assoc]
  | case3 i c r hc stop ih =>
    obtain ⟨rfl, rfl⟩ := List.cons.inj h
    exact ⟨[], _, _, List.forall_mem_nil _, (Token.first_append c r).symm, rfl, rfl,
      Token.first_spelled c r⟩

end PromptTemplate.Placeholder
