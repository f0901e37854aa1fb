import PromptTemplate.Proofs.Placeholder.Lexing
import PromptTemplate.Proofs.Template.Scanning

/-!
# Proofs/Placeholder/Offsets — the bytes that tokens take

    {{ a , b }}
    └┘ ╵ ╵ ╵ └┘     bytes 0 to 2, 3 to 4, 5 to 6, 7 to 8 and 9 to 11

A token takes the bytes of its slice, which is not empty (`exists_of_mem_lexFrom`), and tokens
stand from left to right (`pairwise_lexFrom`). So **tokens in a row take a part of the text**
(`exists_slice_of_infix`). In an occurrence no other token takes the braces at the end: **one of
its tokens is the closing one** (`exists_closing_mem_lex`).
-/

namespace PromptTemplate.Placeholder

open Text Template

/-! ## Every token -/

/-- **Each token is the first one of what the text has from its start on.** -/
theorem exists_first_of_mem_lexFrom {i : Nat} {s : Text} {l : Lexeme} (h : l ∈ lexFrom i s) :
    ∃ a c r, s = a ++ c :: r ∧ Token.isGap c = false ∧ l = ⟨(Token.first c r).1, i + bytes a,
      i + bytes a + bytes (Token.first c r).2.1⟩ := by
  fun_induction lexFrom i s with
  | case1 => exact absurd h List.not_mem_nil
  | case2 i d r hd ih =>
    obtain ⟨a, c, r, rfl, hc, rfl⟩ := ih h
    refine ⟨d :: a, c, r, rfl, hc, ?_⟩
    rw [bytes_cons, Token.utf8Size_of_isGap hd, Nat.add_assoc i]
  | case3 i d r hd stop ih =>
    obtain rfl | hmem := List.mem_cons.mp h
    · exact ⟨[], d, r, rfl, Bool.eq_false_iff.mpr hd, rfl⟩
    · obtain ⟨a, c, r', hrest, hc, rfl⟩ := ih hmem
      refine ⟨(Token.first d r).2.1 ++ a, c, r', ?_, hc, ?_⟩
      · rw [List.append_assoc, ← hrest, Token.first_append]
      · rw [bytes_append, ← Nat.add_assoc]

/-- A token takes the bytes of a part of the text that is not empty. -/
theorem exists_of_mem_lexFrom {i : Nat} {s : Text} {l : Lexeme} (h : l ∈ lexFrom i s) :
    ∃ a w b, w ≠ [] ∧ s = a ++ (w ++ b) ∧ l.start = i + bytes a ∧
      l.stop = i + bytes a + bytes w := by
  obtain ⟨a, c, r, rfl, -, rfl⟩ := exists_first_of_mem_lexFrom h
  refine ⟨a, _, (Token.first c r).2.2, Token.first_slice_ne_nil c r, ?_, rfl, rfl⟩
  rw [Token.first_append]

theorem le_start_lt_stop_of_mem_lexFrom {i : Nat} {s : Text} {l : Lexeme} (h : l ∈ lexFrom i s) :
    i ≤ l.start ∧ l.start < l.stop := by
  obtain ⟨a, w, b, hw, -, hstart, hstop⟩ := exists_of_mem_lexFrom h
  have hbytes := bytes_pos hw
  omega

/-- **A token ends before the next one begins.** -/
theorem pairwise_lexFrom (i : Nat) (s : Text) :
    (lexFrom i s).Pairwise fun l l' => l.stop ≤ l'.start := by
  fun_induction lexFrom i s with
  | case1 => exact .nil
  | case2 i c r hc ih => exact ih
  | case3 i c r hc stop ih => exact .cons (fun l hl => (le_start_lt_stop_of_mem_lexFrom hl).1) ih

/-! ## Tokens in a row -/

/-- What stands between two cuts of a text. -/
theorem exists_between_of_le {a b c d : Text} (h : a ++ b = c ++ d) (hle : bytes a ≤ bytes c) :
    ∃ w, c = a ++ w ∧ b = w ++ d := by
  obtain ⟨w, hc, hb⟩ | ⟨w, ha, hd⟩ := List.append_eq_append_iff.mp h
  · exact ⟨w, hc, hb⟩
  · rw [ha, bytes_append] at hle
    obtain rfl : w = [] := bytes_eq_zero.mp (by omega)
    exact ⟨[], by rw [ha, List.append_nil, List.append_nil], hd.symm⟩

theorem exists_between {a b c d : Text} (h : a ++ b = c ++ d) (hlt : bytes a < bytes c) :
    ∃ w, w ≠ [] ∧ c = a ++ w ∧ b = w ++ d := by
  obtain ⟨w, rfl, hb⟩ := exists_between_of_le h (Nat.le_of_lt hlt)
  refine ⟨w, ?_, rfl, hb⟩
  rintro rfl
  rw [List.append_nil] at hlt
  exact absurd hlt (Nat.lt_irrefl _)

theorem start_head_lt_stop_getLast {i : Nat} {s : Text} {m : List Lexeme} (hne : m ≠ [])
    (h : m <:+: lexFrom i s) : (m.head hne).start < (m.getLast hne).stop := by
  have hlt : ∀ l ∈ m, l.start < l.stop := fun l hl => (le_start_lt_stop_of_mem_lexFrom (h.subset hl)).2
  have hpairwise := (pairwise_lexFrom i s).sublist h.sublist
  obtain ⟨l, ls, rfl⟩ := List.exists_cons_of_ne_nil hne
  have hl := hlt l List.mem_cons_self
  cases ls with
  | nil => exact hl
  | cons l' ls =>
    have hlast := List.getLast_mem (List.cons_ne_nil l' ls)
    have hle := (List.pairwise_cons.mp hpairwise).1 _ hlast
    have hlt' := hlt _ (List.mem_cons_of_mem l hlast)
    rw [List.head_cons, List.getLast_cons (List.cons_ne_nil l' ls)]
    omega

/-- **Tokens in a row take a part of the text**, from the start of the first to the end of the
last. -/
theorem exists_slice_of_infix {s : Text} {m : List Lexeme} (hne : m ≠ []) (h : m <:+: lex s) :
    ∃ a w b, w ≠ [] ∧ s = a ++ (w ++ b) ∧ (m.head hne).start = bytes a ∧
      (m.getLast hne).stop = bytes a + bytes w := by
  obtain ⟨a, v, b, -, hs, hstart, -⟩ := exists_of_mem_lexFrom (h.subset (List.head_mem hne))
  obtain ⟨c, w, d, -, hs', -, hstop⟩ := exists_of_mem_lexFrom (h.subset (List.getLast_mem hne))
  rw [Nat.zero_add] at hstart
  rw [Nat.zero_add, ← bytes_append] at hstop
  have hlt := start_head_lt_stop_getLast hne h
  rw [hstart, hstop] at hlt
  have hcuts : a ++ (v ++ b) = (c ++ w) ++ d := by rw [← hs, hs', List.append_assoc]
  obtain ⟨x, hx, hcx, hbx⟩ := exists_between hcuts hlt
  refine ⟨a, x, d, hx, ?_, hstart, ?_⟩
  · rw [hs, hbx]
  · rw [hstop, hcx, bytes_append]

/-! ## The closing braces of an occurrence -/

/-- A token that does not begin with a brace holds none. -/
theorem unbraced_first_slice {c : Char} (hc : Token.isBrace c = false) (r : Text) :
    Unbraced (Token.first c r).2.1 := by
  have hword : Unbraced (r.takeWhile Token.isWordChar) :=
    unbraced_of_class rfl rfl (List.all_eq_true.mp List.all_takeWhile)
  have hcomment : Unbraced (r.takeWhile (!Token.isBrace ·)) :=
    unbraced_of_class rfl rfl (List.all_eq_true.mp List.all_takeWhile)
  have hstring : Unbraced (r.takeWhile Token.isStringChar) :=
    unbraced_of_class rfl rfl (List.all_eq_true.mp List.all_takeWhile)
  have hsingle : Unbraced [c] := unbraced_cons.mpr ⟨hc, unbraced_nil⟩
  rw [Token.first.eq_def]
  split
  · exact unbraced_cons.mpr ⟨hc, hword⟩
  split
  · exact unbraced_cons.mpr ⟨hc, hcomment⟩
  split
  · split
    · exact unbraced_append.mpr ⟨unbraced_cons.mpr ⟨hc, hstring⟩, by decide⟩
    · exact unbraced_cons.mpr ⟨hc, hstring⟩
  iterate 3
    split
    · exact hsingle
  split
  · exact absurd hc (by decide)
  · exact absurd hc (by decide)
  · exact hsingle

/-- What is read in front of the closing braces leaves them behind. -/
theorem exists_first_rest {c : Char} {body : Text} (h : Unbraced (c :: body)) :
    ∃ body', Unbraced body' ∧
      (Token.first c (body ++ ['\x7d', '\x7d'])).2.2 = body' ++ ['\x7d', '\x7d'] := by
  have hslice := unbraced_first_slice (unbraced_cons.mp h).1 (body ++ ['\x7d', '\x7d'])
  have happend : _ = (c :: body) ++ ['\x7d', '\x7d'] :=
    Token.first_append c (body ++ ['\x7d', '\x7d'])
  obtain ⟨x, hx, hrest⟩ | ⟨x, hx, hrest⟩ := List.append_eq_append_iff.mp happend
  · exact ⟨x, (unbraced_append.mp (hx ▸ h)).2, hrest⟩
  · cases x with
    | nil => exact ⟨[], unbraced_nil, hrest.symm⟩
    | cons d x =>
      obtain ⟨rfl, -⟩ := List.cons.inj hrest
      rw [hx] at hslice
      exact absurd (hslice '\x7d' (by simp)) (by decide)

/-- **A text without braces in front of closing braces has a token for them.** -/
theorem exists_closing_mem_lexFrom {s body : Text} (h : Unbraced body)
    (hs : body ++ ['\x7d', '\x7d'] = s) (i : Nat) : ∃ l ∈ lexFrom i s, l.token = .closing := by
  fun_induction lexFrom i s generalizing body with
  | case1 => exact absurd hs (by simp)
  | case2 i c r hc ih =>
    cases body with
    | nil => exact absurd hc (by rw [← (List.cons.inj hs).1]; decide)
    | cons d body => exact ih (unbraced_cons.mp h).2 (List.cons.inj hs).2
  | case3 i c r hc stop =>
    rename_i ih
    cases body with
    | nil =>
      obtain ⟨rfl, rfl⟩ := List.cons.inj hs
      exact ⟨_, List.mem_cons_self, rfl⟩
    | cons d body =>
      obtain ⟨rfl, rfl⟩ := List.cons.inj hs
      obtain ⟨body', hbody', hrest⟩ := exists_first_rest h
      obtain ⟨l, hl, hclosing⟩ := ih hbody' hrest.symm
      exact ⟨l, List.mem_cons_of_mem _ hl, hclosing⟩

/-- **An occurrence has a token for its closing braces.** -/
theorem exists_closing_mem_lex {body : Text} (h : Unbraced body) :
    ∃ l ∈ lex (braced body), l.token = .closing := by
  have hopening : lex (braced body) = ⟨.opening, 0, 2⟩ :: lexFrom 2 (body ++ ['\x7d', '\x7d']) :=
    lexFrom_append (List.forall_mem_nil _) .opening trivial 0
  obtain ⟨l, hl, hclosing⟩ := exists_closing_mem_lexFrom h rfl 2
  exact ⟨l, hopening ▸ List.mem_cons_of_mem _ hl, hclosing⟩

end PromptTemplate.Placeholder
