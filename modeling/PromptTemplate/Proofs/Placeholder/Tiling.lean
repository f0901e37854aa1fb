import PromptTemplate.Placeholder.Parser
import PromptTemplate.Proofs.Placeholder.Offsets
import PromptTemplate.Proofs.Text.Slice

/-!
# Proofs/Placeholder/Tiling — tokens and blanks make up a text

    {{ tone = "é
    └┘ └──┘ ╵ └┘     bytes 0 to 2, 3 to 7, 8 to 9 and 10 to 13; the others are blanks

What a token is can be told from its slice alone, and no token that stands there takes more of the
text (`Spelled.isPrefix_first`), so two runs of word characters never touch. Nothing but blanks is
passed over between tokens (`isGap_of_outside`); what begins no token is an invalid one. So
**tokens and blanks make up any text** (`tiles_lex`).
-/

namespace PromptTemplate.Placeholder

open Text

namespace Token

/-! ## The first token -/

variable {t : Token} {c : Char} {r s v : Text}

/-- A token that the text goes on with is no more than the beginning of the first one. -/
theorem Spelled.first_of_not_stops (h : t.Spelled v) (hs : ¬t.Stops s) :
    ∃ c v' u, v = c :: v' ∧ u ≠ [] ∧ (first c (v' ++ s)).2.1 = v ++ u := by
  have hmore {p : Char → Bool} (hp : ¬Ends p s) : s.takeWhile p ≠ [] := mt takeWhile_eq_nil_iff.mp hp
  have hrun {c : Char} {v' : Text} (hv : ∀ d ∈ c :: v', isWordChar d = true) :
      (first c (v' ++ s)).2.1 = c :: v' ++ s.takeWhile isWordChar := by
    obtain ⟨hc, hv'⟩ := List.forall_mem_cons.mp hv
    simp only [first, hc, if_true, List.takeWhile_append_of_pos hv', List.cons_append]
  cases h with
  | @comment t ht =>
    have hsign : isWordChar '#' = false := rfl
    have ht' : ∀ c ∈ t, (!isBrace c) = true := fun c hc => by simp [ht c hc]
    refine ⟨'#', t, _, rfl, hmore hs, ?_⟩
    simp [first, hsign, List.takeWhile_append_of_pos ht']
  | ident hne ht =>
    obtain ⟨c, v', rfl⟩ := List.exists_cons_of_ne_nil hne
    exact ⟨c, v', _, rfl, hmore hs, hrun fun d hd => isWordChar_of_isIdentChar (ht d hd)⟩
  | word hne ht =>
    obtain ⟨c, v', rfl⟩ := List.exists_cons_of_ne_nil hne
    exact ⟨c, v', _, rfl, hmore hs, hrun ht⟩
  | _ => exact absurd trivial hs

/-- **No token that a text begins with is longer than the first one**, and none is another one of
its length. -/
theorem Spelled.isPrefix_first (h : t.Spelled v) (hv : v <+: c :: r) :
    v <+: (first c r).2.1 ∧ (v = (first c r).2.1 → (first c r).1 = t) := by
  obtain ⟨s, hs⟩ := hv
  by_cases hstops : t.Stops s
  · obtain ⟨d, v', rfl, -, hfirst⟩ := h.first_append hstops
    rw [List.cons_append] at hs
    obtain ⟨rfl, rfl⟩ := List.cons.inj hs
    rw [hfirst]
    exact ⟨List.prefix_rfl, fun _ => rfl⟩
  · obtain ⟨d, v', u, rfl, hu, hslice⟩ := h.first_of_not_stops hstops
    rw [List.cons_append] at hs
    obtain ⟨rfl, rfl⟩ := List.cons.inj hs
    rw [hslice]
    exact ⟨List.prefix_append _ _, fun hself => absurd (List.self_eq_append_right.mp hself) hu⟩

/-- **A token is told by its slice.** -/
theorem first_fst_eq_iff (ht : t ≠ .invalid) :
    (first c r).1 = t ↔ t.Spelled (first c r).2.1 := by
  constructor
  · rintro rfl
    exact first_spelled c r ht
  · intro h
    have hprefix : (first c r).2.1 <+: c :: r := ⟨_, first_append c r⟩
    exact (h.isPrefix_first hprefix).2 rfl

/-- A run of word characters begins with one, and none follows it. -/
theorem ends_of_bare_first (h : (first c r).1.bare?.isSome = true) :
    isWordChar c = true ∧ Ends isWordChar (first c r).2.2 := by
  by_cases hc : isWordChar c = true
  · simp only [first, if_pos hc]
    exact ⟨hc, ends_dropWhile isWordChar r⟩
  · revert h
    simp only [first, if_neg hc]
    repeat' split
    all_goals simp [bare?]

end Token

/-! ## Between tokens -/

/-- **A character that no token takes is a blank.** -/
theorem isGap_of_outside {i : Nat} {s a b : Text} {c : Char} (hs : s = a ++ c :: b)
    (h : ∀ l ∈ lexFrom i s, i + bytes a < l.start ∨ l.stop ≤ i + bytes a) :
    Token.isGap c = true := by
  fun_induction lexFrom i s generalizing a with
  | case1 => exact absurd hs (by simp)
  | case2 i d r hd ih =>
    cases a with
    | nil =>
      obtain ⟨rfl, -⟩ := List.cons.inj hs
      exact hd
    | cons e a =>
      obtain ⟨rfl, hr⟩ := List.cons.inj hs
      rw [bytes_cons, Token.utf8Size_of_isGap hd, ← Nat.add_assoc] at h
      exact ih hr h
  | case3 i d r hd stop =>
    rename_i ih
    obtain ⟨hhead, hrest⟩ := List.forall_mem_cons.mp h
    -- the token that stands here is passed, as it does not take the character
    have hlong : bytes (Token.first d r).2.1 ≤ bytes a := by
      have hle : i ≤ i + bytes a := Nat.le_add_right i (bytes a)
      have hstop : stop ≤ i + bytes a := hhead.resolve_left (Nat.not_lt.mpr hle)
      exact Nat.le_of_add_le_add_left hstop
    rw [← Token.first_append d r] at hs
    obtain ⟨x, ha, hx⟩ := exists_between_of_le hs hlong
    rw [ha, bytes_append, ← Nat.add_assoc] at hrest
    exact ih hx hrest

/-- **A run of word characters does not end where another one begins.** -/
theorem stop_ne_start {i : Nat} {s : Text} {l l' : Lexeme} (h : l ∈ lexFrom i s)
    (h' : l' ∈ lexFrom i s) (hl : l.token.bare?.isSome = true) (hl' : l'.token.bare?.isSome = true) :
    l.stop ≠ l'.start := by
  intro htouch
  obtain ⟨a, c, r, hs, -, rfl⟩ := exists_first_of_mem_lexFrom h
  obtain ⟨a', c', r', hs', -, rfl⟩ := exists_first_of_mem_lexFrom h'
  obtain ⟨-, hends⟩ := Token.ends_of_bare_first hl
  obtain ⟨hword, -⟩ := Token.ends_of_bare_first hl'
  have hcuts : (a ++ (Token.first c r).2.1) ++ (Token.first c r).2.2 = a' ++ c' :: r' := by
    rw [List.append_assoc, Token.first_append, ← hs, hs']
  have hbytes : bytes (a ++ (Token.first c r).2.1) = bytes a' := by
    have hstop : i + bytes a + bytes (Token.first c r).2.1 = i + bytes a' := htouch
    rw [bytes_append]
    omega
  obtain ⟨x, ha', hrest⟩ := exists_between_of_le hcuts (Nat.le_of_eq hbytes)
  obtain rfl : x = [] := by
    rw [ha', bytes_append (a ++ _), Nat.left_eq_add, bytes_eq_zero] at hbytes
    exact hbytes
  rw [hrest, List.nil_append, ends_cons, hword] at hends
  exact absurd hends (by decide)

/-! ## All tokens -/

/-- What the tokens of a text are, and what they leave out. -/
structure Tiles (s : Text) (ls : List Lexeme) : Prop where
  start_lt_stop : ∀ l ∈ ls, l.start < l.stop
  /-- From left to right, and no two of them share a byte. -/
  ascending : ls.Pairwise fun l l' => l.stop ≤ l'.start
  stop_le : ∀ l ∈ ls, l.stop ≤ bytes s
  isValid_start : ∀ l ∈ ls, String.Pos.Raw.IsValid (String.ofList s) ⟨l.start⟩
  isValid_stop : ∀ l ∈ ls, String.Pos.Raw.IsValid (String.ofList s) ⟨l.stop⟩
  outside : ∀ a c b, s = a ++ c :: b → (∀ l ∈ ls, bytes a < l.start ∨ l.stop ≤ bytes a) →
    c = ' ' ∨ c = '\t' ∨ c = '\n' ∨ c = '\r'
  /-- The slice of a token says which one it is. -/
  spelled : ∀ l ∈ ls, ∃ w, Slice s l.start l.stop w ∧
    ∀ t : Token, t ≠ .invalid → (l.token = t ↔ t.Spelled w)
  bare : ∀ l ∈ ls, ∀ t, l.token = .ident t ∨ l.token = .word t → Slice s l.start l.stop t
  quoted : ∀ l ∈ ls, ∀ t, l.token = .quoted t → Slice s l.start l.stop ('"' :: (t ++ ['"']))
  comment : ∀ l ∈ ls, ∀ t, l.token = .comment t → ∃ u, Slice s l.start l.stop ('#' :: u) ∧ t = trim u
  /-- No token that stands where one of them starts is longer. -/
  longest : ∀ l ∈ ls, ∀ j w, Slice s l.start j w → ∀ t : Token, t.Spelled w → j ≤ l.stop
  apart : ∀ l ∈ ls, ∀ l' ∈ ls, l.token.bare?.isSome → l'.token.bare?.isSome → l.stop ≠ l'.start

theorem slice_first (a : Text) (c : Char) (r : Text) :
    Slice (a ++ c :: r) (bytes a) (bytes a + bytes (Token.first c r).2.1) (Token.first c r).2.1 := by
  have h := slice_append a (Token.first c r).2.1 (Token.first c r).2.2
  rwa [Token.first_append] at h

variable {s : Text} {l : Lexeme}

theorem exists_slice_of_mem_lex (h : l ∈ lex s) : ∃ w, w ≠ [] ∧ Slice s l.start l.stop w ∧
    ∀ t : Token, t ≠ .invalid → (l.token = t ↔ t.Spelled w) := by
  obtain ⟨a, c, r, rfl, -, rfl⟩ := exists_first_of_mem_lexFrom h
  simp only [Nat.zero_add]
  exact ⟨_, Token.first_slice_ne_nil c r, slice_first a c r, fun t ht => Token.first_fst_eq_iff ht⟩

theorem le_stop_of_spelled (h : l ∈ lex s) {j : Nat} {w : Text} (hw : Slice s l.start j w)
    {t : Token} (ht : t.Spelled w) : j ≤ l.stop := by
  obtain ⟨a, c, r, rfl, -, rfl⟩ := exists_first_of_mem_lexFrom h
  simp only [Nat.zero_add] at hw ⊢
  obtain ⟨u, hu⟩ := (ht.isPrefix_first hw.isPrefix).1
  rw [← hw.add_bytes, ← hu, bytes_append]
  omega

/-- The slice of a token whose text is known. -/
theorem exists_slice_of_token (h : l ∈ lex s) {t : Token} (hl : l.token = t) (ht : t ≠ .invalid) :
    ∃ w, t.Spelled w ∧ Slice s l.start l.stop w := by
  obtain ⟨w, -, hw, htoken⟩ := exists_slice_of_mem_lex h
  exact ⟨w, (htoken t ht).mp hl, hw⟩

/-- **The tokens of a text leave out nothing but blanks.** -/
theorem tiles_lex (s : Text) : Tiles s (lex s) where
  start_lt_stop l hl := (le_start_lt_stop_of_mem_lexFrom hl).2
  ascending := pairwise_lexFrom 0 s
  stop_le l hl := by
    obtain ⟨w, -, hw, -⟩ := exists_slice_of_mem_lex hl
    exact hw.le_bytes
  isValid_start l hl := by
    obtain ⟨w, hne, hw, -⟩ := exists_slice_of_mem_lex hl
    exact (hw.isValid hne).1
  isValid_stop l hl := by
    obtain ⟨w, hne, hw, -⟩ := exists_slice_of_mem_lex hl
    exact (hw.isValid hne).2
  outside a c b hs hout := by
    have hnone : ∀ l ∈ lexFrom 0 s, 0 + bytes a < l.start ∨ l.stop ≤ 0 + bytes a := by
      rwa [Nat.zero_add]
    exact Token.isGap_iff.mp (isGap_of_outside hs hnone)
  spelled l hl := by
    obtain ⟨w, -, hw⟩ := exists_slice_of_mem_lex hl
    exact ⟨w, hw⟩
  bare l hl t ht := by
    obtain ht | ht := ht
    · obtain ⟨w, ⟨⟩, hw⟩ := exists_slice_of_token hl ht (by simp)
      exact hw
    · obtain ⟨w, ⟨⟩, hw⟩ := exists_slice_of_token hl ht (by simp)
      exact hw
  quoted l hl t ht := by
    obtain ⟨w, ⟨⟩, hw⟩ := exists_slice_of_token hl ht (by simp)
    exact hw
  comment l hl t ht := by
    obtain ⟨w, ⟨⟩, hw⟩ := exists_slice_of_token hl ht (by simp)
    exact ⟨_, hw, rfl⟩
  longest l hl j w hw t ht := le_stop_of_spelled hl hw ht
  apart l hl l' hl' := stop_ne_start hl hl'

/-- A string that never ends is one token, and `é` counts for two bytes. -/
example : lex "\x7b\x7b tone = \"é".toList =
    [⟨.opening, 0, 2⟩, ⟨.ident "tone".toList, 3, 7⟩, ⟨.equals, 8, 9⟩, ⟨.invalid, 10, 13⟩] := by
  decide +kernel

end PromptTemplate.Placeholder
