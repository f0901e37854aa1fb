import PromptTemplate.Proofs.Template.Tidying
import PromptTemplate.Proofs.Text.Run

/-!
# Proofs/Template/Collapsing — tidying up twice

    a ↵ ␣ ↵ ↵ ↵ b   →   a ↵ ↵ b   →   a ↵ ↵ b

A text in which no run of blank lines begins is left alone (`collapseBlankLines_of_tight`). What a
run shrinks to could begin another one with what follows it, or with what stands before it. It does
neither: a run takes every blank line that there is, and a text begins with no more blank lines
after collapsing than before (`tight_collapseBlankLines`). Trimming takes characters from the ends,
which makes no run either. So **a text that was tidied up stays as it is** (`tidy_tidy`).
-/

namespace PromptTemplate.Template

open Text

/-! ## Blank lines at the front -/

theorem afterBlankLine?_cons_of_isPadding {c : Char} (h : isPadding c = true) (s : Text) :
    afterBlankLine? (c :: s) = afterBlankLine? s := by
  rw [afterBlankLine?, List.dropWhile_cons_of_pos h, ← afterBlankLine?]

theorem afterBlankLine?_newline (s : Text) : afterBlankLine? ('\n' :: s) = some s := rfl

/-- A line that begins with some other character is not blank. -/
theorem afterBlankLine?_cons_eq_none {c : Char} (hpadding : isPadding c = false) (hne : c ≠ '\n')
    (s : Text) : afterBlankLine? (c :: s) = none := by
  rw [afterBlankLine?, List.dropWhile_cons_of_neg (by simp [hpadding])]
  split
  · rename_i heq
    exact absurd (List.cons.inj heq).1 hne
  · rfl

theorem afterBlankRun?_isSome_iff {s : Text} :
    (afterBlankRun? s).isSome = true ↔ ∃ r, afterBlankLine? s = some r ∧
      (afterBlankLine? r).isSome = true := by
  rw [afterBlankRun?]
  cases afterBlankLine? s with
  | none => simp
  | some r => simp

theorem afterBlankRun?_eq_none {s : Text} (h : afterBlankLine? s = none) :
    afterBlankRun? s = none := by
  rw [afterBlankRun?, h]

theorem afterBlankRun?_cons_of_isPadding {c : Char} (h : isPadding c = true) (s : Text) :
    afterBlankRun? (c :: s) = afterBlankRun? s := by
  rw [afterBlankRun?, afterBlankLine?_cons_of_isPadding h, ← afterBlankRun?]

/-- The greedy reading of blank lines leaves none. -/
theorem afterBlankLine?_afterBlankLines (s : Text) :
    afterBlankLine? (afterBlankLines s) = none := by
  fun_induction afterBlankLines s with
  | case1 s r h ih => exact ih
  | case2 s h => exact h

theorem afterBlankLine?_of_afterBlankRun? {s r : Text} (h : afterBlankRun? s = some r) :
    afterBlankLine? r = none := by
  rw [afterBlankRun?] at h
  split at h
  · obtain ⟨t, -, rfl⟩ := Option.map_eq_some_iff.mp h
    exact afterBlankLine?_afterBlankLines t
  · exact absurd h (by simp)

/-! ## Runs of blank lines -/

/-- The line ends that a run can begin with. -/
def IsLineEnd (e : Text) : Prop := e = ['\n'] ∨ e = ['\r', '\n']

theorem lineEnd?_eq_some {s e r : Text} :
    lineEnd? s = some (e, r) ↔ IsLineEnd e ∧ s = e ++ r := by
  constructor
  · intro h
    rw [lineEnd?.eq_def] at h
    split at h
    · obtain ⟨rfl, rfl⟩ := Prod.mk.inj (Option.some.inj h)
      exact ⟨.inr rfl, rfl⟩
    · obtain ⟨rfl, rfl⟩ := Prod.mk.inj (Option.some.inj h)
      exact ⟨.inl rfl, rfl⟩
    · exact absurd h (by simp)
  · rintro ⟨rfl | rfl, rfl⟩
    · rfl
    · rfl

theorem blankRun?_lineEnd {e : Text} (h : IsLineEnd e) (s : Text) :
    blankRun? (e ++ s) = (afterBlankRun? s).map (e, ·) := by
  rw [blankRun?, lineEnd?_eq_some.mpr ⟨h, rfl⟩]

theorem blankRun?_eq_some {s e r : Text} :
    blankRun? s = some (e, r) ↔ IsLineEnd e ∧ ∃ t, s = e ++ t ∧ afterBlankRun? t = some r := by
  constructor
  · intro h
    rw [blankRun?] at h
    split at h
    · obtain ⟨u, hu, heq⟩ := Option.map_eq_some_iff.mp h
      obtain ⟨rfl, rfl⟩ := Prod.mk.inj heq
      obtain ⟨he, hs⟩ := lineEnd?_eq_some.mp ‹_›
      exact ⟨he, _, hs, hu⟩
    · exact absurd h (by simp)
  · rintro ⟨he, t, rfl, ht⟩
    rw [blankRun?_lineEnd he, ht]
    rfl

theorem blankRun?_isSome_iff {s : Text} :
    (blankRun? s).isSome = true ↔
      ∃ e t, IsLineEnd e ∧ s = e ++ t ∧ (afterBlankRun? t).isSome = true := by
  simp only [Option.isSome_iff_exists, Prod.exists, blankRun?_eq_some]
  constructor
  · rintro ⟨e, r, he, t, hs, ht⟩
    exact ⟨e, t, he, hs, r, ht⟩
  · rintro ⟨e, t, he, hs, r, ht⟩
    exact ⟨e, r, he, t, hs, ht⟩

theorem afterBlankLine?_lineEnd {e : Text} (h : IsLineEnd e) (s : Text) :
    afterBlankLine? (e ++ s) = some s := by
  obtain rfl | rfl := h
  · rfl
  · rfl

/-- **No run of blank lines begins anywhere in the text.** -/
def Tight (s : Text) : Prop := ∀ t, t <:+ s → blankRun? t = none

theorem tight_cons {c : Char} {s : Text} :
    Tight (c :: s) ↔ blankRun? (c :: s) = none ∧ Tight s := by
  simp only [Tight, List.suffix_cons_iff, forall_eq_or_imp]

theorem tight_nil : Tight [] := by
  intro t ht
  rw [List.suffix_nil.mp ht]
  rfl

/-- A text without runs stays as it is. -/
theorem collapseBlankLines_of_tight {s : Text} (h : Tight s) : collapseBlankLines s = s := by
  fun_induction collapseBlankLines s with
  | case1 s e r hrun ih => exact absurd (h s List.suffix_rfl) (by simp [hrun])
  | case2 => rfl
  | case3 c r hrun ih => rw [ih (tight_cons.mp h).2]

/-! ## Collapsing leaves no run -/

/-- Collapsing puts no blank line at the front of a text. -/
theorem afterBlankLine?_of_collapseBlankLines {s : Text}
    (h : (afterBlankLine? (collapseBlankLines s)).isSome = true) :
    (afterBlankLine? s).isSome = true := by
  fun_induction collapseBlankLines s with
  | case1 s e r hrun ih =>
    obtain ⟨he, t, rfl, -⟩ := blankRun?_eq_some.mp hrun
    rw [afterBlankLine?_lineEnd he]
    rfl
  | case2 => exact h
  | case3 c r hrun ih =>
    by_cases hpadding : isPadding c = true
    · rw [afterBlankLine?_cons_of_isPadding hpadding] at h ⊢
      exact ih h
    · by_cases hne : c = '\n'
      · rw [hne, afterBlankLine?_newline]
        rfl
      · rw [afterBlankLine?_cons_eq_none (Bool.eq_false_iff.mpr hpadding) hne] at h
        exact absurd h (by simp)

/-- Collapsing puts no second blank line there either. -/
theorem afterBlankRun?_of_collapseBlankLines {s : Text}
    (h : (afterBlankRun? (collapseBlankLines s)).isSome = true) :
    (afterBlankRun? s).isSome = true := by
  fun_induction collapseBlankLines s with
  | case1 s e r hrun ih =>
    -- behind the line end there are two more blank lines
    obtain ⟨he, t, rfl, ht⟩ := blankRun?_eq_some.mp hrun
    obtain ⟨u, hu, -⟩ := afterBlankRun?_isSome_iff.mp (Option.isSome_of_eq_some ht)
    exact afterBlankRun?_isSome_iff.mpr
      ⟨t, afterBlankLine?_lineEnd he t, Option.isSome_of_eq_some hu⟩
  | case2 => exact h
  | case3 c r hrun ih =>
    by_cases hpadding : isPadding c = true
    · rw [afterBlankRun?_cons_of_isPadding hpadding] at h ⊢
      exact ih h
    · obtain ⟨t, ht, hline⟩ := afterBlankRun?_isSome_iff.mp h
      by_cases hne : c = '\n'
      · rw [hne, afterBlankLine?_newline] at ht
        obtain rfl := Option.some.inj ht
        rw [hne]
        exact afterBlankRun?_isSome_iff.mpr ⟨r, rfl, afterBlankLine?_of_collapseBlankLines hline⟩
      · rw [afterBlankLine?_cons_eq_none (Bool.eq_false_iff.mpr hpadding) hne] at ht
        exact absurd ht (by simp)

/-- A run begins nowhere if it does not begin behind the line end in front. -/
theorem Tight.lineEnd_append {e s : Text} (he : IsLineEnd e) (hs : Tight s)
    (hrun : afterBlankRun? s = none) : Tight (e ++ s) := by
  have hnone : ∀ f, IsLineEnd f → blankRun? (f ++ s) = none := fun f hf => by
    rw [blankRun?_lineEnd hf, hrun, Option.map_none]
  have hnewline : Tight ('\n' :: s) := tight_cons.mpr ⟨hnone _ (.inl rfl), hs⟩
  obtain rfl | rfl := he
  · exact hnewline
  · exact tight_cons.mpr ⟨hnone _ (.inr rfl), hnewline⟩

/-- **Collapsing leaves no run of blank lines.** -/
theorem tight_collapseBlankLines (s : Text) : Tight (collapseBlankLines s) := by
  fun_induction collapseBlankLines s with
  | case1 s e r hrun ih =>
    obtain ⟨he, t, -, ht⟩ := blankRun?_eq_some.mp hrun
    have hline : afterBlankLine? (collapseBlankLines r) = none := by
      have hr := afterBlankLine?_of_afterBlankRun? ht
      exact Option.not_isSome_iff_eq_none.mp fun hsome =>
        absurd (afterBlankLine?_of_collapseBlankLines hsome) (by simp [hr])
    have hone : afterBlankRun? (e ++ collapseBlankLines r) = none := by
      rw [afterBlankRun?, afterBlankLine?_lineEnd he]
      simp [hline]
    rw [List.append_assoc]
    exact (ih.lineEnd_append he (afterBlankRun?_eq_none hline)).lineEnd_append he hone
  | case2 => exact tight_nil
  | case3 c r hrun ih =>
    refine tight_cons.mpr ⟨?_, ih⟩
    refine Option.not_isSome_iff_eq_none.mp fun hsome => ?_
    obtain ⟨e, t, he, hs, ht⟩ := blankRun?_isSome_iff.mp hsome
    obtain rfl | rfl := he
    · obtain ⟨rfl, rfl⟩ := List.cons.inj hs
      have hr := afterBlankRun?_of_collapseBlankLines ht
      exact absurd (blankRun?_isSome_iff.mpr ⟨_, r, .inl rfl, rfl, hr⟩) (by simp [hrun])
    · -- the run begins at the second character already
      have hlater : collapseBlankLines r = ['\n'] ++ t := (List.cons.inj hs).2
      have hnone : blankRun? (collapseBlankLines r) = none := ih _ List.suffix_rfl
      exact absurd (blankRun?_isSome_iff.mpr ⟨_, t, .inl rfl, hlater, ht⟩) (by simp [hnone])

/-! ## Trimming -/

theorem afterBlankLine?_append {s r : Text} (h : afterBlankLine? s = some r) (t : Text) :
    afterBlankLine? (s ++ t) = some (r ++ t) := by
  rw [afterBlankLine?] at h ⊢
  split at h
  · rename_i heq
    obtain rfl := Option.some.inj h
    rw [List.dropWhile_append, heq]
    rfl
  · exact absurd h (by simp)

/-- More text behind a run does not undo it. -/
theorem blankRun?_append_isSome {s : Text} (h : (blankRun? s).isSome = true) (t : Text) :
    (blankRun? (s ++ t)).isSome = true := by
  obtain ⟨e, r, he, rfl, hr⟩ := blankRun?_isSome_iff.mp h
  obtain ⟨u, hu, hline⟩ := afterBlankRun?_isSome_iff.mp hr
  obtain ⟨v, hv⟩ := Option.isSome_iff_exists.mp hline
  refine blankRun?_isSome_iff.mpr ⟨e, r ++ t, he, List.append_assoc e r t, ?_⟩
  exact afterBlankRun?_isSome_iff.mpr
    ⟨u ++ t, afterBlankLine?_append hu t, Option.isSome_of_eq_some (afterBlankLine?_append hv t)⟩

/-- A part of a text has no runs that the text does not have. -/
theorem Tight.of_append {a s b : Text} (h : Tight (a ++ (s ++ b))) : Tight s := by
  rintro t ⟨p, rfl⟩
  refine Option.not_isSome_iff_eq_none.mp fun hsome => ?_
  have hnone := h (t ++ b) ⟨a ++ p, by simp⟩
  exact absurd (blankRun?_append_isSome hsome b) (by simp [hnone])

theorem Tight.trim {s : Text} (h : Tight s) : Tight (trim s) := by
  obtain ⟨g, g', -, -, hs⟩ := exists_trim s
  rw [hs] at h
  exact h.of_append

/-- **A text that was tidied up, blank lines and ends, stays as it is.** -/
theorem tidy_tidy (collapse : Bool) (s : Text) :
    tidy collapse (tidy true s) = tidy true s := by
  have htight : Tight (tidy true s) := (tight_collapseBlankLines s).trim
  have hcollapse : (if collapse then collapseBlankLines (tidy true s) else tidy true s) =
      tidy true s := by
    rw [collapseBlankLines_of_tight htight, ite_self]
  rw [tidy, hcollapse, tidy, trim_trim]

end PromptTemplate.Template
