import PromptTemplate.Template.Render

/-!
# Proofs/Template/Tidying — what tidying up cannot take away

    a␣b ↵ ↵ ↵ c ↵   →   a␣b ↵ ↵ c

Collapsing blank lines and trimming remove blanks only, so **the characters that are not blank
stay, in their order** (`solid_tidy`).
-/

namespace PromptTemplate

namespace Text

/-- The characters of a text that are not blank. -/
def solid (t : Text) : Text := t.filter (!isBlank ·)

theorem solid_append (s t : Text) : solid (s ++ t) = solid s ++ solid t := List.filter_append _ _

theorem solid_cons (c : Char) (t : Text) : solid (c :: t) = solid [c] ++ solid t :=
  solid_append [c] t

theorem solid_of_isAllBlank {t : Text} (h : isAllBlank t = true) : solid t = [] := by
  refine List.filter_eq_nil_iff.mpr fun c hc => ?_
  rw [List.all_eq_true.mp h c hc]
  decide

theorem isAllBlank_append {s t : Text} (hs : isAllBlank s = true) (ht : isAllBlank t = true) :
    isAllBlank (s ++ t) = true := by
  rw [isAllBlank, List.all_append, Bool.and_eq_true]
  exact ⟨hs, ht⟩

theorem isAllBlank_takeWhile (t : Text) : isAllBlank (t.takeWhile isBlank) = true :=
  List.all_takeWhile

theorem solid_reverse (t : Text) : solid t.reverse = (solid t).reverse := List.filter_reverse

theorem solid_trimStart (t : Text) : solid (trimStart t) = solid t := by
  have h := congrArg solid (List.takeWhile_append_dropWhile (p := isBlank) (l := t))
  rwa [solid_append, solid_of_isAllBlank (isAllBlank_takeWhile t), List.nil_append] at h

theorem solid_trimEnd (t : Text) : solid (trimEnd t) = solid t := by
  have h : trimEnd t = (trimStart t.reverse).reverse := rfl
  rw [h, solid_reverse, solid_trimStart, solid_reverse, List.reverse_reverse]

theorem solid_trim (t : Text) : solid (trim t) = solid t := by
  rw [trim, solid_trimEnd, solid_trimStart]

end Text

namespace Template

open Text

/-! ## Blank lines -/

theorem isBlank_of_isPadding {c : Char} (h : isPadding c = true) : isBlank c = true := by
  simp only [isPadding, Bool.or_eq_true, beq_iff_eq] at h
  obtain (rfl | rfl) | rfl := h <;> rfl

theorem exists_of_afterBlankLine? {s r : Text} (h : afterBlankLine? s = some r) :
    ∃ g, isAllBlank g = true ∧ s = g ++ r := by
  have hs := List.takeWhile_append_dropWhile (p := isPadding) (l := s)
  have hpadding : isAllBlank (s.takeWhile isPadding) = true := by
    refine List.all_eq_true.mpr fun c hc => isBlank_of_isPadding ?_
    exact List.all_eq_true.mp List.all_takeWhile c hc
  rw [afterBlankLine?] at h
  split at h
  · rename_i t ht
    obtain rfl := Option.some.inj h
    rw [ht] at hs
    refine ⟨s.takeWhile isPadding ++ ['\n'], isAllBlank_append hpadding rfl, ?_⟩
    rw [List.append_assoc, List.singleton_append, hs]
  · exact absurd h (by simp)

theorem exists_of_afterBlankLines (s : Text) :
    ∃ g, isAllBlank g = true ∧ s = g ++ afterBlankLines s := by
  fun_induction afterBlankLines s with
  | case1 s r h ih =>
    obtain ⟨g, hg, hs⟩ := exists_of_afterBlankLine? h
    obtain ⟨g', hg', hr⟩ := ih
    refine ⟨g ++ g', isAllBlank_append hg hg', ?_⟩
    rw [List.append_assoc, ← hr, hs]
  | case2 s h => exact ⟨[], rfl, rfl⟩

theorem exists_of_afterBlankRun? {s r : Text} (h : afterBlankRun? s = some r) :
    ∃ g, isAllBlank g = true ∧ s = g ++ r := by
  rw [afterBlankRun?] at h
  split at h
  · rename_i ht
    obtain ⟨u, hu, rfl⟩ := Option.map_eq_some_iff.mp h
    obtain ⟨g, hg, rfl⟩ := exists_of_afterBlankLine? ht
    obtain ⟨g', hg', rfl⟩ := exists_of_afterBlankLine? hu
    obtain ⟨g'', hg'', hu'⟩ := exists_of_afterBlankLines u
    refine ⟨g ++ (g' ++ g''), isAllBlank_append hg (isAllBlank_append hg' hg''), ?_⟩
    rw [List.append_assoc, List.append_assoc, ← hu']
  · exact absurd h (by simp)

theorem exists_of_lineEnd? {s e r : Text} (h : lineEnd? s = some (e, r)) :
    isAllBlank e = true ∧ s = e ++ r := by
  simp only [lineEnd?] at h
  split at h
  · obtain ⟨rfl, rfl⟩ := Prod.mk.inj (Option.some.inj h)
    exact ⟨rfl, rfl⟩
  · obtain ⟨rfl, rfl⟩ := Prod.mk.inj (Option.some.inj h)
    exact ⟨rfl, rfl⟩
  · exact absurd h (by simp)

/-- A run of blank lines with the line end before it is made of blanks. -/
theorem exists_of_blankRun? {s e r : Text} (h : blankRun? s = some (e, r)) :
    isAllBlank e = true ∧ ∃ g, isAllBlank g = true ∧ s = e ++ (g ++ r) := by
  rw [blankRun?] at h
  split at h
  · rename_i hl
    obtain ⟨u, hu, heq⟩ := Option.map_eq_some_iff.mp h
    obtain ⟨rfl, rfl⟩ := Prod.mk.inj heq
    obtain ⟨he, rfl⟩ := exists_of_lineEnd? hl
    obtain ⟨g, hg, rfl⟩ := exists_of_afterBlankRun? hu
    exact ⟨he, g, hg, rfl⟩
  · exact absurd h (by simp)

theorem ne_nil_of_blankRun? {s e r : Text} (h : blankRun? s = some (e, r)) : e ≠ [] := by
  rw [blankRun?] at h
  split at h
  · rename_i hl
    obtain ⟨u, -, heq⟩ := Option.map_eq_some_iff.mp h
    obtain ⟨rfl, -⟩ := Prod.mk.inj heq
    rintro rfl
    obtain ⟨-, rfl⟩ := exists_of_lineEnd? hl
    exact absurd (lineEnd?_lt hl) (Nat.lt_irrefl _)
  · exact absurd h (by simp)

theorem solid_collapseBlankLines (s : Text) : solid (collapseBlankLines s) = solid s := by
  fun_induction collapseBlankLines s with
  | case1 s e r h ih =>
    obtain ⟨he, g, hg, rfl⟩ := exists_of_blankRun? h
    simp only [solid_append, solid_of_isAllBlank he, solid_of_isAllBlank hg, ih, List.nil_append]
  | case2 => rfl
  | case3 c r h ih => rw [solid_cons, ih, ← solid_cons]

/-! ## All of it -/

/-- What is done to a template that is filled in. -/
def tidy (collapse : Bool) (s : Text) : Text := trim (if collapse then collapseBlankLines s else s)

/-- **Tidying up keeps every character that is not blank.** -/
theorem solid_tidy (collapse : Bool) (s : Text) : solid (tidy collapse s) = solid s := by
  rw [tidy, solid_trim]
  split
  · exact solid_collapseBlankLines s
  · rfl

end Template

end PromptTemplate
