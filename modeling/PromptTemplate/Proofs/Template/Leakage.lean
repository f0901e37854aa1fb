import PromptTemplate.Proofs.Template.Progress
import PromptTemplate.Proofs.Template.Tidying

/-!
# Proofs/Template/Leakage — when a rendered template has an occurrence again

    {{a{{#x}}}}   →   {{a}}

What an occurrence leaves behind can close up the braces around it. Tidying up neither makes nor
removes an occurrence (`scan_tidy_eq_nil_iff`), and no text without braces in the place of an
occurrence brings together what nothing in its place would not (`scan_fill_eq_nil`). So **no values
bring an occurrence about just when cutting out all of the occurrences brings none about**
(`scan_render_iff`).
-/

namespace PromptTemplate.Template

open Placeholder Text

/-! ## Tidying up -/

theorem unbraced_of_isAllBlank {t : Text} (h : isAllBlank t = true) : Unbraced t :=
  unbraced_of_class (by decide) (by decide) (List.all_eq_true.mp h)

/-- A run of blank lines and what it shrinks to are both blanks, and neither is empty. -/
theorem read_collapseBlankLines (q : Progress) (s : Text) :
    q.read (collapseBlankLines s) = q.read s := by
  fun_induction collapseBlankLines s generalizing q with
  | case1 s e r h ih =>
    have hne := ne_nil_of_blankRun? h
    obtain ⟨he, g, hg, rfl⟩ := exists_of_blankRun? h
    have hread := Progress.read_unbraced (unbraced_of_isAllBlank he) hne
    have hskip := Progress.read_onOther (unbraced_of_isAllBlank hg)
    simp only [Progress.read_append, hread, hskip, ih, Progress.onOther_onOther]
  | case2 => rfl
  | case3 c r h ih => exact ih (q.step c)

theorem read_trim_eq_found (t : Text) :
    Progress.start.read (trim t) = .found ↔ Progress.start.read t = .found := by
  obtain ⟨g, g', hg, hg', ht⟩ := exists_trim t
  have hstart : Progress.start.read g = .start :=
    Progress.read_onOther (unbraced_of_isAllBlank hg) .start
  conv_rhs => rw [ht, Progress.read_append, hstart, Progress.read_append,
    Progress.read_unbraced_eq_found (unbraced_of_isAllBlank hg')]

/-- **Tidying up neither makes nor removes an occurrence.** -/
theorem scan_tidy_eq_nil_iff (collapse : Bool) (t : Text) :
    scan (tidy collapse t) = [] ↔ scan t = [] := by
  rw [Progress.scan_eq_nil_iff_read, Progress.scan_eq_nil_iff_read, tidy, ne_eq, ne_eq,
    read_trim_eq_found]
  split
  · rw [read_collapseBlankLines]
  · rfl

/-! ## Filling in -/

/-- What is left of a piece where occurrences are cut out. -/
def Piece.remnant : Piece → Text
  | char c => [c]
  | occurrence _ => []

/-- The text of a template with its occurrences cut out. -/
def remnant (s : Text) : Text := (pieces s).flatMap Piece.remnant

theorem unbraced_substitute {values : Values} {config : RenderConfig}
    (hvalues : ∀ k v, values.get? k = some v → Unbraced v.display)
    (hsentinel : Unbraced config.sentinel) (body : Text) :
    Unbraced (substitute values config body) := by
  rw [substitute]
  split
  · rw [substituteNode]
    split
    · exact unbraced_nil
    · split
      · rename_i hv
        exact hvalues _ _ (Option.filter_eq_some_iff.mp hv).1
      · exact hsentinel
  · split
    · exact hsentinel
    · exact unbraced_nil

/-- Text without braces in the place of an occurrence finds no more than nothing in its place. -/
theorem below_renderPiece {values : Values} {config : RenderConfig}
    (h : ∀ body, Unbraced (substitute values config body)) (ps : List Piece) {p q : Progress}
    (hpq : p.Below q) :
    (p.read (ps.flatMap (renderPiece values config))).Below
      (q.read (ps.flatMap Piece.remnant)) := by
  induction ps generalizing p q with
  | nil => exact hpq
  | cons x ps ih =>
    rw [List.flatMap_cons, List.flatMap_cons, Progress.read_append, Progress.read_append]
    cases x with
    | char c => exact ih (hpq.step c)
    | occurrence body => exact ih ((Progress.below_read (h body) p).trans hpq)

/-- **Filling in makes no occurrence that cutting out does not make.** -/
theorem scan_fill_eq_nil {values : Values} {config : RenderConfig} {s : Text}
    (h : ∀ body, Unbraced (substitute values config body)) (hs : scan (remnant s) = []) :
    scan (fill values config s) = [] := by
  rw [Progress.scan_eq_nil_iff_read] at hs ⊢
  intro hfound
  have hbelow := below_renderPiece h (pieces s) (.refl .start)
  rw [← fill, hfound] at hbelow
  exact hs hbelow.eq_found

theorem unbraced_of_get?_empty (k : Text) (v : Value) (h : Values.empty.get? k = some v) :
    Unbraced v.display :=
  absurd h (by simp [Values.empty, Values.get?])

/-- Without values, and with nothing for a missing one, the occurrences are cut out. -/
theorem fill_empty (collapse : Bool) (s : Text) : fill .empty ⟨[], collapse⟩ s = remnant s := by
  refine List.flatMap_congr fun p _ => ?_
  cases p with
  | char c => rfl
  | occurrence body =>
    rw [renderPiece, substitute]
    split
    · exact ite_self []
    · exact ite_self []

theorem ofTemplate_eq_empty {t : Text} (h : scan t = []) : Registry.ofTemplate t = .empty := by
  rw [Registry.ofTemplate, h]
  rfl

theorem render_eq_tidy (values : Values) (config : RenderConfig) (s : Text) :
    render values config s = tidy config.collapse (fill values config s) := rfl

/-- **No values without braces bring an occurrence about just when cutting the occurrences out
brings none about.** -/
theorem scan_render_iff (s : Text) :
    (∀ (values : Values) (config : RenderConfig),
      (∀ k v, values.get? k = some v → Unbraced v.display) → Unbraced config.sentinel →
        scan (render values config s) = [] ∧
          Registry.ofTemplate (render values config s) = .empty) ↔
      scan (remnant s) = [] := by
  constructor
  · intro h
    obtain ⟨hscan, -⟩ := h .empty ⟨[], false⟩ unbraced_of_get?_empty unbraced_nil
    rwa [render_eq_tidy, scan_tidy_eq_nil_iff, fill_empty] at hscan
  · intro h values config hvalues hsentinel
    have hfill := scan_fill_eq_nil (unbraced_substitute hvalues hsentinel) h
    have hscan : scan (render values config s) = [] := by
      rwa [render_eq_tidy, scan_tidy_eq_nil_iff]
    exact ⟨hscan, ofTemplate_eq_empty hscan⟩

/-- A comment within braces: without the comment they close around the text in front of it. -/
theorem exists_scan_render_ne_nil :
    ¬ ∀ (s : Text) (values : Values) (config : RenderConfig),
      (∀ k v, values.get? k = some v → Unbraced v.display) → Unbraced config.sentinel →
        scan (render values config s) = [] ∧
          Registry.ofTemplate (render values config s) = .empty := by
  intro h
  obtain ⟨hscan, -⟩ := h (braced (['a'] ++ braced ['#', 'x'])) .empty .default
    unbraced_of_get?_empty (by decide)
  revert hscan
  decide +kernel

end PromptTemplate.Template
