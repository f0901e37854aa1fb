import PromptTemplate.Proofs.Template.Dependence
import PromptTemplate.Proofs.Template.Scanning

/-!
# Proofs/Template/Sentinel — when the sentinel shows in a prompt

    {{@a, default=x}} {{a}} {{b}} {{c d}}     shows for `b`, unless that is supplied, and for `c d`

A piece of a template has a text of its own or asks for the sentinel (`pieceText_eq_getD`). A
sentinel that is asked for shows: a longer one leaves more behind, and tidying up takes blanks only.
So **a prompt is the same for all sentinels just when every input that is referenced has a value or
a default, and every reference is well formed** (`generatePrompt_sentinel_iff`).
-/

namespace PromptTemplate

open Placeholder

/-- Something that is not blank stands for the entry where it is referenced: a supplied value or its
default. -/
def Entry.Provided (values : Values) (e : Entry) : Prop :=
  (values.nonBlank? e.identifier).isSome = true ∨
    ∃ d, e.default? = some d ∧ Text.isAllBlank d = false

namespace Template

/-! ## A text of its own -/

/-- What is put in the place of a reference, unless it is the sentinel. -/
def given? (ns : List Node) (values : Values) (k : Text) : Option Text :=
  ((values.nonBlank? k).map Value.display).or
    ((writtenDefault? ns k).filter (!Text.isAllBlank ·))

/-- What is put in the place of a piece, unless it is the sentinel. -/
def Piece.given? (ns : List Node) (values : Values) : Piece → Option Text
  | char c => some [c]
  | occurrence body =>
    match Placeholder.parse (braced body) with
    | .ok n => if n.modifier = .reference then Template.given? ns values n.identifier else some []
    | .error _ => if modifierOf body = .reference then none else some []

theorem valueText_eq_getD (ns : List Node) (values : Values) (config : RenderConfig) (k : Text) :
    valueText ns values config k = (given? ns values k).getD config.sentinel := by
  rw [valueText, given?]
  cases values.nonBlank? k with
  | some v => rfl
  | none =>
    cases writtenDefault? ns k with
    | none => rfl
    | some d => cases hd : Text.isAllBlank d <;> simp [Option.filter, hd]

/-- **A piece has a text of its own or is replaced by the sentinel.** -/
theorem pieceText_eq_getD (ns : List Node) (values : Values) (config : RenderConfig) (p : Piece) :
    pieceText ns values config p = (p.given? ns values).getD config.sentinel := by
  cases p with
  | char c => rfl
  | occurrence body =>
    rw [pieceText, Piece.given?]
    cases Placeholder.parse (braced body) with
    | ok n => cases hm : n.modifier <;> simp [hm, valueText_eq_getD]
    | error f => cases modifierOf body <;> simp

/-! ## Sentinels that show -/

/-- A longer sentinel leaves more behind if a piece asks for it. -/
theorem length_solid_substituted_sentinel_lt {s : Text} {values : Values} {p : Piece}
    (hp : p ∈ pieces s) (hnone : p.given? (nodes s) values = none) (collapse : Bool) {x y : Text}
    (hxy : (Text.solid x).length < (Text.solid y).length) :
    (Text.solid (substituted s values ⟨x, collapse⟩)).length <
      (Text.solid (substituted s values ⟨y, collapse⟩)).length := by
  rw [solid_substituted, solid_substituted]
  refine length_flatMap_lt (fun q _ => ?_) hp ?_
  · rw [pieceText_eq_getD, pieceText_eq_getD]
    cases q.given? (nodes s) values with
    | none => exact Nat.le_of_lt hxy
    | some t => exact Nat.le_refl _
  · rwa [pieceText_eq_getD, pieceText_eq_getD, hnone]

/-- Where every piece has a text of its own the sentinel does not matter. -/
theorem substituted_sentinel_congr {s : Text} {values : Values}
    (h : ∀ p ∈ pieces s, (p.given? (nodes s) values).isSome = true) (c d : RenderConfig) :
    substituted s values c = substituted s values d := by
  refine List.flatMap_congr fun p hp => ?_
  obtain ⟨t, ht⟩ := Option.isSome_iff_exists.mp (h p hp)
  rw [pieceText_eq_getD, pieceText_eq_getD, ht]
  rfl

/-- **A prompt is the same for all sentinels just when every piece has a text of its own.** -/
theorem forall_sentinel_iff (s : Text) (values : Values) (model : Option ContentModel)
    (existing : Option ExistingContent) (collapse : Bool) :
    (∀ x y : Text, generatePrompt s ⟨values, model, existing, ⟨x, collapse⟩⟩ =
      generatePrompt s ⟨values, model, existing, ⟨y, collapse⟩⟩) ↔
      ∀ p ∈ pieces s, (p.given? (nodes s) values).isSome = true := by
  constructor
  · intro h p hp
    by_contra hnone
    have hlt := length_solid_substituted_sentinel_lt hp (Option.not_isSome_iff_eq_none.mp hnone)
      collapse (x := ['x']) (y := ['x', 'x']) (by decide)
    exact generatePrompt_ne hlt model existing (h _ _)
  · intro h x y
    rw [generatePrompt_eq, generatePrompt_eq, substituted_sentinel_congr h]

/-! ## What the registry says -/

/-- A piece has a text of its own if what it asks for is given, and it is no bad reference. -/
theorem Piece.given?_isSome_iff {ns : List Node} {values : Values} {p : Piece} :
    (p.given? ns values).isSome = true ↔
      (∀ k, p.reference? = some k → (Template.given? ns values k).isSome = true) ∧
      ∀ body, p = occurrence body → ∀ f, Placeholder.parse (braced body) = .error f →
        modifierOf body ≠ .reference := by
  cases p with
  | char c => simp [given?, reference?, node?]
  | occurrence body =>
    simp only [given?, reference?, node?, occurrence.injEq, forall_eq']
    cases Placeholder.parse (braced body) with
    | ok n => by_cases hm : n.modifier = .reference <;> simp [Except.toOption, hm]
    | error f => by_cases hm : modifierOf body = .reference <;> simp [Except.toOption, hm]

/-- What is given for an identifier is what provides for its entry. -/
theorem given?_isSome_iff {s k : Text} {e : Entry}
    (he : (Registry.ofTemplate s).find? k = some e) (values : Values) :
    (given? (nodes s) values k).isSome = true ↔ e.Provided values := by
  have hreflects := Registry.reflects_ofTemplate s
  obtain ⟨-, rfl⟩ := hreflects.find?_eq_some.mp he
  rw [Entry.Provided, (hreflects.records_of_find? he).default?_eq, given?]
  simp [Option.any_eq_true]

/-- Every reference is given a text just when every referenced entry is provided for. -/
theorem forall_given?_iff (s : Text) (values : Values) :
    (∀ p ∈ pieces s, ∀ k, p.reference? = some k → (given? (nodes s) values k).isSome = true) ↔
      ∀ e ∈ (Registry.ofTemplate s).entries, e.referenced = true → e.Provided values := by
  constructor
  · intro h e he href
    have hfind := (Registry.reflects_ofTemplate s).find?_eq_some.mpr ⟨he, rfl⟩
    obtain ⟨p, hp, hk⟩ := exists_reference_iff.mpr ⟨e, hfind, href⟩
    exact (given?_isSome_iff hfind values).mp (h p hp _ hk)
  · intro h p hp k hk
    obtain ⟨e, hfind, href⟩ := exists_reference_iff.mp ⟨p, hp, hk⟩
    have he := ((Registry.reflects_ofTemplate s).find?_eq_some.mp hfind).1
    exact (given?_isSome_iff hfind values).mpr (h e he href)

end Template

open Template

/-- **A prompt is the same for all sentinels just when it is complete**: each entry that is
referenced is provided for, and every occurrence that is no placeholder begins with a sign. -/
theorem generatePrompt_sentinel_iff (template : Text) (values : Values)
    (model : Option ContentModel) (existing : Option ExistingContent) (collapse : Bool) :
    (∀ x y : Text, generatePrompt template ⟨values, model, existing, ⟨x, collapse⟩⟩ =
      generatePrompt template ⟨values, model, existing, ⟨y, collapse⟩⟩) ↔
    (∀ e ∈ (Registry.ofTemplate template).entries, e.referenced = true → e.Provided values) ∧
      ∀ o ∈ scan template, ∀ f, Placeholder.parse o.text = .error f →
        modifierOf o.body ≠ .reference := by
  rw [forall_sentinel_iff, ← forall_given?_iff]
  simp only [Piece.given?_isSome_iff, forall_and]
  exact and_congr_right' forall_mem_scan_iff.symm

end PromptTemplate
