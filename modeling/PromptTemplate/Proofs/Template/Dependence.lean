import Mathlib.Algebra.Order.BigOperators.Group.List
import Mathlib.Algebra.Order.Group.Nat
import PromptTemplate.Proofs.Template.Substitution

/-!
# Proofs/Template/Dependence — which values a prompt depends on

    {{@a}} {{#b}} {{c}} {{d e}}   depends on `c`

The registry of a template says of an identifier that it is referenced just when a piece of the
template asks for it (`exists_reference_iff`). What is inserted is not looked at again, so values
that agree there give one prompt; and as tidying up takes blanks only, a longer value gives another
prompt. **The referenced identifiers are the ones that a prompt depends on**
(`generatePrompt_referenced`).
-/

namespace PromptTemplate

open Placeholder

namespace Template

/-! ## What a piece asks for -/

/-- The identifier whose value a piece asks for. -/
def Piece.reference? (p : Piece) : Option Text :=
  p.node?.bind fun n => if n.modifier = .reference then some n.identifier else none

theorem Piece.reference?_eq_some {p : Piece} {k : Text} :
    p.reference? = some k ↔ ∃ n, p.node? = some n ∧ n.identifier = k ∧ n.modifier = .reference := by
  rw [reference?, Option.bind_eq_some_iff]
  refine exists_congr fun n => and_congr_right fun _ => ?_
  by_cases hm : n.modifier = .reference <;> simp [hm]

theorem pieceText_of_reference {p : Piece} {k : Text} (h : p.reference? = some k) (ns : List Node)
    (values : Values) (config : RenderConfig) :
    pieceText ns values config p = valueText ns values config k := by
  obtain ⟨n, hn, rfl, hm⟩ := Piece.reference?_eq_some.mp h
  cases p with
  | char c => exact absurd hn (by simp [Piece.node?])
  | occurrence body =>
    rw [Piece.node?] at hn
    rw [pieceText]
    cases hparse : Placeholder.parse (braced body) with
    | error f =>
      rw [hparse] at hn
      exact absurd hn (by simp [Except.toOption])
    | ok n' =>
      rw [hparse] at hn
      obtain rfl : n' = n := Option.some.inj hn
      simp only [hm]

theorem pieceText_of_no_reference {p : Piece} (h : p.reference? = none) (ns : List Node)
    (v w : Values) (config : RenderConfig) :
    pieceText ns v config p = pieceText ns w config p := by
  cases p with
  | char c => rfl
  | occurrence body =>
    rw [Piece.reference?, Piece.node?] at h
    rw [pieceText, pieceText]
    cases hparse : Placeholder.parse (braced body) with
    | error f => rfl
    | ok n =>
      rw [hparse] at h
      cases hm : n.modifier with
      | definition => simp [hm]
      | comment => simp [hm]
      | reference => simp [Except.toOption, hm] at h

/-- An identifier is referenced just when a piece asks for it. -/
theorem exists_reference_iff {s k : Text} :
    (∃ p ∈ pieces s, p.reference? = some k) ↔
      ∃ e, (Registry.ofTemplate s).find? k = some e ∧ e.referenced = true := by
  have hreflects := Registry.reflects_ofTemplate s
  constructor
  · rintro ⟨p, hp, hk⟩
    obtain ⟨n, hn, rfl, hm⟩ := Piece.reference?_eq_some.mp hk
    have hmem : n ∈ nodes s := List.mem_filterMap.mpr ⟨p, hp, hn⟩
    obtain ⟨e, he⟩ := hreflects.exists_find? hmem
    exact ⟨e, he, (hreflects.referenced_iff he).mpr ⟨n, hmem, rfl, hm⟩⟩
  · rintro ⟨e, he, href⟩
    obtain ⟨n, hmem, rfl, hm⟩ := (hreflects.referenced_iff he).mp href
    obtain ⟨p, hp, hn⟩ := List.mem_filterMap.mp hmem
    exact ⟨p, hp, Piece.reference?_eq_some.mpr ⟨n, hn, rfl, hm⟩⟩

/-! ## Values that agree -/

theorem valueText_congr {v w : Values} {k : Text}
    (h : (v.nonBlank? k).map Value.display = (w.nonBlank? k).map Value.display) (ns : List Node)
    (config : RenderConfig) : valueText ns v config k = valueText ns w config k := by
  rw [valueText, valueText]
  cases hv : v.nonBlank? k with
  | none =>
    rw [hv] at h
    rw [Option.map_eq_none_iff.mp h.symm]
  | some x =>
    rw [hv] at h
    obtain ⟨y, hy, hxy⟩ := Option.map_eq_some_iff.mp h.symm
    rw [hy]
    exact hxy.symm

theorem substituted_congr {s : Text} {v w : Values} (config : RenderConfig)
    (h : ∀ p ∈ pieces s, ∀ k, p.reference? = some k →
      (v.nonBlank? k).map Value.display = (w.nonBlank? k).map Value.display) :
    substituted s v config = substituted s w config := by
  refine List.flatMap_congr fun p hp => ?_
  cases hk : p.reference? with
  | none => exact pieceText_of_no_reference hk _ _ _ _
  | some k =>
    rw [pieceText_of_reference hk, pieceText_of_reference hk]
    exact valueText_congr (h p hp k hk) _ _

/-! ## A value that differs -/

theorem valueText_insert {x : Text} (hx : Text.isAllBlank x = false) (ns : List Node)
    (values : Values) (config : RenderConfig) (k j : Text) :
    valueText ns (values.insert k (.text x)) config j =
      if j = k then x else valueText ns values config j := by
  rw [valueText]
  by_cases hj : j = k
  · obtain rfl := hj
    have hblank : (Value.text x).isBlank = false := hx
    rw [Values.nonBlank?_insert_self _ _ hblank, if_pos rfl]
    rfl
  · rw [Values.nonBlank?_insert_of_ne _ hj, if_neg hj, valueText]

theorem length_flatMap_lt {α β : Type} {f g : α → List β} {l : List α} {a : α}
    (h : ∀ b ∈ l, (f b).length ≤ (g b).length) (ha : a ∈ l)
    (hlt : (f a).length < (g a).length) : (l.flatMap f).length < (l.flatMap g).length := by
  rw [List.length_flatMap, List.length_flatMap]
  exact List.sum_lt_sum _ _ h ⟨a, ha, hlt⟩

theorem solid_substituted (s : Text) (values : Values) (config : RenderConfig) :
    Text.solid (substituted s values config) =
      (pieces s).flatMap fun p => Text.solid (pieceText (nodes s) values config p) :=
  List.filter_flatMap

/-- A longer value of an identifier that a piece asks for leaves more behind. -/
theorem length_solid_substituted_lt {s k : Text} {p : Piece} (hp : p ∈ pieces s)
    (hk : p.reference? = some k) (values : Values) (config : RenderConfig) {x y : Text}
    (hx : Text.isAllBlank x = false) (hy : Text.isAllBlank y = false)
    (hxy : (Text.solid x).length < (Text.solid y).length) :
    (Text.solid (substituted s (values.insert k (.text x)) config)).length <
      (Text.solid (substituted s (values.insert k (.text y)) config)).length := by
  rw [solid_substituted, solid_substituted]
  refine length_flatMap_lt (fun q _ => ?_) hp ?_
  · cases hq : q.reference? with
    | none =>
      refine Nat.le_of_eq ?_
      rw [pieceText_of_no_reference hq]
    | some j =>
      rw [pieceText_of_reference hq, pieceText_of_reference hq, valueText_insert hx,
        valueText_insert hy]
      split
      · exact Nat.le_of_lt hxy
      · exact Nat.le_refl _
  · rw [pieceText_of_reference hk, pieceText_of_reference hk, valueText_insert hx,
      valueText_insert hy, if_pos rfl, if_pos rfl]
    exact hxy

end Template

open Template

/-- Prompts with the same instructions differ if what is not blank in their templates differs in
length. -/
theorem generatePrompt_ne {template : Text} {v w : Values} {c d : RenderConfig}
    (h : (Text.solid (substituted template v c)).length <
      (Text.solid (substituted template w d)).length)
    (model : Option ContentModel) (existing : Option ExistingContent) :
    generatePrompt template ⟨v, model, existing, c⟩ ≠
      generatePrompt template ⟨w, model, existing, d⟩ := by
  intro heq
  rw [generatePrompt_eq, generatePrompt_eq] at heq
  have hsolid := congrArg Text.solid (List.append_cancel_right heq)
  rw [solid_tidy, solid_tidy] at hsolid
  exact absurd (congrArg List.length hsolid) (Nat.ne_of_lt h)

/-- **The referenced identifiers are the ones that a prompt depends on**: values that agree on them
give one prompt, and each of them has two values that give two. -/
theorem generatePrompt_referenced (template : Text) (model : Option ContentModel)
    (existing : Option ExistingContent) (config : RenderConfig) :
    (∀ v w : Values,
      (∀ k e, (Registry.ofTemplate template).find? k = some e → e.referenced = true →
        (v.nonBlank? k).map Value.display = (w.nonBlank? k).map Value.display) →
      generatePrompt template ⟨v, model, existing, config⟩ =
        generatePrompt template ⟨w, model, existing, config⟩) ∧
    (∀ k e, (Registry.ofTemplate template).find? k = some e → e.referenced = true →
      ∀ v : Values, ∃ x y : Value,
        generatePrompt template ⟨v.insert k x, model, existing, config⟩ ≠
          generatePrompt template ⟨v.insert k y, model, existing, config⟩) := by
  refine ⟨fun v w hagree => ?_, fun k e he href v => ?_⟩
  · have hsubstituted : substituted template v config = substituted template w config := by
      refine substituted_congr config fun p hp k hk => ?_
      obtain ⟨e, he, href⟩ := exists_reference_iff.mp ⟨p, hp, hk⟩
      exact hagree k e he href
    rw [generatePrompt_eq, generatePrompt_eq, hsubstituted]
  · obtain ⟨p, hp, hk⟩ := exists_reference_iff.mpr ⟨e, he, href⟩
    refine ⟨.text ['x'], .text ['x', 'x'], generatePrompt_ne ?_ model existing⟩
    exact length_solid_substituted_lt hp hk v config (by decide) (by decide) (by decide)

/-- A template that is one reference: the value of another identifier, even one that looks like the
reference, changes nothing, and its own value does. -/
theorem generatePrompt_referenced_braced :
    generatePrompt (braced ['a']) ⟨.empty, none, none, .default⟩ =
      generatePrompt (braced ['a'])
        ⟨Values.empty.insert ['b'] (.text (braced ['a'])), none, none, .default⟩ ∧
    ∃ x y : Value,
      generatePrompt (braced ['a']) ⟨Values.empty.insert ['a'] x, none, none, .default⟩ ≠
        generatePrompt (braced ['a']) ⟨Values.empty.insert ['a'] y, none, none, .default⟩ := by
  have hregistry : Registry.ofTemplate (braced ['a']) =
      ⟨[⟨['a'], false, false, true, none, 0, []⟩]⟩ := by decide +kernel
  refine ⟨?_, ?_⟩
  · refine (generatePrompt_referenced (braced ['a']) none none .default).1 _ _ fun k e he _ => ?_
    rw [hregistry, Registry.find?, List.find?_singleton] at he
    obtain rfl : ['a'] = k := by
      by_contra hk
      simp [hk] at he
    decide
  · refine (generatePrompt_referenced (braced ['a']) none none .default).2 ['a']
      ⟨['a'], false, false, true, none, 0, []⟩ ?_ rfl .empty
    rw [hregistry]
    rfl

end PromptTemplate
