import PromptTemplate.Proofs.Placeholder.Completeness
import PromptTemplate.Proofs.Template.Delimited
import PromptTemplate.Proofs.Template.Form
import PromptTemplate.Template.Render

/-!
# Proofs/Template/Comments — what the text of a comment can change

    {{# a}}{{b}}{{a}}   →   a, b        {{# z}}{{b}}{{a}}   →   b, a

The text of a comment counts as an identifier, but asks for no value and has no parameters. So with
another text the same inputs are asked for, with the same parameters and the same defaults, and the
same prompt is rendered. A comment is an occurrence of its text, though: **an input that is not
defined stands in the form where a comment with its identifier stood, and with that comment changed
it moves** (`exists_inputs_ne`). Nothing else does (`unmoved`).
-/

namespace PromptTemplate

open Placeholder Placeholder.Grammar Text

namespace Template

/-! ## Comments of a template -/

/-- A template with a comment between `a` and `b`, its sign behind `g` and its text `t`. -/
def commented (a g t b : Text) : Text := a ++ (braced (g ++ '#' :: t) ++ b)

theorem braced_inj {s t : Text} (h : braced s = braced t) : s = t :=
  (List.cons.inj (List.cons.inj (List.append_cancel_right h)).2).2

/-- A comment is a gap, its sign, and a text without braces. -/
theorem comment_cases {g t : Text} {n : Node} (hg : '#' ∉ g)
    (h : Placeholder.parse (braced (g ++ '#' :: t)) = .ok n) (hn : n.modifier = .comment) :
    (∀ c ∈ g, Token.isGap c = true) ∧ Unbraced t ∧ isAllBlank t = false := by
  obtain ⟨d, rfl, hd⟩ := exists_derivation_of_parse h ⟨_, rfl⟩ ⟨'\x7b' :: '\x7b' :: _, rfl⟩
  obtain ⟨before, inside, body, behind, after⟩ := d
  cases body with
  | named sign name as => cases sign <;> exact absurd hn (by simp [Derivation.node, Body.node])
  | comment r =>
    have hbody : g ++ '#' :: t = inside.val ++ '#' :: (r.val ++ behind.val) := braced_inj hd
    have hsign : ∀ c ∈ inside.val, (c != '#') = true := by
      intro c hc
      have hgap := inside.2 c hc
      rw [bne_iff_ne]
      rintro rfl
      exact absurd hgap (by decide)
    have hsign' : ∀ c ∈ g, (c != '#') = true := fun c hc =>
      bne_iff_ne.mpr fun heq => hg (heq ▸ hc)
    obtain ⟨rfl, ht⟩ :=
      append_inj_of_ends hsign' hsign (ends_cons.mpr rfl) (ends_cons.mpr rfl) hbody
    obtain rfl : t = r.val ++ behind.val := (List.cons.inj ht).2
    refine ⟨inside.2, Unbraced.append r.2.1 (unbraced_gap behind), ?_⟩
    rw [isAllBlank, List.all_append, ← isAllBlank, r.2.2, Bool.false_and]

/-- **And every such body is a comment.** -/
theorem parse_comment {g t : Text} (hg : ∀ c ∈ g, Token.isGap c = true) (ht : Unbraced t)
    (hblank : isAllBlank t = false) :
    Placeholder.parse (braced (g ++ '#' :: t)) = .ok ⟨.comment, trim t, []⟩ := by
  have h := parse_complete ⟨noGap, ⟨g, hg⟩, .comment ⟨t, ht, hblank⟩, noGap, noGap⟩
  simpa [text_eq_braced, inner, Body.text, noGap, Derivation.node, Body.node] using h

theorem unbraced_comment {g t : Text} (hg : ∀ c ∈ g, Token.isGap c = true) (ht : Unbraced t) :
    Unbraced (g ++ '#' :: t) :=
  Unbraced.append (unbraced_gap ⟨g, hg⟩) (ht.cons rfl)

/-- What occurrences are read as does not depend on where they are. -/
theorem map_parse_occurrencesFrom (i j : Nat) (ps : List Piece) :
    (occurrencesFrom i ps).map (fun o => (Placeholder.parse o.text).toOption) =
      (occurrencesFrom j ps).map (fun o => (Placeholder.parse o.text).toOption) := by
  induction ps generalizing i j with
  | nil => rfl
  | cons p ps ih =>
    cases p with
    | char c => exact ih _ _
    | occurrence body => exact congrArg (_ :: ·) (ih _ _)

theorem readings_append_braced {body : Text} (h : Unbraced body) (a b : Text) :
    readings (a ++ (braced body ++ b)) =
      readings a ++ (Placeholder.parse (braced body)).toOption :: readings b := by
  rw [readings, scan, pieces_append_braced h, occurrencesFrom_append, occurrencesFrom,
    List.map_append, List.map_cons, map_parse_occurrencesFrom _ 0 (pieces b)]
  rfl

theorem reduceOption_readings (s : Text) : (readings s).reduceOption = nodes s := by
  rw [readings, List.reduceOption, List.filterMap_map, nodes, ← filterMap_occurrencesFrom 0]
  rfl

theorem readings_commented {a g t b : Text} (hg : ∀ c ∈ g, Token.isGap c = true) (ht : Unbraced t)
    (hblank : isAllBlank t = false) :
    readings (commented a g t b) = readings a ++ some ⟨.comment, trim t, []⟩ :: readings b := by
  rw [commented, readings_append_braced (unbraced_comment hg ht), parse_comment hg ht hblank]
  rfl

end Template

/-! ## Placeholders that are no comments -/

/-- The placeholders that say something: all but the comments. -/
def spoken (ns : List Node) : List Node := ns.filter (·.modifier ≠ .comment)

theorem spoken_comment {c : Node} (hc : c.modifier = .comment) (ns ms : List Node) :
    spoken (ns ++ c :: ms) = spoken ns ++ spoken ms := by
  rw [spoken, List.filter_append, List.filter_cons_of_neg (by simp [hc]), spoken, spoken]

theorem exists_mem_spoken_iff {ns : List Node} {k : Text} :
    (∃ n ∈ spoken ns, n.identifier = k) ↔ ∃ n ∈ ns, n.identifier = k ∧ n.modifier ≠ .comment := by
  simp [spoken, and_assoc, and_comm]

theorem writtenParameters_ofIdentifier (k : Text) (ns : List Node) :
    writtenParameters (ofIdentifier k ns) =
      (ofIdentifier k (spoken ns)).flatMap Node.parameters := by
  rw [writtenParameters, ofIdentifier, ofIdentifier, spoken, List.filter_filter, List.filter_filter]
  simp only [Bool.and_comm]

namespace Registry

variable {r r' : Registry} {ns ns' : List Node}

/-- The inputs and their parameters depend on such placeholders alone. -/
theorem Reflects.inputs_perm (h : Reflects r ns) (h' : Reflects r' ns')
    (hns : spoken ns = spoken ns') :
    (r.inputs.map Entry.identifier).Perm (r'.inputs.map Entry.identifier) := by
  refine (List.perm_ext_iff_of_nodup (distinct_inputs h.distinct)
    (distinct_inputs h'.distinct)).mpr fun k => ?_
  rw [h.mem_inputs_iff, h'.mem_inputs_iff, ← exists_mem_spoken_iff, ← exists_mem_spoken_iff, hns]

theorem Reflects.exists_input (h : Reflects r ns) (h' : Reflects r' ns')
    (hns : spoken ns = spoken ns') {k : Text} {e : Entry}
    (he : r.input? k = some e) :
    ∃ e', r'.input? k = some e' ∧ e'.identifier = e.identifier ∧
      e'.parameters = e.parameters := by
  obtain ⟨hfind, hinput⟩ := (input?_eq_some h.distinct).mp he
  obtain ⟨hmem, rfl⟩ := h.find?_eq_some.mp hfind
  have hspoken := exists_mem_spoken_iff.mpr ((h.isInput_iff hmem).mp hinput)
  rw [hns, exists_mem_spoken_iff] at hspoken
  obtain ⟨n, hn, hid, hm⟩ := hspoken
  obtain ⟨e', he'⟩ := h'.exists_find? hn
  rw [hid] at he'
  obtain ⟨hmem', hid'⟩ := h'.find?_eq_some.mp he'
  have hinput' := (h'.isInput_iff hmem').mpr ⟨n, hn, hid.trans hid'.symm, hm⟩
  refine ⟨e', (input?_eq_some h'.distinct).mpr ⟨he', hinput'⟩, hid', ?_⟩
  rw [(h'.records hmem').parameters, (h.records hmem).parameters, hid',
    writtenParameters_ofIdentifier, writtenParameters_ofIdentifier, hns]

theorem Reflects.parameters_eq (h : Reflects r ns) (h' : Reflects r' ns')
    (hns : spoken ns = spoken ns') (k : Text) :
    (r'.input? k).map Entry.parameters = (r.input? k).map Entry.parameters := by
  cases he : r.input? k with
  | some e =>
    obtain ⟨e', he', -, hparameters⟩ := h.exists_input h' hns he
    rw [he', Option.map_some, Option.map_some, hparameters]
  | none =>
    cases he' : r'.input? k with
    | none => rfl
    | some e' =>
      obtain ⟨e, hsome, -⟩ := h'.exists_input h hns.symm he'
      exact absurd hsome (by simp [he])

theorem fallback?_congr {e e' : Entry} (hid : e'.identifier = e.identifier)
    (hparameters : e'.parameters = e.parameters) (supplied : Values) :
    fallback? supplied e' = fallback? supplied e := by
  rw [fallback?, fallback?, Entry.default?, Entry.default?, Entry.parameter?, Entry.parameter?, hid,
    hparameters]

theorem Reflects.resolve_eq (h : Reflects r ns) (h' : Reflects r' ns')
    (hns : spoken ns = spoken ns') (supplied : Values) :
    r'.resolve supplied = r.resolve supplied := by
  refine Values.ext_get? fun k => ?_
  rw [resolve, resolve, get?_foldl_resolveEntry (distinct_inputs h'.distinct),
    get?_foldl_resolveEntry (distinct_inputs h.distinct), ← input?, ← input?]
  cases he : r.input? k with
  | some e =>
    obtain ⟨e', he', hid, hparameters⟩ := h.exists_input h' hns he
    rw [he', Option.bind_some, Option.bind_some, fallback?_congr hid hparameters]
  | none =>
    have hnone := h.parameters_eq h' hns k
    rw [he, Option.map_none, Option.map_eq_none_iff] at hnone
    rw [hnone]

end Registry

/-! ## Where a comment matters -/

section

variable {A B : List (Option Node)} {c c' : Node}

/-- A property that both of two placeholders have, or neither, is first met in the same place. -/
theorem firstIndex?_replace {p : Node → Bool} (h : p c' = p c) :
    firstIndex? p (A ++ some c' :: B) = firstIndex? p (A ++ some c :: B) := by
  simp [firstIndex?, List.findIdx?_append, List.findIdx?_cons, h]

theorem firstDefinition?_replace (hc : c.modifier = .comment) (hc' : c'.modifier = .comment)
    (k : Text) : firstDefinition? (A ++ some c' :: B) k = firstDefinition? (A ++ some c :: B) k :=
  firstIndex?_replace (by simp [hc, hc'])

theorem firstOccurrence?_replace {k : Text} (h : c'.identifier = k ↔ c.identifier = k) :
    firstOccurrence? (A ++ some c' :: B) k = firstOccurrence? (A ++ some c :: B) k :=
  firstIndex?_replace (by simp [h])

end

namespace Template

/-- An identifier that can move when the text of a comment changes from `x` to `y`: it is one of the
two, no placeholder before the comment has it, and no definition behind. -/
def Moves (a b x y k : Text) : Prop :=
  (x ≠ y ∧ (x = k ∨ y = k)) ∧ (∀ n ∈ nodes a, n.identifier ≠ k) ∧
    ∀ n ∈ nodes b, n.identifier = k → n.modifier ≠ .definition

instance (a b x y : Text) : DecidablePred (Moves a b x y) := fun _ =>
  inferInstanceAs (Decidable (_ ∧ _))

variable {a b : Text} {c c' : Node}

theorem isSome_firstDefinition?_of_mem {n : Node} (hn : n ∈ nodes b)
    (hm : n.modifier = .definition) :
    (firstDefinition? (readings a ++ some c :: readings b) n.identifier).isSome = true := by
  rw [← reduceOption_readings] at hn
  refine firstIndex?_isSome.mpr ⟨n, ?_, by simp [hm]⟩
  rw [List.reduceOption_append, List.reduceOption_cons_of_some]
  exact List.mem_append_right _ (List.mem_cons_of_mem c hn)

theorem isSome_firstOccurrence?_of_mem {n : Node} (hn : n ∈ nodes a) :
    (firstOccurrence? (readings a) n.identifier).isSome = true := by
  rw [← reduceOption_readings] at hn
  exact firstIndex?_isSome.mpr ⟨n, hn, by simp⟩

/-- What does not move and is not defined keeps its first occurrence. -/
theorem firstOccurrence?_of_not_moves {k : Text}
    (hk : ¬ Moves a b c.identifier c'.identifier k)
    (hnone : firstDefinition? (readings a ++ some c :: readings b) k = none) :
    firstOccurrence? (readings a ++ some c' :: readings b) k =
      firstOccurrence? (readings a ++ some c :: readings b) k := by
  by_cases hsame : c'.identifier = k ↔ c.identifier = k
  · exact firstOccurrence?_replace hsame
  · have hone : c.identifier ≠ c'.identifier ∧ (c.identifier = k ∨ c'.identifier = k) := by
      refine ⟨fun heq => hsame (by rw [heq]), ?_⟩
      by_contra hneither
      rw [not_or] at hneither
      exact hsame (iff_of_false hneither.2 hneither.1)
    have hbehind : ∀ n ∈ nodes b, n.identifier = k → n.modifier ≠ .definition := by
      rintro n hn rfl hm
      have hsome : (firstDefinition? (readings a ++ some c :: readings b) n.identifier).isSome =
          true := isSome_firstDefinition?_of_mem hn hm
      exact absurd hsome (by simp [hnone])
    have hbefore : ¬ ∀ n ∈ nodes a, n.identifier ≠ k := fun h => hk ⟨hone, h, hbehind⟩
    obtain ⟨n, hn, rfl⟩ : ∃ n ∈ nodes a, n.identifier = k := by simpa using hbefore
    have hfound := isSome_firstOccurrence?_of_mem hn
    rw [firstOccurrence?, firstIndex?_append_of_isSome hfound, firstOccurrence?,
      firstIndex?_append_of_isSome hfound]

/-- What does not move keeps its place among the others. -/
theorem before_of_not_moves (hc : c.modifier = .comment) (hc' : c'.modifier = .comment)
    {k j : Text} (hk : ¬ Moves a b c.identifier c'.identifier k)
    (hj : ¬ Moves a b c.identifier c'.identifier j)
    (h : Before (readings a ++ some c' :: readings b) k j) :
    Before (readings a ++ some c :: readings b) k j := by
  have hdefinition : ∀ k, firstDefinition? (readings a ++ some c :: readings b) k =
      firstDefinition? (readings a ++ some c' :: readings b) k := firstDefinition?_replace hc' hc
  exact h.congr (hdefinition k) (hdefinition j)
    (fun hnone => (firstOccurrence?_of_not_moves hk ((hdefinition k).trans hnone)).symm)
    (fun hnone => (firstOccurrence?_of_not_moves hj ((hdefinition j).trans hnone)).symm)

/-! ## All of it -/

/-- What two templates have in common if one identifier or another may move in the form. -/
structure Unmoved (s s' : Text) (moves : Text → Prop) [DecidablePred moves] : Prop where
  inputs_perm : ((Registry.ofTemplate s').inputs.map Entry.identifier).Perm
    ((Registry.ofTemplate s).inputs.map Entry.identifier)
  /-- The other inputs stand in the same order. -/
  order_eq : ((Registry.ofTemplate s').inputs.map Entry.identifier).filter (¬ moves ·) =
    ((Registry.ofTemplate s).inputs.map Entry.identifier).filter (¬ moves ·)
  parameters_eq : ∀ k, ((Registry.ofTemplate s').input? k).map Entry.parameters =
    ((Registry.ofTemplate s).input? k).map Entry.parameters
  resolve_eq : ∀ values,
    (Registry.ofTemplate s').resolve values = (Registry.ofTemplate s).resolve values
  render_eq : ∀ values config, render values config s' = render values config s

theorem nodes_commented {a g t b : Text} (hg : ∀ c ∈ g, Token.isGap c = true) (ht : Unbraced t)
    (hblank : isAllBlank t = false) :
    nodes (commented a g t b) = nodes a ++ ⟨.comment, trim t, []⟩ :: nodes b := by
  rw [← reduceOption_readings, readings_commented hg ht hblank, List.reduceOption_append,
    List.reduceOption_cons_of_some, reduceOption_readings, reduceOption_readings]

/-- A comment leaves nothing in the text. -/
theorem fill_commented {a g t b : Text} (hg : ∀ c ∈ g, Token.isGap c = true) (ht : Unbraced t)
    (hblank : isAllBlank t = false) (values : Values) (config : RenderConfig) :
    fill values config (commented a g t b) = fill values config a ++ fill values config b := by
  have hcomment : renderPiece values config (.occurrence (g ++ '#' :: t)) = [] := by
    rw [renderPiece, substitute, parse_comment hg ht hblank]
    rfl
  rw [fill, commented, pieces_append_braced (unbraced_comment hg ht), List.flatMap_append,
    List.flatMap_cons, hcomment, List.nil_append, fill, fill]

/-- **With another text in a comment the same inputs are asked for, with the same parameters and
defaults, and the same text is rendered; and all inputs keep their order** but such as have one of
the two texts for their identifier, do not occur before the comment, and are not defined. -/
theorem unmoved {a g t t' b : Text} {n : Node} (hg : '#' ∉ g)
    (h : Placeholder.parse (braced (g ++ '#' :: t)) = .ok n) (hn : n.modifier = .comment)
    (ht' : Unbraced t') (hblank' : isAllBlank t' = false) :
    Unmoved (commented a g t b) (commented a g t' b) (Moves a b (trim t) (trim t')) := by
  obtain ⟨hgap, ht, hblank⟩ := comment_cases hg h hn
  have hr := Registry.numbered_ofTemplate (commented a g t b)
  have hr' := Registry.numbered_ofTemplate (commented a g t' b)
  have hnodes := Registry.reflects_ofTemplate (commented a g t b)
  have hnodes' := Registry.reflects_ofTemplate (commented a g t' b)
  rw [readings_commented hgap ht hblank] at hr
  rw [readings_commented hgap ht' hblank'] at hr'
  rw [nodes_commented hgap ht hblank] at hnodes
  rw [nodes_commented hgap ht' hblank'] at hnodes'
  have hspoken : spoken (nodes a ++ ⟨.comment, trim t, []⟩ :: nodes b) =
      spoken (nodes a ++ ⟨.comment, trim t', []⟩ :: nodes b) := by
    rw [spoken_comment rfl, spoken_comment rfl]
  have hperm := (hnodes.inputs_perm hnodes' hspoken).symm
  refine ⟨hperm, ?_, hnodes.parameters_eq hnodes' hspoken, hnodes.resolve_eq hnodes' hspoken, ?_⟩
  · -- both are in the order of the old template, as nothing that is left moves
    refine eq_of_pairwise_before (hperm.filter _) ?_ (hr.pairwise_inputs.filter _)
    refine (hr'.pairwise_inputs.filter _).imp_of_mem fun {k j} hk hj hkj => ?_
    have hk' : ¬ Moves a b (trim t) (trim t') k := of_decide_eq_true (List.mem_filter.mp hk).2
    have hj' : ¬ Moves a b (trim t) (trim t') j := of_decide_eq_true (List.mem_filter.mp hj).2
    exact before_of_not_moves rfl rfl hk' hj' hkj
  · intro values config
    rw [render, render, fill_commented hgap ht hblank, fill_commented hgap ht' hblank']

/-- A comment with a gap before its sign: `a` moves behind `b`, and `d` stays in front. -/
theorem unmoved_definition :
    Unmoved (commented (braced ['@', 'd']) [' '] [' ', 'a'] (braced ['b'] ++ braced ['a']))
      (commented (braced ['@', 'd']) [' '] ['z'] (braced ['b'] ++ braced ['a']))
      (Moves (braced ['@', 'd']) (braced ['b'] ++ braced ['a']) ['a'] ['z']) :=
  unmoved (n := ⟨.comment, ['a'], []⟩) (by decide) (by decide +kernel) rfl (by decide) (by decide)

/-- A reference that stands in the form where a comment stood. -/
theorem exists_inputs_ne :
    ¬ ∀ (a g t t' b : Text) (n : Node), '#' ∉ g →
      Placeholder.parse (braced (g ++ '#' :: t)) = .ok n → n.modifier = .comment →
      Unbraced t' → isAllBlank t' = false →
        (Registry.ofTemplate (commented a g t' b)).inputs.map Entry.identifier =
            (Registry.ofTemplate (commented a g t b)).inputs.map Entry.identifier ∧
          (∀ k, ((Registry.ofTemplate (commented a g t' b)).input? k).map Entry.parameters =
            ((Registry.ofTemplate (commented a g t b)).input? k).map Entry.parameters) ∧
          (∀ values, (Registry.ofTemplate (commented a g t' b)).resolve values =
            (Registry.ofTemplate (commented a g t b)).resolve values) ∧
          ∀ values config, render values config (commented a g t' b) =
            render values config (commented a g t b) := by
  intro h
  obtain ⟨hinputs, -⟩ := h [] [] [' ', 'a'] [' ', 'z'] (braced ['b'] ++ braced ['a'])
    ⟨.comment, ['a'], []⟩ (by decide) (by decide +kernel) rfl (by decide) (by decide)
  rw [Registry.inputs_of_pairwise (by decide +kernel),
    Registry.inputs_of_pairwise (by decide +kernel)] at hinputs
  revert hinputs
  decide +kernel

end Template

end PromptTemplate
