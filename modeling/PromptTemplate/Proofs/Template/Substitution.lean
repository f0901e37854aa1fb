import Mathlib.Data.List.Basic
import PromptTemplate.Prompt
import PromptTemplate.Proofs.Template.Resolution
import PromptTemplate.Proofs.Template.Tidying

/-!
# Proofs/Template/Substitution — a prompt is its template with every occurrence replaced

    Hello {{@name, default=you}}{{name}}!   →   Hello you!

`substituted` replaces each occurrence on its own, by what is supplied and what is written in the
template; it knows of no registry, no merged parameters and no completed values. **That is all that
the passes over a template come to** (`fill_resolve`).
-/

namespace PromptTemplate

open Placeholder

namespace Template

/-- What a reference is replaced by: the supplied value, else the last default written for its
identifier, else the sentinel; what is blank counts as missing. -/
def valueText (ns : List Node) (values : Values) (config : RenderConfig) (k : Text) : Text :=
  match values.nonBlank? k with
  | some v => v.display
  | none =>
    match writtenDefault? ns k with
    | some d => if Text.isAllBlank d then config.sentinel else d
    | none => config.sentinel

/-- What a piece is replaced by, `ns` being the placeholders of the whole template. -/
def pieceText (ns : List Node) (values : Values) (config : RenderConfig) : Piece → Text
  | .char c => [c]
  | .occurrence body =>
    match Placeholder.parse (braced body) with
    | .ok n =>
      match n.modifier with
      | .definition => []
      | .comment => []
      | .reference => valueText ns values config n.identifier
    | .error _ =>
      match modifierOf body with
      | .definition => []
      | .comment => []
      | .reference => config.sentinel

/-- The pieces of a template, each replaced on its own. -/
def substituted (s : Text) (values : Values) (config : RenderConfig) : Text :=
  (pieces s).flatMap (pieceText (nodes s) values config)

theorem mem_nodes {s body : Text} {n : Node} (hbody : .occurrence body ∈ pieces s)
    (hn : Placeholder.parse (braced body) = .ok n) : n ∈ nodes s := by
  refine List.mem_filterMap.mpr ⟨_, hbody, ?_⟩
  rw [Piece.node?, hn]
  rfl

/-- A reference is given its text through the registry as without it. -/
theorem substituteNode_resolve {s : Text} {n : Node} (hn : n ∈ nodes s)
    (href : n.modifier = .reference) (values : Values) (config : RenderConfig) :
    substituteNode ((Registry.ofTemplate s).resolve values) config n =
      valueText (nodes s) values config n.identifier := by
  rw [substituteNode, href, (Registry.reflects_ofTemplate s).nonBlank?_resolve hn href, valueText]
  cases values.nonBlank? n.identifier with
  | some v => rfl
  | none =>
    cases writtenDefault? (nodes s) n.identifier with
    | none => rfl
    | some d => cases hd : Text.isAllBlank d <;> simp [Modifier.isMetadata, Option.filter, hd, Value.display]

theorem renderPiece_resolve {s : Text} {p : Piece} (hp : p ∈ pieces s) (values : Values)
    (config : RenderConfig) :
    renderPiece ((Registry.ofTemplate s).resolve values) config p =
      pieceText (nodes s) values config p := by
  cases p with
  | char c => rfl
  | occurrence body =>
    rw [renderPiece, substitute, pieceText]
    cases hparse : Placeholder.parse (braced body) with
    | error f => cases hm : modifierOf body <;> simp
    | ok n =>
      cases hm : n.modifier with
      | definition => simp [substituteNode, hm, Modifier.isMetadata]
      | comment => simp [substituteNode, hm, Modifier.isMetadata]
      | reference =>
        simp only [hm]
        exact substituteNode_resolve (mem_nodes hp hparse) hm values config

/-- **Filling in the completed values replaces every piece on its own.** -/
theorem fill_resolve (s : Text) (values : Values) (config : RenderConfig) :
    fill ((Registry.ofTemplate s).resolve values) config s = substituted s values config :=
  List.flatMap_congr fun _ hp => renderPiece_resolve hp values config

end Template

open Template

/-- A prompt, with its template replaced piece by piece. -/
theorem generatePrompt_eq (template : Text) (q : PromptRequest) :
    generatePrompt template q =
      tidy q.config.collapse (substituted template q.values q.config) ++
        Instructions.text q.model q.existing := by
  rw [generatePrompt, render, fill_resolve, tidy]

/-- **Without a content model a prompt is its template with every occurrence replaced**, blank lines
and ends tidied up. -/
theorem generatePrompt_eq_substituted (template : Text) (values : Values)
    (existing : Option ExistingContent) (config : RenderConfig) :
    generatePrompt template ⟨values, none, existing, config⟩ =
      Text.trim (if config.collapse then collapseBlankLines (substituted template values config)
        else substituted template values config) := by
  rw [generatePrompt_eq, Instructions.text, List.append_nil, tidy]

end PromptTemplate
