import PromptTemplate.Prompt
import PromptTemplate.Proofs.Template.Delimited

/-!
# Proofs/Template/Rewriting — a placeholder may be written in any way that is read the same

    {{@name,label=Name}} {{{name}}   →   {{@name, label="Name"}} {{{ name }}

A placeholder that is replaced by another way to write it stays in its place, and so does every
other occurrence (`exists_pieces`). Its text is looked at nowhere but in reading it, so **the
registry, the number of diagnostics and everything that is rendered stay the same**
(`rewrites_flatten`).
-/

namespace PromptTemplate

open Placeholder

namespace Template

/-- A text that may stand in the place of a piece: the piece itself or, for a placeholder, a text
between braces that is read as the same node. -/
inductive Rewrites : Piece → Text → Prop
  | kept (p : Piece) : Rewrites p p.text
  | rewritten {body t : Text} {n : Node} (hbody : Placeholder.parse (braced body) = .ok n)
      (hopening : ['\x7b', '\x7b'] <+: t) (hclosing : ['\x7d', '\x7d'] <:+ t)
      (ht : Placeholder.parse t = .ok n) : Rewrites (.occurrence body) t

/-- Two pieces that are the same, or are read as the same node. -/
inductive SameReading : Piece → Piece → Prop
  | refl (p : Piece) : SameReading p p
  | node {b b' : Text} {n : Node} (h : Placeholder.parse (braced b) = .ok n)
      (h' : Placeholder.parse (braced b') = .ok n) : SameReading (.occurrence b) (.occurrence b')

/-! ## The pieces stay in their places -/

theorem Rewrites.exists_piece {p : Piece} {t : Text} (h : Rewrites p t)
    (hp : ∀ body, p = .occurrence body → Unbraced body) :
    ∃ q : Piece, q.text = t ∧ SameShape p q ∧ SameReading p q := by
  cases h with
  | kept =>
    refine ⟨p, rfl, ?_, .refl p⟩
    cases p with
    | char c => exact .char c
    | occurrence body => exact .occurrence (hp body rfl)
  | rewritten hbody hopening hclosing ht =>
    obtain ⟨body', hbody', rfl⟩ := exists_braced_of_parse ht hopening hclosing
    exact ⟨.occurrence body', rfl, .occurrence hbody', .node hbody ht⟩

theorem exists_of_rewrites {ps : List Piece} {ts : List Text} (h : List.Forall₂ Rewrites ps ts)
    (hps : ∀ p ∈ ps, ∀ body, p = .occurrence body → Unbraced body) :
    ∃ qs : List Piece, qs.flatMap Piece.text = ts.flatten ∧ List.Forall₂ SameShape ps qs ∧
      List.Forall₂ SameReading ps qs := by
  induction h with
  | nil => exact ⟨[], rfl, .nil, .nil⟩
  | cons hp hrest ih =>
    obtain ⟨hfirst, hothers⟩ := List.forall_mem_cons.mp hps
    obtain ⟨q, rfl, hshape, hreading⟩ := hp.exists_piece hfirst
    obtain ⟨qs, hqs, hshapes, hreadings⟩ := ih hothers
    exact ⟨q :: qs, congrArg (q.text ++ ·) hqs, .cons hshape hshapes, .cons hreading hreadings⟩

/-- **The pieces of the new template are those of the old one, read the same.** -/
theorem sameReading_pieces {s : Text} {ts : List Text} (h : List.Forall₂ Rewrites (pieces s) ts) :
    List.Forall₂ SameReading (pieces s) (pieces ts.flatten) := by
  obtain ⟨qs, hqs, hshapes, hreadings⟩ := exists_of_rewrites h
    fun p hp body hbody => unbraced_of_mem_pieces (hbody ▸ hp)
  rw [← hqs, pieces_flatMap_text hshapes]
  exact hreadings

/-! ## What depends on the reading alone -/

theorem SameReading.renderPiece_eq {p q : Piece} (h : SameReading p q) (values : Values)
    (config : RenderConfig) : renderPiece values config q = renderPiece values config p := by
  cases h with
  | refl => rfl
  | node h h' => simp only [renderPiece, substitute, h, h']

theorem flatMap_renderPiece_eq {ps qs : List Piece} (h : List.Forall₂ SameReading ps qs)
    (values : Values) (config : RenderConfig) :
    qs.flatMap (renderPiece values config) = ps.flatMap (renderPiece values config) := by
  induction h with
  | nil => rfl
  | cons hp _ ih => rw [List.flatMap_cons, List.flatMap_cons, hp.renderPiece_eq, ih]

/-- The occurrences may move, but each is read as before. -/
theorem forall₂_occurrencesFrom {ps qs : List Piece} (h : List.Forall₂ SameReading ps qs)
    (i j : Nat) :
    List.Forall₂ (fun o o' : Occurrence => SameReading (.occurrence o.body) (.occurrence o'.body))
      (occurrencesFrom i ps) (occurrencesFrom j qs) := by
  induction h generalizing i j with
  | nil => exact .nil
  | @cons p q _ _ hp _ ih =>
    cases hp with
    | refl =>
      cases p with
      | char c => exact ih _ _
      | occurrence body => exact .cons (.refl _) (ih _ _)
    | node h h' => exact .cons (.node h h') (ih _ _)

end Template

open Template

/-- Where an occurrence is does not matter to a registry, only its index. -/
theorem Registry.survey_congr {os os' : List Occurrence}
    (h : List.Forall₂
      (fun o o' : Occurrence => SameReading (.occurrence o.body) (.occurrence o'.body)) os os')
    (r : Registry) (i : Nat) :
    (r.survey i os').1 = (r.survey i os).1 ∧
      (r.survey i os').2.length = (r.survey i os).2.length := by
  induction h generalizing r i with
  | nil => exact ⟨rfl, rfl⟩
  | @cons o o' _ _ ho _ ih =>
    obtain ⟨k, body⟩ := o
    obtain ⟨k', body'⟩ := o'
    simp only [survey, Occurrence.text]
    cases ho with
    | refl =>
      cases Placeholder.parse (braced body) with
      | ok n => exact ih _ _
      | error f =>
        obtain ⟨hregistry, hlength⟩ := ih r (i + 1)
        exact ⟨hregistry, congrArg (· + 1) hlength⟩
    | node h h' =>
      rw [h, h']
      exact ih _ _

theorem fill_of_rewrites {s : Text} {ts : List Text} (h : List.Forall₂ Rewrites (pieces s) ts)
    (values : Values) (config : RenderConfig) :
    fill values config ts.flatten = fill values config s :=
  flatMap_renderPiece_eq (sameReading_pieces h) values config

/-- **Writing placeholders in another way changes nothing.** -/
theorem rewrites_flatten (s : Text) (ts : List Text) (h : List.Forall₂ Rewrites (pieces s) ts) :
    Registry.ofTemplate ts.flatten = Registry.ofTemplate s ∧
      (Registry.diagnostics ts.flatten).length = (Registry.diagnostics s).length ∧
      (∀ values config, render values config ts.flatten = render values config s) ∧
      ∀ q, generatePrompt ts.flatten q = generatePrompt s q := by
  obtain ⟨hregistry, hlength⟩ :=
    Registry.survey_congr (forall₂_occurrencesFrom (sameReading_pieces h) 0 0) .empty 0
  have hrender : ∀ values config, render values config ts.flatten = render values config s :=
    fun values config => by rw [render, render, fill_of_rewrites h]
  refine ⟨hregistry, hlength, hrender, fun q => ?_⟩
  have hofTemplate : Registry.ofTemplate ts.flatten = Registry.ofTemplate s := hregistry
  rw [generatePrompt, generatePrompt, hrender, hofTemplate]

/-- A reference with one more brace in front of it, and a definition: their blanks and quotes are no
part of what they are read as. -/
theorem rewrites_flatten_spaced :
    List.Forall₂ Rewrites (pieces ('\x7b' :: (braced ['a'] ++ braced "@a,x=1".toList)))
        [['\x7b'], braced " a ".toList, braced "@ a, x = \"1\" ".toList] ∧
      Registry.ofTemplate ('\x7b' :: (braced " a ".toList ++ braced "@ a, x = \"1\" ".toList)) =
        Registry.ofTemplate ('\x7b' :: (braced ['a'] ++ braced "@a,x=1".toList)) ∧
      generatePrompt ('\x7b' :: (braced " a ".toList ++ braced "@ a, x = \"1\" ".toList))
          ⟨.empty, none, none, .default⟩ =
        generatePrompt ('\x7b' :: (braced ['a'] ++ braced "@a,x=1".toList))
          ⟨.empty, none, none, .default⟩ := by
  have hpieces : pieces ('\x7b' :: (braced ['a'] ++ braced "@a,x=1".toList)) =
      [.char '\x7b', .occurrence ['a'], .occurrence "@a,x=1".toList] := by decide +kernel
  have hreference : Rewrites (.occurrence ['a']) (braced " a ".toList) :=
    .rewritten (n := ⟨.reference, ['a'], []⟩) (by decide +kernel) (by decide) (by decide)
      (by decide +kernel)
  have hdefinition : Rewrites (.occurrence "@a,x=1".toList) (braced "@ a, x = \"1\" ".toList) :=
    .rewritten (n := ⟨.definition, ['a'], [⟨['x'], ['1']⟩]⟩) (by decide +kernel) (by decide)
      (by decide) (by decide +kernel)
  have h : List.Forall₂ Rewrites (pieces ('\x7b' :: (braced ['a'] ++ braced "@a,x=1".toList)))
      [['\x7b'], braced " a ".toList, braced "@ a, x = \"1\" ".toList] :=
    hpieces ▸ .cons (.kept _) (.cons hreference (.cons hdefinition .nil))
  obtain ⟨hregistry, -, -, hprompt⟩ := rewrites_flatten _ _ h
  exact ⟨h, hregistry, hprompt _⟩

end PromptTemplate
