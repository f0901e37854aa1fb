import PromptTemplate.Proofs.Placeholder.Soundness
import PromptTemplate.Proofs.Template.Scanning

/-!
# Proofs/Template/Delimited — a placeholder has no braces but those around it

    ␣{{ @name, label = "Your name" }}␣
     └─ braced, and no brace inside ─┘

No token of a body holds a brace. So **a text that is a placeholder from its first brace to its last
is an occurrence of any template around it** (`exists_braced_of_parse`).
-/

namespace PromptTemplate.Template

open Placeholder Placeholder.Grammar

theorem unbraced_gap (g : Gap) : Unbraced g.val := unbraced_of_class rfl rfl g.2

theorem unbraced_name (name : Name) : Unbraced name.val :=
  unbraced_of_class (by decide) (by decide) name.2.2

theorem unbraced_word (w : Word) : Unbraced w.val :=
  unbraced_of_class (by decide) (by decide) w.2.2

theorem unbraced_quotation (t : Quotation) : Unbraced t.val := unbraced_of_class rfl rfl t.2

theorem Unbraced.cons {t : Text} (h : Unbraced t) {c : Char} (hc : Token.isBrace c = false) :
    Unbraced (c :: t) := unbraced_cons.mpr ⟨hc, h⟩

theorem Unbraced.append {s t : Text} (hs : Unbraced s) (ht : Unbraced t) : Unbraced (s ++ t) :=
  unbraced_append.mpr ⟨hs, ht⟩

theorem unbraced_flatMap {α : Type} {f : α → Text} (h : ∀ a, Unbraced (f a)) (l : List α) :
    Unbraced (l.flatMap f) := by
  intro c hc
  obtain ⟨a, -, hca⟩ := List.mem_flatMap.mp hc
  exact h a c hca

theorem unbraced_value (v : Value) : Unbraced v.text := by
  cases v with
  | quoted t => exact ((unbraced_quotation t).append (unbraced_nil.cons rfl)).cons rfl
  | bare w ws =>
    exact (unbraced_word w).append (unbraced_flatMap (fun w => (unbraced_word w).cons rfl) ws)

theorem unbraced_argument (a : Argument) : Unbraced a.text := by
  have hvalue : Unbraced ('=' :: (a.afterEquals.val ++ a.value.text)) :=
    ((unbraced_gap a.afterEquals).append (unbraced_value a.value)).cons rfl
  have hkey := (unbraced_name a.key).append ((unbraced_gap a.beforeEquals).append hvalue)
  exact (unbraced_gap a.beforeComma).append (((unbraced_gap a.afterComma).append hkey).cons rfl)

theorem unbraced_sign (sign : Option Gap) : Unbraced (signText sign) := by
  cases sign with
  | none => exact unbraced_nil
  | some g => exact (unbraced_gap g).cons rfl

/-- **No body has a brace.** -/
theorem unbraced_body (b : Body) : Unbraced b.text := by
  cases b with
  | comment t => exact Unbraced.cons t.2.1 rfl
  | named sign name as =>
    exact (unbraced_sign sign).append
      ((unbraced_name name).append (unbraced_flatMap unbraced_argument as))

/-- What stands between the braces. -/
def inner (d : Derivation) : Text := d.inside.val ++ (d.body.text ++ d.behind.val)

theorem unbraced_inner (d : Derivation) : Unbraced (inner d) :=
  (unbraced_gap d.inside).append ((unbraced_body d.body).append (unbraced_gap d.behind))

theorem text_eq_braced (d : Derivation) :
    d.text = d.before.val ++ (braced (inner d) ++ d.after.val) := by
  simp [Derivation.text, closingText, braced, inner]

theorem gap_eq_nil_of_prefix {g : Gap} {t : Text} (h : ['\x7b', '\x7b'] <+: g.val ++ t) :
    g.val = [] := by
  cases hg : g.val with
  | nil => rfl
  | cons c g' =>
    rw [hg, List.cons_append, List.cons_prefix_cons] at h
    have hc := g.2 c (hg ▸ List.mem_cons_self)
    rw [← h.1] at hc
    exact absurd hc (by decide)

theorem gap_eq_nil_of_suffix {g : Gap} {t : Text} (h : ['\x7d', '\x7d'] <:+ t ++ g.val) :
    g.val = [] := by
  obtain ⟨s, hs⟩ := h
  obtain hg | ⟨g', c, hg⟩ := List.eq_nil_or_concat g.val
  · exact hg
  · have hc := g.2 c (by simp [hg])
    have hlast : (s ++ ['\x7d']) ++ ['\x7d'] = (t ++ g') ++ [c] := by
      simpa [hg] using hs
    obtain rfl := List.singleton_inj.mp (List.append_inj' hlast rfl).2
    exact absurd hc (by decide)

/-- **A placeholder from its first brace to its last is a derivation without gaps around it.** -/
theorem exists_derivation_of_parse {t : Text} {n : Node} (h : Placeholder.parse t = .ok n)
    (hopening : ['\x7b', '\x7b'] <+: t) (hclosing : ['\x7d', '\x7d'] <:+ t) :
    ∃ d : Derivation, d.node = n ∧ t = braced (inner d) := by
  obtain ⟨d, rfl, rfl⟩ := parse_sound h
  rw [text_eq_braced] at hopening hclosing
  have hbefore := gap_eq_nil_of_prefix hopening
  rw [← List.append_assoc] at hclosing
  have hafter := gap_eq_nil_of_suffix hclosing
  refine ⟨d, rfl, ?_⟩
  rw [text_eq_braced, hbefore, hafter, List.nil_append, List.append_nil]

/-- So it has no braces inside. -/
theorem exists_braced_of_parse {t : Text} {n : Node} (h : Placeholder.parse t = .ok n)
    (hopening : ['\x7b', '\x7b'] <+: t) (hclosing : ['\x7d', '\x7d'] <:+ t) :
    ∃ body, Unbraced body ∧ t = braced body := by
  obtain ⟨d, -, ht⟩ := exists_derivation_of_parse h hopening hclosing
  exact ⟨inner d, unbraced_inner d, ht⟩

end PromptTemplate.Template
