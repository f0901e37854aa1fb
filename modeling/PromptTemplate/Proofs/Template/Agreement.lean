import PromptTemplate.Proofs.Template.Delimited

/-!
# Proofs/Template/Agreement — a template is cut up as its placeholders are read

    …{ {{ @name, label=Name }} }…     found, as a definition; read, as a definition

Occurrences are looked for by their braces and take their sign from the first character that is not
blank; a placeholder is read token by token, and blanks are but four characters there. Still
**every placeholder is found, whatever stands around it, and has the sign that it is read with**
(`scan_agrees`).
-/

namespace PromptTemplate.Template

open Placeholder Placeholder.Grammar Text

/-! ## The sign of a body -/

/-- Blanks in front of a body do not matter to its sign. -/
theorem modifierOf_blanks_append {g : Text} (hg : ∀ c ∈ g, isBlank c = true) (t : Text) :
    modifierOf (g ++ t) = modifierOf t := by
  rw [modifierOf, trimStart, List.dropWhile_append_of_pos hg, modifierOf, trimStart]

/-- A body that begins with a character that is neither blank nor a sign is one of a reference. -/
theorem modifierOf_cons {c : Char} {t : Text} (hblank : isBlank c = false) (hdefinition : c ≠ '@')
    (hcomment : c ≠ '#') : modifierOf (c :: t) = .reference := by
  rw [modifierOf, trimStart, List.dropWhile_cons_of_neg (by simp [hblank])]
  split
  · rename_i h
    exact absurd (List.cons.inj h).1 hdefinition
  · rename_i h
    exact absurd (List.cons.inj h).1 hcomment
  · rfl

theorem isBlank_of_isIdentChar {c : Char} (h : Token.isIdentChar c = true) :
    isBlank c = false := by
  have hrange : 0x30 ≤ c.toNat ∧ c.toNat ≤ 0x7A := by
    simp only [Token.isIdentChar, Bool.or_eq_true, Bool.and_eq_true, decide_eq_true_eq, beq_iff_eq,
      Char.le_def, UInt32.le_iff_toNat_le] at h
    obtain ((h | h) | h) | rfl := h
    · exact ⟨Nat.le_trans (by decide) h.1, h.2⟩
    · exact ⟨Nat.le_trans (by decide) h.1, Nat.le_trans h.2 (by decide)⟩
    · exact ⟨h.1, Nat.le_trans h.2 (by decide)⟩
    · decide
  simp only [isBlank, Bool.or_eq_false_iff, Bool.and_eq_false_iff, decide_eq_false_iff_not,
    beq_eq_false_iff_ne]
  omega

/-- A name begins with no sign. -/
theorem modifierOf_name (name : Name) (r : Text) : modifierOf (name.val ++ r) = .reference := by
  obtain ⟨t, hne, hname⟩ := name
  obtain ⟨c, t, rfl⟩ := List.exists_cons_of_ne_nil hne
  have hc := hname c List.mem_cons_self
  refine modifierOf_cons (isBlank_of_isIdentChar hc) ?_ ?_
  · rintro rfl
    exact absurd hc (by decide)
  · rintro rfl
    exact absurd hc (by decide)

theorem modifierOf_body (b : Body) (r : Text) : modifierOf (b.text ++ r) = b.node.modifier := by
  match b with
  | .comment t => rfl
  | .named (some g) name as => rfl
  | .named none name as =>
    rw [Body.text, signText, List.nil_append, List.append_assoc]
    exact modifierOf_name name _

/-- **The sign of what stands between the braces is the one that is read.** -/
theorem modifierOf_inner (d : Derivation) : modifierOf (inner d) = d.node.modifier := by
  have hinside : ∀ c ∈ d.inside.val, isBlank c = true :=
    fun c hc => Token.isBlank_of_isGap (d.inside.2 c hc)
  rw [inner, modifierOf_blanks_append hinside, modifierOf_body, Derivation.node]

/-! ## Occurrences and placeholders -/

/-- The text of an occurrence begins and ends with its braces. -/
theorem modifierOf_of_parse {body : Text} {n : Node} (h : Placeholder.parse (braced body) = .ok n) :
    modifierOf body = n.modifier := by
  obtain ⟨d, rfl, hbody⟩ := exists_derivation_of_parse h ⟨body ++ ['\x7d', '\x7d'], rfl⟩
    ⟨'\x7b' :: '\x7b' :: body, rfl⟩
  have hinner : body = inner d := by simpa [braced] using hbody
  rw [hinner, modifierOf_inner]

/-- **A placeholder from its first brace to its last is found where it stands.** -/
theorem exists_mem_scan_of_parse {e : Text} {n : Node} (h : Placeholder.parse e = .ok n)
    (hopening : ['\x7b', '\x7b'] <+: e) (hclosing : ['\x7d', '\x7d'] <:+ e) (a b : Text) :
    ∃ o ∈ scan (a ++ (e ++ b)), o.start = bytes a ∧ o.stop = bytes a + bytes e ∧ o.text = e := by
  obtain ⟨body, hbody, rfl⟩ := exists_braced_of_parse h hopening hclosing
  exact ⟨⟨bytes a, body⟩, mem_scan_iff.mpr ⟨hbody, a, b, rfl, rfl⟩, rfl, rfl, rfl⟩

/-- **Every placeholder is found, and has the sign that it is read with.** -/
theorem scan_agrees :
    (∀ (a b e : Text) (n : Node), Placeholder.parse e = .ok n → ['\x7b', '\x7b'] <+: e →
      ['\x7d', '\x7d'] <:+ e →
        ∃ o ∈ scan (a ++ (e ++ b)), o.start = bytes a ∧ o.stop = bytes a + bytes e ∧ o.text = e) ∧
    ∀ (s : Text) (o : Occurrence) (n : Node), o ∈ scan s → Placeholder.parse o.text = .ok n →
      modifierOf o.body = n.modifier :=
  ⟨fun a b _ _ h hopening hclosing => exists_mem_scan_of_parse h hopening hclosing a b,
    fun _ _ _ _ h => modifierOf_of_parse h⟩

/-- A definition with blanks around its sign, between braces that are none of its own. -/
theorem scan_agrees_definition :
    Placeholder.parse (braced " @ a".toList) = .ok ⟨.definition, ['a'], []⟩ ∧
      (∃ o ∈ scan (['é', '\x7b'] ++ (braced " @ a".toList ++ ['\x7d'])),
        o.start = 3 ∧ o.stop = 11 ∧ o.text = braced " @ a".toList) ∧
      ⟨3, " @ a".toList⟩ ∈ scan (['é', '\x7b'] ++ (braced " @ a".toList ++ ['\x7d'])) ∧
      modifierOf " @ a".toList = .definition := by
  have hparse : Placeholder.parse (braced " @ a".toList) = .ok ⟨.definition, ['a'], []⟩ := by
    decide +kernel
  have hmem : ⟨3, " @ a".toList⟩ ∈ scan (['é', '\x7b'] ++ (braced " @ a".toList ++ ['\x7d'])) := by
    decide +kernel
  exact ⟨hparse, scan_agrees.1 ['é', '\x7b'] ['\x7d'] _ _ hparse (by decide) (by decide), hmem,
    scan_agrees.2 _ _ _ hmem hparse⟩

end PromptTemplate.Template
