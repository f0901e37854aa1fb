import PromptTemplate.Proofs.Placeholder.Grammar

/-!
# Proofs/Placeholder/Unambiguity — a text has one derivation

    {{ @tone , a=b,c=d }}     one way to put the commas

Two derivations of one text are compared from the left. Each part is cut off in one way only, as
what follows it begins with a character of another class. The comma is the one character that
stands in two places; the equals sign behind the next key tells them apart. Blanks behind a remark
can be counted as part of it or not, and **that is the only freedom** (`Derivation.text_eq_iff`).
-/

namespace PromptTemplate.Placeholder.Grammar

open Text

/-! ## One part after the other -/

theorem gap_append_inj {g h : Gap} {r s : Text} (hr : Ends Token.isGap r) (hs : Ends Token.isGap s)
    (heq : g.val ++ r = h.val ++ s) : g = h ∧ r = s := by
  obtain ⟨hval, hrest⟩ := append_inj_of_ends g.2 h.2 hr hs heq
  exact ⟨Subtype.ext hval, hrest⟩

/-- A character of no gap ends the gap in front of it. -/
theorem gap_cons_inj {g h : Gap} {c d : Char} {r s : Text} (hc : Token.isGap c = false)
    (hd : Token.isGap d = false) (heq : g.val ++ c :: r = h.val ++ d :: s) :
    g = h ∧ c = d ∧ r = s := by
  obtain ⟨hval, hrest⟩ := gap_append_inj (ends_cons.mpr hc) (ends_cons.mpr hd) heq
  exact ⟨hval, List.cons.inj hrest⟩

theorem ends_gap_of_word {t r : Text} (hne : t ≠ []) (ht : ∀ c ∈ t, Token.isWordChar c = true) :
    Ends Token.isGap (t ++ r) := by
  obtain ⟨c, t, rfl⟩ := List.exists_cons_of_ne_nil hne
  exact ends_cons.mpr (Token.isGap_of_isWordChar (ht c List.mem_cons_self))

theorem name_isWordChar (n : Name) : ∀ c ∈ n.val, Token.isWordChar c = true :=
  fun c hc => Token.isWordChar_of_isIdentChar (n.2.2 c hc)

theorem name_append_inj {n m : Name} {r s : Text} (hr : Ends Token.isWordChar r)
    (hs : Ends Token.isWordChar s) (heq : n.val ++ r = m.val ++ s) : n = m ∧ r = s := by
  obtain ⟨hval, hrest⟩ := append_inj_of_ends (name_isWordChar n) (name_isWordChar m) hr hs heq
  exact ⟨Subtype.ext hval, hrest⟩

/-- A comma and a word begin no argument, unless an equals sign follows. -/
theorem tailText_ne_word {as : List Argument} {behind after : Gap} {w : Word} {s : Text}
    (hs : Follows s) : tailText as behind after ≠ ',' :: (w.val ++ s) := by
  intro heq
  have hcomma : ',' :: (w.val ++ s) = noGap.val ++ ',' :: (w.val ++ s) := rfl
  rw [hcomma] at heq
  cases as with
  | nil =>
    obtain ⟨-, hc, -⟩ := gap_cons_inj rfl rfl heq
    exact absurd hc (by decide)
  | cons a as =>
    rw [tailText_cons] at heq
    obtain ⟨-, -, hkey⟩ := gap_cons_inj rfl rfl heq
    have hequals : Ends Token.isWordChar (a.beforeEquals.val ++ '=' :: (a.afterEquals.val ++
        (a.value.text ++ tailText as behind after))) := ends_word_append _ (ends_cons.mpr rfl)
    obtain ⟨-, hkey⟩ := gap_append_inj (h := noGap)
      (ends_gap_of_word a.key.2.1 (name_isWordChar a.key)) (ends_gap_of_word w.2.1 w.2.2) hkey
    obtain ⟨-, rfl⟩ := append_inj_of_ends (name_isWordChar a.key) w.2.2 hequals hs.ends hkey
    exact hs.not_beginsEquals ⟨_, _, rfl⟩

/-! ## Values -/

section

variable {as as' : List Argument} {behind behind' after after' : Gap}

theorem wordsText_cons (w : Word) (ws : List Word) (r : Text) :
    wordsText (w :: ws) ++ r = ',' :: (w.val ++ (wordsText ws ++ r)) := by
  simp [wordsText]

theorem word_append_inj {w x : Word} {r s : Text} (hr : Ends Token.isWordChar r)
    (hs : Ends Token.isWordChar s) (heq : w.val ++ r = x.val ++ s) : w = x ∧ r = s := by
  obtain ⟨hval, hrest⟩ := append_inj_of_ends w.2.2 x.2.2 hr hs heq
  exact ⟨Subtype.ext hval, hrest⟩

theorem words_append_inj {ws xs : List Word}
    (heq : wordsText ws ++ tailText as behind after = wordsText xs ++ tailText as' behind' after') :
    ws = xs ∧ tailText as behind after = tailText as' behind' after' := by
  induction ws generalizing xs with
  | nil =>
    cases xs with
    | nil => exact ⟨rfl, heq⟩
    | cons x xs =>
      rw [wordsText_cons] at heq
      exact absurd heq (tailText_ne_word ((follows_tailText as' behind' after').words xs))
  | cons w ws ih =>
    cases xs with
    | nil =>
      rw [wordsText_cons] at heq
      exact absurd heq.symm (tailText_ne_word ((follows_tailText as behind after).words ws))
    | cons x xs =>
      rw [wordsText_cons, wordsText_cons] at heq
      obtain ⟨rfl, hrest⟩ := word_append_inj ((follows_tailText as behind after).words ws).ends
        ((follows_tailText as' behind' after').words xs).ends (List.cons.inj heq).2
      obtain ⟨rfl, htail⟩ := ih hrest
      exact ⟨rfl, htail⟩

theorem value_append_inj {V W : Value}
    (heq : V.text ++ tailText as behind after = W.text ++ tailText as' behind' after') :
    V = W ∧ tailText as behind after = tailText as' behind' after' := by
  cases V with
  | quoted t =>
    cases W with
    | quoted u =>
      simp only [Value.text, List.cons_append, List.append_assoc] at heq
      obtain ⟨hval, hrest⟩ := append_inj_of_ends t.2 u.2 (ends_cons.mpr rfl) (ends_cons.mpr rfl)
        (List.cons.inj heq).2
      exact ⟨congrArg Value.quoted (Subtype.ext hval), (List.cons.inj hrest).2⟩
    | bare w ws =>
      simp only [Value.text, List.cons_append, List.append_assoc] at heq
      exact absurd heq.symm (append_ne_cons w.2.1 w.2.2 rfl)
  | bare w ws =>
    cases W with
    | quoted u =>
      simp only [Value.text, List.cons_append, List.append_assoc] at heq
      exact absurd heq (append_ne_cons w.2.1 w.2.2 rfl)
    | bare x xs =>
      simp only [Value.text, List.append_assoc] at heq
      obtain ⟨rfl, hwords⟩ := word_append_inj ((follows_tailText as behind after).words ws).ends
        ((follows_tailText as' behind' after').words xs).ends heq
      obtain ⟨rfl, htail⟩ := words_append_inj hwords
      exact ⟨rfl, htail⟩

end

/-! ## Arguments -/

theorem closingText_inj {behind behind' after after' : Gap}
    (heq : closingText behind after = closingText behind' after') :
    behind = behind' ∧ after = after' := by
  obtain ⟨rfl, -, hrest⟩ := gap_cons_inj rfl rfl heq
  exact ⟨rfl, Subtype.ext (List.cons.inj hrest).2⟩

theorem ends_gap_of_value (V : Value) (r : Text) : Ends Token.isGap (V.text ++ r) := by
  cases V with
  | quoted t => exact ends_cons.mpr rfl
  | bare w ws =>
    rw [Value.text, List.append_assoc]
    exact ends_gap_of_word w.2.1 w.2.2

theorem tailText_inj {as as' : List Argument} {behind behind' after after' : Gap}
    (heq : tailText as behind after = tailText as' behind' after') :
    as = as' ∧ behind = behind' ∧ after = after' := by
  induction as generalizing as' with
  | nil =>
    cases as' with
    | nil => exact ⟨rfl, closingText_inj heq⟩
    | cons a as' =>
      rw [tailText_cons] at heq
      obtain ⟨-, hc, -⟩ := gap_cons_inj rfl rfl heq
      exact absurd hc (by decide)
  | cons a as ih =>
    cases as' with
    | nil =>
      rw [tailText_cons] at heq
      obtain ⟨-, hc, -⟩ := gap_cons_inj rfl rfl heq
      exact absurd hc (by decide)
    | cons b as' =>
      obtain ⟨g₁, g₂, k, g₃, g₄, V⟩ := a
      obtain ⟨g₁', g₂', l, g₃', g₄', W⟩ := b
      rw [tailText_cons, tailText_cons] at heq
      dsimp only at heq
      obtain ⟨rfl, -, h₂⟩ := gap_cons_inj rfl rfl heq
      obtain ⟨rfl, hkey⟩ := gap_append_inj (ends_gap_of_word k.2.1 (name_isWordChar k))
        (ends_gap_of_word l.2.1 (name_isWordChar l)) h₂
      obtain ⟨rfl, h₃⟩ := name_append_inj (ends_word_append _ (ends_cons.mpr rfl))
        (ends_word_append _ (ends_cons.mpr rfl)) hkey
      obtain ⟨rfl, -, h₄⟩ := gap_cons_inj rfl rfl h₃
      obtain ⟨rfl, hvalue⟩ := gap_append_inj (ends_gap_of_value V _) (ends_gap_of_value W _) h₄
      obtain ⟨rfl, htail⟩ := value_append_inj hvalue
      obtain ⟨rfl, hgaps⟩ := ih htail
      exact ⟨rfl, hgaps⟩

/-! ## Whole placeholders -/

/-- A remark with the gap behind it. -/
def Remark.extend (t : Remark) (g : Gap) : Remark :=
  ⟨t.val ++ g.val,
    List.forall_mem_append.mpr ⟨t.2.1, fun c hc => Token.isBrace_of_isGap (g.2 c hc)⟩,
    by rw [isAllBlank, List.all_append, ← isAllBlank, t.2.2, Bool.false_and]⟩

/-- The same placeholder, the blanks behind a remark counted as part of it. -/
def Derivation.absorbed (d : Derivation) : Derivation :=
  match d.body with
  | .comment t => { d with body := .comment (Remark.extend t d.behind), behind := noGap }
  | .named _ _ _ => d

theorem Derivation.text_absorbed (d : Derivation) : d.absorbed.text = d.text := by
  obtain ⟨before, inside, b, behind, after⟩ := d
  cases b with
  | comment t => simp [absorbed, text, Body.text, closingText, noGap, Remark.extend]
  | named sign name as => rfl

theorem Derivation.node_absorbed (d : Derivation) : d.absorbed.node = d.node := by
  obtain ⟨before, inside, b, behind, after⟩ := d
  cases b with
  | comment t =>
    have htrim := trim_append_blanks t.val fun c hc => Token.isBlank_of_isGap (behind.2 c hc)
    simp only [absorbed, node, Body.node, Remark.extend, htrim]
  | named sign name as => rfl

theorem ends_gap_of_body (b : Body) (r : Text) : Ends Token.isGap (b.text ++ r) := by
  match b with
  | .comment t => exact ends_cons.mpr rfl
  | .named (some g) name as => exact ends_cons.mpr rfl
  | .named none name as =>
    rw [Body.text, signText, List.nil_append, List.append_assoc]
    exact ends_gap_of_word name.2.1 (name_isWordChar name)

/-- A remark is cut off by the braces behind it. -/
theorem remark_append_inj {t u : Remark} {behind behind' after after' : Gap}
    (heq : t.val ++ closingText behind after = u.val ++ closingText behind' after') :
    Remark.extend t behind = Remark.extend u behind' ∧ after = after' := by
  have hbody : ∀ (t : Remark) (g : Gap), ∀ c ∈ (Remark.extend t g).val, (!Token.isBrace c) = true :=
    fun t g c hc => by simp [(Remark.extend t g).2.1 c hc]
  have hassoc : ∀ (t : Remark) (g h : Gap),
      t.val ++ closingText g h = (Remark.extend t g).val ++ '\x7d' :: '\x7d' :: h.val :=
    fun t g h => by simp [closingText, Remark.extend]
  rw [hassoc, hassoc] at heq
  obtain ⟨hval, hrest⟩ := append_inj_of_ends (hbody t behind) (hbody u behind')
    (ends_cons.mpr rfl) (ends_cons.mpr rfl) heq
  exact ⟨Subtype.ext hval, Subtype.ext (List.cons.inj (List.cons.inj hrest).2).2⟩

/-- The signs of two bodies of one text are the same, and so is what follows. -/
theorem sign_append_inj {sign sign' : Option Gap} {n m : Name} {r s : Text}
    (heq : signText sign ++ (n.val ++ r) = signText sign' ++ (m.val ++ s)) :
    sign = sign' ∧ n.val ++ r = m.val ++ s := by
  match sign, sign' with
  | none, none => exact ⟨rfl, heq⟩
  | none, some g => exact absurd heq (append_ne_cons n.2.1 (name_isWordChar n) rfl)
  | some g, none => exact absurd heq.symm (append_ne_cons m.2.1 (name_isWordChar m) rfl)
  | some g, some h =>
    obtain ⟨rfl, hrest⟩ := gap_append_inj (ends_gap_of_word n.2.1 (name_isWordChar n))
      (ends_gap_of_word m.2.1 (name_isWordChar m)) (List.cons.inj heq).2
    exact ⟨rfl, hrest⟩

theorem sign_append_ne {sign : Option Gap} {n : Name} {r s : Text} :
    signText sign ++ (n.val ++ r) ≠ '#' :: s := by
  match sign with
  | none => exact append_ne_cons n.2.1 (name_isWordChar n) rfl
  | some g => exact fun heq => absurd (List.cons.inj heq).1 (by decide)

/-- A body and what follows it are told apart by their text, but for the blanks behind a remark. -/
theorem body_append_inj {b c : Body} {behind behind' after after' : Gap}
    (h : b.text ++ closingText behind after = c.text ++ closingText behind' after')
    (before inside : Gap) :
    (Derivation.mk before inside b behind after).absorbed =
      (Derivation.mk before inside c behind' after').absorbed := by
  match b, c with
  | .comment t, .comment u =>
    obtain ⟨hremark, rfl⟩ := remark_append_inj (List.cons.inj h).2
    simp only [Derivation.absorbed, hremark]
  | .comment t, .named sign name as =>
    simp only [Body.text, List.append_assoc] at h
    exact absurd h.symm sign_append_ne
  | .named sign name as, .comment t =>
    simp only [Body.text, List.append_assoc] at h
    exact absurd h sign_append_ne
  | .named sign n as, .named sign' m as' =>
    simp only [Body.text, List.append_assoc] at h
    obtain ⟨rfl, hname⟩ := sign_append_inj h
    obtain ⟨rfl, htail⟩ := name_append_inj (follows_tailText as behind after).ends
      (follows_tailText as' behind' after').ends hname
    obtain ⟨rfl, rfl, rfl⟩ := tailText_inj htail
    rfl

/-- **A text has one derivation**, up to the blanks behind a remark. -/
theorem Derivation.text_eq_iff {d e : Derivation} : d.text = e.text ↔ d.absorbed = e.absorbed := by
  constructor
  · intro h
    obtain ⟨g₁, g₂, b, g₃, g₄⟩ := d
    obtain ⟨g₁', g₂', c, g₃', g₄'⟩ := e
    simp only [text] at h
    obtain ⟨rfl, -, hinside⟩ := gap_cons_inj rfl rfl h
    obtain ⟨rfl, hbody⟩ := gap_append_inj (ends_gap_of_body b _) (ends_gap_of_body c _)
      (List.cons.inj hinside).2
    exact body_append_inj hbody g₁ g₂
  · intro h
    rw [← text_absorbed d, h, text_absorbed]

end PromptTemplate.Placeholder.Grammar
