import PromptTemplate.Placeholder.Node
import PromptTemplate.Placeholder.Token
import PromptTemplate.Proofs.Text.Run

/-!
# Proofs/Placeholder/Grammar — what a placeholder is, character by character

    gap {{ gap body gap }} gap
    body        # remark    or    @ gap name argument*    or    name argument*
    argument    gap , gap name gap = gap value
    value       "…"    or    word,word,…

A `Derivation` is a tree of this grammar. Its leaves carry the proof that their characters are
allowed there, so every tree stands for a text, and for the node that the text says. The grammar
has one rule that looks ahead: a word behind a comma is not the key of the next argument. **Every
derivation obeys it** (`Derivation.lookahead`), as nothing but a comma or the closing braces can
follow a value.
-/

namespace PromptTemplate.Placeholder.Grammar

open Text

/-! ## Trees -/

/-- Spaces, tabs and line ends, or nothing. -/
abbrev Gap := { t : Text // ∀ c ∈ t, Token.isGap c = true }

def noGap : Gap := ⟨[], List.forall_mem_nil _⟩

/-- An identifier or a key. -/
abbrev Name := { t : Text // t ≠ [] ∧ ∀ c ∈ t, Token.isIdentChar c = true }

/-- A part of an unquoted value, between its commas. -/
abbrev Word := { t : Text // t ≠ [] ∧ ∀ c ∈ t, Token.isWordChar c = true }

/-- What stands between two quotes. -/
abbrev Quotation := { t : Text // ∀ c ∈ t, Token.isStringChar c = true }

/-- What stands behind the sign of a comment. -/
abbrev Remark := { t : Text // (∀ c ∈ t, Token.isBrace c = false) ∧ isAllBlank t = false }

inductive Value
  | quoted (t : Quotation)
  | bare (first : Word) (others : List Word)

structure Argument where
  beforeComma : Gap
  afterComma : Gap
  key : Name
  beforeEquals : Gap
  afterEquals : Gap
  value : Value

inductive Body
  | comment (t : Remark)
  /-- A definition has the gap behind its sign; a reference has no sign. -/
  | named (sign : Option Gap) (name : Name) (arguments : List Argument)

structure Derivation where
  before : Gap
  inside : Gap
  body : Body
  behind : Gap
  after : Gap

/-! ## Their texts -/

/-- Words with a comma in front of each. -/
def wordsText (ws : List Word) : Text := ws.flatMap fun w => ',' :: w.val

def Value.text : Value → Text
  | quoted t => '"' :: (t.val ++ ['"'])
  | bare w ws => w.val ++ wordsText ws

def Argument.text (a : Argument) : Text :=
  a.beforeComma.val ++ ',' :: (a.afterComma.val ++ (a.key.val ++
    (a.beforeEquals.val ++ '=' :: (a.afterEquals.val ++ a.value.text))))

/-- An argument as far as its value. -/
def Argument.opening (a : Argument) : Text :=
  a.beforeComma.val ++ ',' :: (a.afterComma.val ++ (a.key.val ++
    (a.beforeEquals.val ++ '=' :: a.afterEquals.val)))

theorem Argument.opening_append (a : Argument) : a.opening ++ a.value.text = a.text := by
  simp only [opening, text, List.append_assoc, List.cons_append]

def signText : Option Gap → Text
  | some g => '@' :: g.val
  | none => []

def Body.text : Body → Text
  | comment t => '#' :: t.val
  | named sign name as => signText sign ++ (name.val ++ as.flatMap Argument.text)

/-- The closing braces and the gaps around them. -/
def closingText (behind after : Gap) : Text := behind.val ++ '\x7d' :: '\x7d' :: after.val

def Derivation.text (d : Derivation) : Text :=
  d.before.val ++ '\x7b' :: '\x7b' ::
    (d.inside.val ++ (d.body.text ++ closingText d.behind d.after))

/-- Arguments and all that follows them. -/
def tailText (as : List Argument) (behind after : Gap) : Text :=
  as.flatMap Argument.text ++ closingText behind after

theorem tailText_cons (a : Argument) (as : List Argument) (behind after : Gap) :
    tailText (a :: as) behind after =
      a.beforeComma.val ++ ',' :: (a.afterComma.val ++ (a.key.val ++ (a.beforeEquals.val ++
        '=' :: (a.afterEquals.val ++ (a.value.text ++ tailText as behind after))))) := by
  simp only [tailText, List.flatMap_cons, Argument.text, List.append_assoc, List.cons_append]

/-! ## What they say -/

def Value.content : Value → Text
  | quoted t => t.val
  | bare w ws => w.val ++ wordsText ws

def Argument.parameter (a : Argument) : Parameter := ⟨a.key.val, a.value.content⟩

def Body.node : Body → Node
  | comment t => ⟨.comment, trim t.val, []⟩
  | named (some _) name as => ⟨.definition, name.val, as.map Argument.parameter⟩
  | named none name as => ⟨.reference, name.val, as.map Argument.parameter⟩

def Derivation.node (d : Derivation) : Node := d.body.node

/-! ## The rule that looks ahead -/

/-- Blanks aside, the text goes on with an equals sign. -/
def BeginsEquals (s : Text) : Prop := ∃ (g : Gap) (r : Text), s = g.val ++ '=' :: r

/-- No word behind a comma has an equals sign behind it, `rest` being what follows the value. -/
def Value.Lookahead (rest : Text) : Value → Prop
  | quoted _ => True
  | bare _ ws => ∀ ws₁ w ws₂, ws = ws₁ ++ w :: ws₂ → ¬ BeginsEquals (wordsText ws₂ ++ rest)

def Derivation.Lookahead (d : Derivation) : Prop :=
  ∀ sign name as₁ a as₂, d.body = .named sign name (as₁ ++ a :: as₂) →
    a.value.Lookahead (tailText as₂ d.behind d.after)

/-- What can follow a word of a value: a comma or a closing brace, blanks aside. -/
def Follows (s : Text) : Prop := ∃ (g : Gap) (c : Char) (r : Text), s = g.val ++ c :: r ∧
  (c = ',' ∨ c = '\x7d')

theorem follows_tailText (as : List Argument) (behind after : Gap) :
    Follows (tailText as behind after) := by
  cases as with
  | nil => exact ⟨behind, '\x7d', '\x7d' :: after.val, rfl, .inr rfl⟩
  | cons a as => exact ⟨a.beforeComma, ',', _, tailText_cons a as behind after, .inl rfl⟩

theorem Follows.words {s : Text} (h : Follows s) (ws : List Word) :
    Follows (wordsText ws ++ s) := by
  cases ws with
  | nil => exact h
  | cons w ws =>
    refine ⟨noGap, ',', w.val ++ (wordsText ws ++ s), ?_, .inl rfl⟩
    simp [wordsText, noGap]

/-- No word goes on behind a gap that a word could follow. -/
theorem ends_word_append (g : Gap) {s : Text} (hs : Ends Token.isWordChar s) :
    Ends Token.isWordChar (g.val ++ s) :=
  hs.append fun c hc => Token.isWordChar_of_isGap (g.2 c hc)

theorem Follows.ends {s : Text} (h : Follows s) : Ends Token.isWordChar s := by
  obtain ⟨g, c, r, rfl, rfl | rfl⟩ := h
  · exact ends_word_append g (ends_cons.mpr rfl)
  · exact ends_word_append g (ends_cons.mpr rfl)

theorem isGap_of_follows {c : Char} (h : c = ',' ∨ c = '\x7d') : Token.isGap c = false := by
  obtain rfl | rfl := h <;> rfl

theorem Follows.not_beginsEquals {s : Text} (h : Follows s) : ¬ BeginsEquals s := by
  rintro ⟨g, r, rfl⟩
  obtain ⟨g', c, r', heq, hc⟩ := h
  have hends := append_inj_of_ends g.2 g'.2 (ends_cons.mpr rfl)
    (ends_cons.mpr (isGap_of_follows hc)) heq
  obtain rfl : '=' = c := (List.cons.inj hends.2).1
  exact absurd hc (by decide)

/-- **Every derivation obeys the rule that looks ahead.** -/
theorem Derivation.lookahead (d : Derivation) : d.Lookahead := by
  intro sign name as₁ a as₂ _
  cases a.value with
  | quoted t => trivial
  | bare first others =>
    intro ws₁ w ws₂ _
    exact ((follows_tailText as₂ d.behind d.after).words ws₂).not_beginsEquals

end PromptTemplate.Placeholder.Grammar
