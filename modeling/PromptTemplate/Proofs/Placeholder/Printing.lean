import PromptTemplate.Proofs.Placeholder.Completeness

/-!
# Proofs/Placeholder/Printing — a placeholder that is printed is read as itself

    {{ @name,label = Your,Name }}   →   {{@name, label="Your,Name"}}

What a derivation says has a plainest derivation: no gaps but a blank behind each comma, every value
in quotes, a remark without the blanks at its ends. It can be built because a word has no character
that a quotation may not hold, and because a remark that is trimmed still says something. **Its text
is the printed one** (`Derivation.text_plain`), so printing and reading give the placeholder back
(`parse_print`).
-/

namespace PromptTemplate.Placeholder

open Text

theorem Token.isStringChar_of_isWordChar {c : Char} (h : isWordChar c = true) :
    isStringChar c = true := by
  have hne : ∀ d, isWordChar d = false → c ≠ d := fun d hd heq =>
    Bool.false_ne_true (hd.symm.trans (heq ▸ h))
  simp [isStringChar, isBrace, hne '"' rfl, hne '\x7b' rfl, hne '\x7d' rfl]

namespace Grammar

/-! ## The plainest derivation -/

def oneBlank : Gap := ⟨[' '], List.forall_mem_singleton.mpr rfl⟩

theorem isStringChar_of_mem_wordsText {ws : List Word} :
    ∀ c ∈ wordsText ws, Token.isStringChar c = true := by
  intro c hc
  obtain ⟨w, -, hw⟩ := List.mem_flatMap.mp hc
  obtain rfl | hmem := List.mem_cons.mp hw
  · rfl
  · exact Token.isStringChar_of_isWordChar (w.2.2 c hmem)

/-- **Every value could stand in quotes.** -/
theorem Value.isStringChar_of_mem_content (V : Value) :
    ∀ c ∈ V.content, Token.isStringChar c = true := by
  cases V with
  | quoted t => exact t.2
  | bare w ws =>
    exact List.forall_mem_append.mpr
      ⟨fun c hc => Token.isStringChar_of_isWordChar (w.2.2 c hc), isStringChar_of_mem_wordsText⟩

def Argument.plain (a : Argument) : Argument where
  beforeComma := noGap
  afterComma := oneBlank
  key := a.key
  beforeEquals := noGap
  afterEquals := noGap
  value := .quoted ⟨a.value.content, a.value.isStringChar_of_mem_content⟩

/-- A remark without the blanks at its ends; something is left of it. -/
def Remark.trimmed (t : Remark) : Remark :=
  ⟨trim t.val, fun c hc => t.2.1 c (mem_of_mem_trim hc), (isAllBlank_trim t.val).trans t.2.2⟩

def Body.plain : Body → Body
  | comment t => comment (Remark.trimmed t)
  | named sign name as => named (sign.map fun _ => noGap) name (as.map Argument.plain)

/-- The plainest way to write what a derivation says. -/
def Derivation.plain (d : Derivation) : Derivation where
  before := noGap
  inside := noGap
  body := d.body.plain
  behind := noGap
  after := noGap

/-! ## What it says, and its text -/

theorem Argument.parameter_plain (a : Argument) : a.plain.parameter = a.parameter := rfl

theorem Argument.text_plain (a : Argument) : a.plain.text = Node.printParameter a.parameter := by
  simp [plain, text, noGap, oneBlank, Value.text, Node.printParameter, parameter]

theorem map_parameter_plain (as : List Argument) :
    (as.map Argument.plain).map Argument.parameter = as.map Argument.parameter := by
  rw [List.map_map]
  exact List.map_congr_left fun a _ => a.parameter_plain

theorem flatMap_text_plain (as : List Argument) :
    (as.map Argument.plain).flatMap Argument.text =
      (as.map Argument.parameter).flatMap Node.printParameter := by
  rw [List.flatMap_map, List.flatMap_map]
  exact List.flatMap_congr fun a _ => a.text_plain

/-- **It says the same.** -/
theorem Body.node_plain (b : Body) : b.plain.node = b.node := by
  match b with
  | .comment t => rw [plain, node, Remark.trimmed, trim_trim, node]
  | .named (some g) name as =>
    exact congrArg (Node.mk .definition name.val) (map_parameter_plain as)
  | .named none name as => exact congrArg (Node.mk .reference name.val) (map_parameter_plain as)

/-- **Its text is what is printed**, braces aside. -/
theorem Body.text_plain (b : Body) :
    b.plain.text = b.node.modifier.sigil.toList ++
      (b.node.identifier ++ b.node.parameters.flatMap Node.printParameter) := by
  match b with
  | .comment t => exact congrArg ('#' :: ·) (List.append_nil _).symm
  | .named (some g) name as =>
    exact congrArg (fun r => '@' :: (name.val ++ r)) (flatMap_text_plain as)
  | .named none name as => exact congrArg (name.val ++ ·) (flatMap_text_plain as)

theorem Derivation.node_plain (d : Derivation) : d.plain.node = d.node := d.body.node_plain

theorem Derivation.text_plain (d : Derivation) : d.plain.text = d.node.print := by
  simp [plain, text, Body.text_plain, closingText, noGap, Node.print, node]

end Grammar

open Grammar

/-- **A placeholder that is printed is read as itself.** -/
theorem parse_print {s : Text} {n : Node} (h : parse s = .ok n) : parse n.print = .ok n := by
  obtain ⟨d, -, rfl⟩ := parse_sound h
  rw [← d.text_plain, parse_complete, d.node_plain]

/-- A definition with blanks wherever they may be, a key that comes twice and a value of two
words. -/
theorem parse_print_definition :
    parse " \x7b\x7b @ a , x = 1 , x = b,? \x7d\x7d ".toList =
        .ok ⟨.definition, ['a'], [⟨['x'], ['1']⟩, ⟨['x'], "b,?".toList⟩]⟩ ∧
      parse (Node.print ⟨.definition, ['a'], [⟨['x'], ['1']⟩, ⟨['x'], "b,?".toList⟩]⟩) =
        .ok ⟨.definition, ['a'], [⟨['x'], ['1']⟩, ⟨['x'], "b,?".toList⟩]⟩ := by
  have h : parse " \x7b\x7b @ a , x = 1 , x = b,? \x7d\x7d ".toList =
      .ok ⟨.definition, ['a'], [⟨['x'], ['1']⟩, ⟨['x'], "b,?".toList⟩]⟩ := by decide +kernel
  exact ⟨h, parse_print h⟩

end PromptTemplate.Placeholder
