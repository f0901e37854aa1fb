import PromptTemplate.Proofs.Placeholder.Completeness

/-!
# Proofs/Placeholder/Loosening — blanks at a comma of an unquoted value

    {{a, b=c,d, e=f}}     accepted
    {{a, b=c, d, e=f}}
           └──┘           blanks within the value: all of it is the fault

The text in front of the value is read as before, and what follows it still ends a value. So the
parser gets to the value and takes the same words for it; but now two of them are parted, and
**the value as a whole is the fault**, with advice to put it in quotes (`parse_loosened`).
-/

namespace PromptTemplate.Placeholder

open Text Grammar

/-! ## Values with a gap -/

/-- A comma in front of the word `x`, which stands between other words. -/
def parted (ws₁ : List Word) (x : Spaced) (ws₂ : List Word) : List Spaced :=
  ws₁.map Spaced.ofWord ++ x :: ws₂.map Spaced.ofWord

theorem flatMap_text_parted (ws₁ : List Word) (x : Spaced) (ws₂ : List Word) :
    (parted ws₁ x ws₂).flatMap Spaced.text = wordsText ws₁ ++ (x.text ++ wordsText ws₂) := by
  rw [parted, List.flatMap_append, List.flatMap_cons, flatMap_text_ofWord, flatMap_text_ofWord]

theorem all_isTight_parted (ws₁ : List Word) {x : Spaced} (ws₂ : List Word)
    (hx : x.isTight = false) : (parted ws₁ x ws₂).all Spaced.isTight = false := by
  rw [parted, List.all_append, List.all_cons, hx, Bool.false_and, Bool.and_false]

/-! ## The text in front of a value -/

/-- A definition or reference as far as the value of the argument `a`. -/
def front (before inside : Gap) (sign : Option Gap) (name : Name) (as : List Argument)
    (a : Argument) : Text :=
  before.val ++ (['\x7b', '\x7b'] ++
    (inside.val ++ (signText sign ++ (name.val ++ (as.flatMap Argument.text ++ a.opening)))))

/-- **The fault of a value is the fault of the placeholder.** -/
theorem parse_front {before inside : Gap} {sign : Option Gap} {name : Name} {as : List Argument}
    {a : Argument} {r : Text} {f : Fault} (hr : ∀ i, beginsValue (lexFrom i r) = true)
    (hf : ∀ ending, value ending (lexFrom (bytes (front before inside sign name as a)) r) =
      .error f) :
    parse (front before inside sign name as a ++ r) = .error f := by
  have htext : front before inside sign name as a ++ r = before.val ++ (['\x7b', '\x7b'] ++
      (inside.val ++ (signText sign ++ (name.val ++
        (as.flatMap Argument.text ++ (a.opening ++ r)))))) := by
    simp only [front, List.append_assoc]
  have hstop : bytes (before.val ++ ['\x7b', '\x7b']) +
      bytes (inside.val ++ (signText sign ++ name.val)) + bytes (as.flatMap Argument.text) +
        bytes a.opening = bytes (front before inside sign name as a) := by
    simp only [front, bytes_append]
    omega
  have hends : EndsValue (a.opening ++ r) := endsValue_opening a hr
  rw [htext, parse_opening,
    body_named _ inside sign name (endsValue_arguments as hends).follows.ends,
    parameters_arguments _ as hends, parameters_opening, hstop, hf]
  rfl

/-! ## Whole placeholders -/

/-- The text is a definition or reference with a comma in an unquoted value: the two parts of the
value are `l` and `r`, in front of it stands `p`, and behind it `q`. -/
def InnerComma (s p l r q : Text) : Prop :=
  ∃ (d : Derivation) (sign : Option Gap) (name : Name) (as₁ : List Argument) (a : Argument)
    (as₂ : List Argument) (w : Word) (ws₁ : List Word) (x : Word) (ws₂ : List Word),
    d.text = s ∧ d.body = .named sign name (as₁ ++ a :: as₂) ∧
      a.value = .bare w (ws₁ ++ x :: ws₂) ∧ p = front d.before d.inside sign name as₁ a ∧
      l = w.val ++ wordsText ws₁ ∧ r = x.val ++ wordsText ws₂ ∧ q = tailText as₂ d.behind d.after

theorem InnerComma.text_eq {s p l r q : Text} (h : InnerComma s p l r q) :
    s = p ++ (l ++ ',' :: r ++ q) := by
  obtain ⟨d, sign, name, as₁, a, as₂, w, ws₁, x, ws₂, rfl, hbody, hvalue, rfl, rfl, rfl, rfl⟩ := h
  have hwords : wordsText (ws₁ ++ x :: ws₂) = wordsText ws₁ ++ ',' :: (x.val ++ wordsText ws₂) := by
    simp [wordsText]
  simp [Derivation.text, hbody, Body.text, front, tailText, ← a.opening_append, hvalue, Value.text,
    hwords]

theorem InnerComma.exists_parse {s p l r q : Text} (h : InnerComma s p l r q) :
    ∃ n, parse s = .ok n ∧ n.modifier ≠ .comment := by
  obtain ⟨d, sign, name, as₁, a, as₂, w, ws₁, x, ws₂, rfl, hbody, -⟩ := h
  refine ⟨d.node, parse_complete d, ?_⟩
  rw [Derivation.node, hbody]
  cases sign <;> simp [Body.node]

/-- A value that is parted is the fault, wherever the gap is. -/
theorem parse_parted {before inside behind after : Gap} {sign : Option Gap} {name : Name}
    {as₁ as₂ : List Argument} {a : Argument} {w : Word} {ws₁ ws₂ : List Word} {x : Spaced}
    (hx : x.isTight = false) {v : Text}
    (hv : v = w.val ++ wordsText ws₁ ++
      (x.before.val ++ ',' :: (x.after.val ++ (x.word.val ++ wordsText ws₂)))) :
    parse (front before inside sign name as₁ a ++ (v ++ tailText as₂ behind after)) =
      .error ⟨bytes (front before inside sign name as₁ a),
        bytes (front before inside sign name as₁ a) + bytes v, .looseValue, []⟩ := by
  have hends := endsValue_tailText as₂ behind after
  have hvalue : v = w.val ++ (parted ws₁ x ws₂).flatMap Spaced.text := by
    rw [hv, flatMap_text_parted]
    simp only [Spaced.text, List.append_assoc, List.cons_append]
  have htext : v ++ tailText as₂ behind after =
      w.val ++ ((parted ws₁ x ws₂).flatMap Spaced.text ++ tailText as₂ behind after) := by
    rw [hvalue, List.append_assoc]
  rw [htext]
  refine parse_front (beginsValue_word w (hends.follows.spaced _).ends) fun ending => ?_
  rw [value_spaced ending w _ hends, all_isTight_parted ws₁ ws₂ hx, if_neg Bool.false_ne_true,
    ← hvalue]

/-- **Blanks on either side of a comma of an unquoted value are a fault of the whole value**, and
what is said of it is the advice to put it in quotes. -/
theorem parse_loosened {s p l r q g v : Text} (h : InnerComma s p l r q) (hne : g ≠ [])
    (hg : ∀ c ∈ g, Token.isGap c = true)
    (hv : v = l ++ (g ++ ',' :: r) ∨ v = l ++ ',' :: (g ++ r)) :
    s = p ++ (l ++ ',' :: r ++ q) ∧ (∃ n, parse s = .ok n ∧ n.modifier ≠ .comment) ∧
      ∃ f, parse (p ++ (v ++ q)) = .error f ∧ f.issue = ⟨bytes p, bytes p + bytes v,
        "unquoted values cannot contain whitespace; wrap the value in double quotes".toList,
        []⟩ := by
  refine ⟨h.text_eq, h.exists_parse, ?_⟩
  obtain ⟨d, sign, name, as₁, a, as₂, w, ws₁, x, ws₂, -, -, -, rfl, rfl, rfl, rfl⟩ := h
  have hempty : g.isEmpty = false := List.isEmpty_eq_false_iff.mpr hne
  obtain rfl | rfl := hv
  · have hx : (⟨⟨g, hg⟩, noGap, x⟩ : Spaced).isTight = false := by
      rw [Spaced.isTight, hempty, Bool.false_and]
    exact ⟨_, parse_parted hx rfl, rfl⟩
  · have hx : (⟨noGap, ⟨g, hg⟩, x⟩ : Spaced).isTight = false := by
      rw [Spaced.isTight, hempty, Bool.and_false]
    exact ⟨_, parse_parted hx rfl, rfl⟩

/-- A blank behind the comma of `c,d`, with another argument behind the value. -/
theorem parse_loosened_blank :
    InnerComma "\x7b\x7ba,b=c,d,e=f\x7d\x7d".toList "\x7b\x7ba,b=".toList ['c'] ['d']
        ",e=f\x7d\x7d".toList ∧
      ∃ f, parse "\x7b\x7ba,b=c, d,e=f\x7d\x7d".toList = .error f ∧ f.issue = ⟨6, 10,
        "unquoted values cannot contain whitespace; wrap the value in double quotes".toList,
        []⟩ := by
  let name (c : Char) (h : Token.isIdentChar c = true) : Name := ⟨[c], by simp, by simpa using h⟩
  let word (c : Char) (h : Token.isWordChar c = true) : Word := ⟨[c], by simp, by simpa using h⟩
  let V : Value := .bare (word 'c' rfl) [word 'd' rfl]
  let a : Argument := ⟨noGap, noGap, name 'b' rfl, noGap, noGap, V⟩
  let b : Argument := ⟨noGap, noGap, name 'e' rfl, noGap, noGap, .bare (word 'f' rfl) []⟩
  let d : Derivation := ⟨noGap, noGap, .named none (name 'a' rfl) [a, b], noGap, noGap⟩
  have h : InnerComma "\x7b\x7ba,b=c,d,e=f\x7d\x7d".toList "\x7b\x7ba,b=".toList ['c'] ['d']
      ",e=f\x7d\x7d".toList :=
    ⟨d, none, name 'a' rfl, [], a, [b], word 'c' rfl, [], word 'd' rfl, [], rfl, rfl, rfl, rfl, rfl,
      rfl, rfl⟩
  obtain ⟨-, -, hfault⟩ :=
    parse_loosened h (List.cons_ne_nil ' ' []) (List.forall_mem_singleton.mpr rfl) (.inr rfl)
  exact ⟨h, hfault⟩

end PromptTemplate.Placeholder
