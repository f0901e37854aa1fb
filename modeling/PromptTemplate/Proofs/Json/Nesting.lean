import Mathlib.Data.List.Basic
import PromptTemplate.Proofs.Json.Reading

/-!
# Proofs/Json/Nesting — where the brackets of a text close

    [ { "a" : "}" } , …
    1 2 3 2   3 2 1       the depth behind each character: quotes open a level too

A text is walked through with nothing but its brackets and quotes in view. Whatever the grammar
writes is `Balanced`: the walk comes back to where it began and **never goes below**
(`above_of_after`). So a closing brace at the level of the items of a list ends one of them
(`Separated.cut`), while one inside a string or a nested value leaves the walk deeper.
-/

namespace PromptTemplate.Json

/-! ## The walk -/

inductive Mode
  | outside
  /-- Inside a string. -/
  | inside
  /-- Inside a string, behind a backslash. -/
  | escaped
deriving DecidableEq

/-- A place in a text: the number of open brackets and quotes, and whether one is in a string. -/
structure Level where
  depth : Nat
  mode : Mode
deriving DecidableEq

namespace Level

abbrev outside (n : Nat) : Level := ⟨n, .outside⟩

abbrev inside (n : Nat) : Level := ⟨n, .inside⟩

/-- One level up; there is none above the outermost. -/
def leave (mode : Mode) : Nat → Option Level
  | 0 => none
  | n + 1 => some ⟨n, mode⟩

def step (l : Level) (c : Char) : Option Level :=
  match l.mode with
  | .escaped => some (inside l.depth)
  | .inside =>
    if c = '\\' then some ⟨l.depth, .escaped⟩
    else if c = '"' then leave .outside l.depth
    else some l
  | .outside =>
    if c = '"' then some (inside (l.depth + 1))
    else if c = '[' ∨ c = '\x7b' then some (outside (l.depth + 1))
    else if c = ']' ∨ c = '\x7d' then leave .outside l.depth
    else some l

/-- The place behind a text; none if more is closed in it than was open. -/
def after (l : Level) (s : Text) : Option Level := s.foldlM step l

/-- The same place inside `n` more brackets. -/
def deepen (n : Nat) (l : Level) : Level := { l with depth := l.depth + n }

@[simp] theorem after_nil (l : Level) : l.after [] = some l := rfl

@[simp] theorem after_cons (l : Level) (c : Char) (s : Text) :
    l.after (c :: s) = (l.step c).bind (·.after s) := by
  rw [after, List.foldlM_cons]
  rfl

@[simp] theorem after_append (l : Level) (s t : Text) :
    l.after (s ++ t) = (l.after s).bind (·.after t) := by
  rw [after, List.foldlM_append]
  rfl

@[simp] theorem deepen_outside (n m : Nat) : (outside m).deepen n = outside (m + n) := rfl

theorem step_deepen {l l' : Level} {c : Char} (h : l.step c = some l') (n : Nat) :
    (l.deepen n).step c = some (l'.deepen n) := by
  obtain ⟨d, m⟩ := l
  cases m <;> cases d <;> simp only [step, deepen, leave] at * <;> grind

/-- **Brackets around a text do not change the walk through it.** -/
theorem after_deepen {l l' : Level} {s : Text} (h : l.after s = some l') (n : Nat) :
    (l.deepen n).after s = some (l'.deepen n) := by
  induction s generalizing l with
  | nil => exact congrArg _ (congrArg _ (Option.some.inj h))
  | cons c s ih =>
    rw [after_cons] at h ⊢
    obtain ⟨m, hm, hs⟩ := Option.bind_eq_some_iff.mp h
    rw [step_deepen hm n]
    exact ih hs

end Level

open Level

/-! ## Balanced texts -/

/-- A text that closes what it opens, and nothing else. -/
def Balanced (s : Text) : Prop := (outside 0).after s = some (outside 0)

instance (s : Text) : Decidable (Balanced s) :=
  inferInstanceAs (Decidable ((outside 0).after s = some (outside 0)))

/-- Brackets, quotes and nothing else change the level outside of strings. -/
def isPlain (c : Char) : Bool :=
  c != '"' && c != '[' && c != ']' && c != '\x7b' && c != '\x7d'

theorem Balanced.outside {s : Text} (h : Balanced s) (n : Nat) :
    (outside n).after s = some (outside n) := by
  simpa using after_deepen h n

theorem balanced_nil : Balanced [] := rfl

theorem Balanced.append {s t : Text} (hs : Balanced s) (ht : Balanced t) : Balanced (s ++ t) := by
  rw [Balanced, after_append, hs, Option.bind_some, ht]

theorem balanced_of_plain {s : Text} (h : s.all isPlain = true) : Balanced s := by
  induction s with
  | nil => exact balanced_nil
  | cons c s ih =>
    obtain ⟨hc, hs⟩ := Bool.and_eq_true_iff.mp (List.all_cons.symm.trans h)
    have hstep : (Level.outside 0).step c = some (Level.outside 0) := by
      simp only [isPlain, Bool.and_eq_true, bne_iff_ne] at hc
      simp [step, hc]
    rw [Balanced, after_cons, hstep]
    exact ih hs

/-- What leads from a level to itself does not go above it on the way. -/
theorem above_of_after {m : Mode} {s q : Text} (h : (Level.mk 0 m).after s = some ⟨0, m⟩)
    (hq : q <+: s) (n : Nat) :
    ∃ l, (Level.mk 0 m).after q = some l ∧ (Level.mk n m).after q = some (l.deepen n) := by
  obtain ⟨t, rfl⟩ := hq
  rw [after_append] at h
  obtain ⟨l, hl, -⟩ := Option.bind_eq_some_iff.mp h
  exact ⟨l, hl, by simpa [deepen] using after_deepen hl n⟩

/-- An opening and a closing character and the mode between them. -/
inductive Pair : Char → Mode → Char → Prop
  | list : Pair '[' .outside ']'
  | object : Pair '\x7b' .outside '\x7d'
  | quotes : Pair '"' .inside '"'

namespace Pair

variable {o c : Char} {m : Mode}

theorem opens (h : Pair o m c) (n : Nat) : (Level.outside n).step o = some ⟨n + 1, m⟩ := by
  cases h <;> rfl

theorem closes (h : Pair o m c) (n : Nat) :
    (Level.mk (n + 1) m).step c = some (Level.outside n) := by
  cases h <;> rfl

/-- Only from one level below does a closing bracket lead to the outermost one. -/
theorem eq_of_closes (h : Pair o .outside c) {l : Level} (hl : l.step c = some (Level.outside 0)) :
    l = Level.outside 1 := by
  obtain ⟨d, m⟩ := l
  cases h <;> cases m <;> rcases d with _ | _ | d <;> simp_all [step, leave]

/-- Where a closing bracket makes a text balanced, one bracket is open before it. -/
theorem level_of_closed (h : Pair o .outside c) {q : Text} (hb : Balanced (q ++ [c])) :
    (Level.outside 0).after q = some (Level.outside 1) := by
  rw [Balanced, after_append] at hb
  obtain ⟨l, hl, hc⟩ := Option.bind_eq_some_iff.mp hb
  obtain ⟨l', hl', rfl⟩ : ∃ l', l.step c = some l' ∧ l' = Level.outside 0 := by simpa using hc
  rw [hl, h.eq_of_closes hl']

variable {s p : Text}

theorem balanced (h : Pair o m c) (hs : (Level.mk 0 m).after s = some ⟨0, m⟩) :
    Balanced (o :: (s ++ [c])) := by
  have hs' : (Level.mk 1 m).after s = some ⟨1, m⟩ := by simpa [deepen] using after_deepen hs 1
  rw [Balanced, after_cons, h.opens, Option.bind_some, after_append, hs', Option.bind_some,
    after_cons, h.closes]
  rfl

/-- **The opening character is closed at the last one only.** -/
theorem eq_of_balanced (h : Pair o m c) (hs : (Level.mk 0 m).after s = some ⟨0, m⟩)
    (hp : p <+: o :: (s ++ [c])) (hne : p ≠ []) (hb : Balanced p) : p = o :: (s ++ [c]) := by
  obtain rfl | ⟨q, rfl, hq⟩ := List.prefix_cons_iff.mp hp
  · exact absurd rfl hne
  obtain rfl | hq := List.prefix_concat_iff.mp hq
  · rfl
  obtain ⟨l, -, hl⟩ := above_of_after hs hq 1
  rw [Balanced, after_cons, h.opens, Option.bind_some, hl] at hb
  exact absurd (congrArg depth (Option.some.inj hb)) (by simp [deepen])

end Pair

/-! ## The grammar writes balanced texts -/

theorem Blank.plain {b : Text} (h : Blank b) : b.all isPlain = true := by
  refine List.all_eq_true.mpr fun c hc => ?_
  have hs := h c hc
  simp only [isSpace, Bool.or_eq_true, beq_iff_eq] at hs
  obtain ((rfl | rfl) | rfl) | rfl := hs <;> rfl

theorem plain_of_isDigit {c : Char} (h : Decimal.isDigit c = true) : isPlain c = true := by
  have hne (d : Char) (hd : Decimal.isDigit d = false) : (c != d) = true :=
    bne_iff_ne.mpr (digit_ne h hd)
  rw [isPlain, hne '"' rfl, hne '[' rfl, hne ']' rfl, hne '\x7b' rfl, hne '\x7d' rfl]
  rfl

theorem Digits.plain {ds : Text} (h : Digits ds) : ds.all isPlain = true :=
  List.all_eq_true.mpr fun c hc => plain_of_isDigit (h c hc)

theorem Fraction.plain {f : Text} (h : Fraction f) : f.all isPlain = true := by
  cases h with
  | none => rfl
  | some hds => exact hds.plain

theorem Exponent.plain {x : Text} (h : Exponent x) : x.all isPlain = true := by
  cases h with
  | none => rfl
  | some he hs hds =>
    rw [List.all_cons, List.all_append, hds.plain]
    obtain rfl | rfl := he <;> obtain rfl | rfl | rfl := hs <;> rfl

theorem Numeral.plain {e : Text} (h : Numeral e) : e.all isPlain = true := by
  obtain ⟨hd, hds, -, hf, hx⟩ := h
  rw [List.all_cons, List.all_append, List.all_append, plain_of_isDigit hd, hds.plain, hf.plain,
    hx.plain]
  rfl

theorem brace_not_mem_of_plain {s : Text} (h : s.all isPlain = true) : '\x7d' ∉ s :=
  fun hmem => absurd (List.all_eq_true.mp h _ hmem) (by decide)

theorem step_inside_hex {c : Char} {i : Nat} (h : hexValue? c = some i) (n : Nat) :
    (inside n).step c = some (inside n) := by
  have hq : c ≠ '"' := by rintro rfl; cases h.symm.trans (rfl : hexValue? '"' = none)
  have hb : c ≠ '\\' := by rintro rfl; cases h.symm.trans (rfl : hexValue? '\\' = none)
  simp [step, hq, hb]

theorem HexText.after_inside {u : Text} {k : Nat} (h : HexText u k) (n : Nat) :
    (inside n).after u = some (inside n) := by
  cases h with
  | mk ha hb hc hd =>
    simp [step_inside_hex ha, step_inside_hex hb, step_inside_hex hc, step_inside_hex hd]

theorem Escape.after_escaped {e : Text} {c : Char} (h : Escape e c) (n : Nat) :
    (Level.mk n .escaped).after e = some (inside n) := by
  cases h with
  | short => rfl
  | unit hu => exact hu.after_inside n
  | pair hu _ _ hw =>
    rw [after_cons]
    show (inside n).after _ = _
    rw [after_append, hu.after_inside, Option.bind_some]
    exact hw.after_inside n

theorem StringText.after_inside {k t : Text} (h : StringText k t) (n : Nat) :
    (inside n).after k = some (inside n) := by
  induction h with
  | nil => rfl
  | @plain c s t hq hb _ _ ih =>
    have hstep : (inside n).step c = some (inside n) := by simp [step, hq, hb]
    rw [after_cons, hstep]
    exact ih
  | escape he _ ih =>
    rw [after_cons]
    show (Level.mk n .escaped).after _ = _
    rw [after_append, he.after_escaped, Option.bind_some]
    exact ih

/-! ## Where a brace closes

`Cut s p` is a place of `s` behind a closing brace at the level where `s` begins. Between the items
of a list there is none, and in an item none but its end. -/

/-- A beginning `p` of `s` that ends with a closing brace at the level where `s` begins. -/
structure Cut (s p : Text) : Prop where
  isPrefix : p <+: s
  last : p.getLast? = some '\x7d'
  balanced : Balanced p

/-- A text that comes back to its level without a closing brace on it. -/
structure Sealed (s : Text) : Prop where
  balanced : Balanced s
  uncut : ∀ p, ¬Cut s p

/-- A text that has a closing brace on its level at most at its end. -/
structure Solid (s : Text) : Prop where
  balanced : Balanced s
  whole : ∀ p, Cut s p → p = s

theorem Cut.ne_nil {s p : Text} (h : Cut s p) : p ≠ [] := by
  rintro rfl
  exact absurd h.last (by simp)

theorem Cut.mem {s p : Text} (h : Cut s p) : '\x7d' ∈ s :=
  h.isPrefix.subset (List.mem_of_getLast? h.last)

/-- A place in one text behind another is in the first or in the second. -/
theorem prefix_append_cases {p s t : Text} (h : p <+: s ++ t) :
    p <+: s ∨ ∃ q, q ≠ [] ∧ q <+: t ∧ p = s ++ q := by
  rcases List.prefix_or_prefix_of_prefix h (List.prefix_append s t) with hs | ⟨q, rfl⟩
  · exact .inl hs
  · by_cases hq : q = []
    · exact .inl (by simp [hq])
    · exact .inr ⟨q, hq, (List.prefix_append_right_inj s).mp h, rfl⟩

theorem Cut.append_cases {s t p : Text} (hs : Balanced s) (h : Cut (s ++ t) p) :
    Cut s p ∨ ∃ q, Cut t q ∧ p = s ++ q := by
  obtain ⟨hp, hlast, hb⟩ := h
  obtain hp | ⟨q, hq, hqt, rfl⟩ := prefix_append_cases hp
  · exact .inl ⟨hp, hlast, hb⟩
  · refine .inr ⟨q, ⟨hqt, ?_, ?_⟩, rfl⟩
    · rwa [List.getLast?_append_of_ne_nil _ hq] at hlast
    · rwa [Balanced, after_append, hs, Option.bind_some] at hb

theorem sealed_of_plain {s : Text} (h : s.all isPlain = true) : Sealed s :=
  ⟨balanced_of_plain h, fun _ hp => brace_not_mem_of_plain h hp.mem⟩

/-- Inside of one bracket, a brace that leaves that bracket open is a cut. -/
theorem cut_of_level {s p : Text} (hs : Balanced s) (hp : p <+: s)
    (hlast : p.getLast? = some '\x7d')
    (hone : (Level.outside 1).after p = some (Level.outside 1)) : Cut s p := by
  obtain ⟨⟨d, m⟩, hl, hl'⟩ := above_of_after hs hp 1
  rw [hl'] at hone
  obtain ⟨rfl, rfl⟩ : d = 0 ∧ m = .outside := by simpa [deepen] using hone
  exact ⟨hp, hlast, hl⟩

theorem Sealed.solid {s : Text} (h : Sealed s) : Solid s :=
  ⟨h.balanced, fun p hp => absurd hp (h.uncut p)⟩

theorem Sealed.append {s t : Text} (hs : Sealed s) (ht : Sealed t) : Sealed (s ++ t) where
  balanced := hs.balanced.append ht.balanced
  uncut p hp := by
    obtain hp | ⟨q, hq, -⟩ := hp.append_cases hs.balanced
    · exact hs.uncut p hp
    · exact ht.uncut q hq

theorem Sealed.append_solid {s t : Text} (hs : Sealed s) (ht : Solid t) : Solid (s ++ t) where
  balanced := hs.balanced.append ht.balanced
  whole p hp := by
    obtain hp | ⟨q, hq, rfl⟩ := hp.append_cases hs.balanced
    · exact absurd hp (hs.uncut p)
    · rw [ht.whole q hq]

theorem Pair.solid {o c : Char} {m : Mode} {s : Text} (h : Pair o m c)
    (hs : (Level.mk 0 m).after s = some ⟨0, m⟩) : Solid (o :: (s ++ [c])) :=
  ⟨h.balanced hs, fun _ hp => h.eq_of_balanced hs hp.isPrefix hp.ne_nil hp.balanced⟩

/-- A string has no closing brace on the level around it. -/
theorem StringText.sealed {k t : Text} (h : StringText k t) : Sealed ('"' :: (k ++ ['"'])) where
  balanced := Pair.quotes.balanced (h.after_inside 0)
  uncut p hp := by
    have hlast := hp.last
    rw [(Pair.quotes.solid (h.after_inside 0)).whole p hp] at hlast
    exact absurd hlast (by simp [List.getLast?_cons])

theorem Scalar.solid {e : Text} {v : Json} (h : Scalar e v) : Solid e := by
  cases h with
  | null => exact (sealed_of_plain rfl).solid
  | true => exact (sealed_of_plain rfl).solid
  | false => exact (sealed_of_plain rfl).solid
  | number he => exact (sealed_of_plain he.plain).solid
  | @negative e x he =>
    have hplain : ('-' :: e).all isPlain = Bool.true := he.plain
    exact (sealed_of_plain hplain).solid
  | string hk => exact hk.sealed.solid

section

variable {α : Type} {P : Text → α → Prop} (hP : ∀ {e x}, P e x → Solid e)

include hP

theorem Separated.balanced {s : Text} {xs : List α} (h : Separated P s xs) : Balanced s := by
  induction h with
  | one ha he hb =>
    exact (balanced_of_plain ha.plain).append
      ((hP he).balanced.append (balanced_of_plain hb.plain))
  | @cons a e b s x xs ha he hb _ ih =>
    have hcomma : Balanced (',' :: s) := by
      rw [← List.singleton_append]
      exact (balanced_of_plain rfl).append ih
    exact (balanced_of_plain ha.plain).append
      ((hP he).balanced.append ((balanced_of_plain hb.plain).append hcomma))

theorem Listed.balanced {s : Text} {xs : List α} (h : Listed P s xs) : Balanced s := by
  cases h with
  | empty hb => exact balanced_of_plain hb.plain
  | items hs => exact hs.balanced hP

/-- **A closing brace on the level of the items ends one of them.** What is written up to there are
the items up to that one. -/
theorem Separated.cut {s p : Text} {xs : List α} (h : Separated P s xs) (hp : Cut s p) :
    ∃ ys, ys <+: xs ∧ Separated P p ys := by
  induction h generalizing p with
  | @one a e b x ha he hb =>
    obtain hp | ⟨q, hq, rfl⟩ := hp.append_cases (balanced_of_plain ha.plain)
    · exact absurd hp ((sealed_of_plain ha.plain).uncut p)
    obtain hq | ⟨r, hr, rfl⟩ := hq.append_cases (hP he).balanced
    · rw [(hP he).whole q hq]
      exact ⟨[x], List.prefix_rfl, by simpa using Separated.one (P := P) ha he blank_nil⟩
    · exact absurd hr ((sealed_of_plain hb.plain).uncut r)
  | @cons a e b s x xs ha he hb hs ih =>
    obtain hp | ⟨q, hq, rfl⟩ := hp.append_cases (balanced_of_plain ha.plain)
    · exact absurd hp ((sealed_of_plain ha.plain).uncut p)
    obtain hq | ⟨r, hr, rfl⟩ := hq.append_cases (hP he).balanced
    · rw [(hP he).whole q hq]
      exact ⟨[x], by simp, by simpa using Separated.one (P := P) ha he blank_nil⟩
    · rw [← List.singleton_append, ← List.append_assoc] at hr
      have hcomma : Sealed (b ++ [',']) := (sealed_of_plain hb.plain).append
        (sealed_of_plain rfl)
      obtain hr | ⟨t, ht, rfl⟩ := hr.append_cases hcomma.balanced
      · exact absurd hr (hcomma.uncut r)
      obtain ⟨ys, hys, hsep⟩ := ih ht
      exact ⟨x :: ys, List.cons_prefix_cons.mpr ⟨rfl, hys⟩, by
        simpa using Separated.cons (P := P) ha he hb hsep⟩

end

theorem Member.solid {P : Text → Json → Prop} (hP : ∀ {e v}, P e v → Solid e) {s : Text}
    {m : Text × Json} (h : Member P s m) : Solid s := by
  cases h with
  | @mk k key b c e v hk hb hc he =>
    have hcolon : Sealed (b ++ ([':'] ++ c)) := (sealed_of_plain hb.plain).append
      ((sealed_of_plain rfl).append (sealed_of_plain hc.plain))
    simpa using (hk.sealed.append hcolon).append_solid (hP he)

theorem Bracketed.solid {P : Text → Json → Prop} (hP : ∀ {e v}, P e v → Solid e) {e : Text}
    {v : Json} (h : Bracketed P e v) : Solid e := by
  cases h with
  | scalar he => exact he.solid
  | array hs => exact Pair.list.solid (hs.balanced hP)
  | object hs => exact Pair.object.solid (hs.balanced (Member.solid hP))

/-- **A value is balanced and has a closing brace on its level at most at its end.** -/
theorem Written.solid {d : Nat} {e : Text} {v : Json} (h : Written d e v) : Solid e := by
  induction d generalizing e v with
  | zero => exact Scalar.solid h
  | succ d ih => exact Bracketed.solid ih h

theorem Document.balanced {s : Text} {v : Json} (h : Document s v) : Balanced s := by
  obtain ⟨a, e, b, ha, he, hb, rfl⟩ := h
  exact (balanced_of_plain ha.plain).append
    (he.solid.balanced.append (balanced_of_plain hb.plain))

/-! ## The last item -/

theorem Written.getLast?_of_object {d : Nat} {e : Text} {ms : Members}
    (h : Written d e (.object ms)) : e.getLast? = some '\x7d' := by
  cases d with
  | zero => exact nomatch h
  | succ d =>
    generalize hv : Json.object ms = v at h
    cases h with
    | scalar he => subst hv; exact nomatch he
    | array => exact nomatch hv
    | object => simp [List.getLast?_cons]

theorem Member.getLast?_of_object {d : Nat} {e k : Text} {ms : Members}
    (h : Member (Written d) e (k, .object ms)) : e.getLast? = some '\x7d' := by
  cases h with
  | @mk q key b c e v _ _ _ he =>
    have hlast := Written.getLast?_of_object he
    simp [List.getLast?_cons, List.getLast?_append, hlast]

/-- Items without the blanks behind them; what is last in the text is the last item. -/
theorem Separated.exists_last {α : Type} {R : Text → α → Prop} {s : Text} {xs : List α}
    (h : Separated R s xs) :
    ∃ t e b x, s = t ++ e ++ b ∧ Blank b ∧ Separated R (t ++ e) xs ∧ R e x ∧
      xs.getLast? = some x := by
  induction h with
  | @one a e b x ha he hb =>
    exact ⟨a, e, b, x, by simp, hb, by simpa using Separated.one (P := R) ha he blank_nil, he, rfl⟩
  | @cons a e b s x xs ha he hb hs ih =>
    obtain ⟨t, e', b', y, rfl, hb', hs', hy, hlast⟩ := ih
    refine ⟨a ++ (e ++ (b ++ ',' :: t)), e', b', y, by simp, hb', ?_, hy, ?_⟩
    · simpa using Separated.cons (P := R) ha he hb hs'
    · rw [List.getLast?_cons, hlast]
      rfl

end PromptTemplate.Json
