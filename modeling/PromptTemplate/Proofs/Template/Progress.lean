import Mathlib.Data.List.Induction
import PromptTemplate.Proofs.Template.Scanning

/-!
# Proofs/Template/Progress — finding an occurrence character by character

    start ─{─▶ brace ─{─▶ opened ──▶ body ─}─▶ closing ─}─▶ found

A text is read once from the left, and all that is kept is how much of an occurrence it ends with.
**A text has no occurrence just when `found` is not reached** (`scan_eq_nil_iff_read`). So texts can
be compared character by character: a state that is `Below` another stays below it (`Below.read`),
and a text without braces only leads down (`below_read`).
-/

namespace PromptTemplate.Template

open Placeholder

/-- How much of an occurrence a text ends with. -/
inductive Progress
  | start
  | brace
  /-- Two opening braces. -/
  | opened
  /-- Two opening braces and some text without braces. -/
  | body
  /-- All of an occurrence but the last brace. -/
  | closing
  /-- There is an occurrence; what follows it does not matter. -/
  | found
deriving DecidableEq, Repr

namespace Progress

def onOpening : Progress → Progress
  | found => found
  | brace | opened => opened
  | start | body | closing => brace

def onClosing : Progress → Progress
  | found | closing => found
  | opened | body => closing
  | start | brace => start

def onOther : Progress → Progress
  | found => found
  | opened | body => body
  | start | brace | closing => start

def step (q : Progress) (c : Char) : Progress :=
  if c = '\x7b' then q.onOpening else if c = '\x7d' then q.onClosing else q.onOther

def read (q : Progress) (t : Text) : Progress := t.foldl step q

theorem read_cons (q : Progress) (c : Char) (t : Text) : q.read (c :: t) = (q.step c).read t := rfl

theorem read_append (q : Progress) (s t : Text) : q.read (s ++ t) = (q.read s).read t :=
  List.foldl_append

theorem step_of_unbraced {c : Char} (h : Token.isBrace c = false) (q : Progress) :
    q.step c = q.onOther := by
  obtain ⟨hopening, hclosing⟩ : c ≠ '\x7b' ∧ c ≠ '\x7d' := by simpa [Token.isBrace] using h
  rw [step, if_neg hopening, if_neg hclosing]

@[simp] theorem onOther_onOther (q : Progress) : q.onOther.onOther = q.onOther := by
  cases q <;> rfl

/-! ## Texts without braces -/

theorem read_onOther {x : Text} (h : Unbraced x) (q : Progress) : q.onOther.read x = q.onOther := by
  induction x with
  | nil => rfl
  | cons c x ih =>
    obtain ⟨hc, hx⟩ := unbraced_cons.mp h
    rw [read_cons, step_of_unbraced hc, onOther_onOther, ih hx]

/-- All texts without braces are one, unless they are empty. -/
theorem read_unbraced {x : Text} (h : Unbraced x) (hx : x ≠ []) (q : Progress) :
    q.read x = q.onOther := by
  obtain ⟨c, x, rfl⟩ := List.exists_cons_of_ne_nil hx
  obtain ⟨hc, hx⟩ := unbraced_cons.mp h
  rw [read_cons, step_of_unbraced hc, read_onOther hx]

theorem read_unbraced_eq_found {x : Text} (h : Unbraced x) (q : Progress) :
    q.read x = found ↔ q = found := by
  by_cases hx : x = []
  · rw [hx]
    rfl
  · rw [read_unbraced h hx]
    cases q <;> simp [onOther]

/-! ## What has been found -/

/-- The text that was read ends with what its state says. -/
def Says (t : Text) : Progress → Prop
  | start => True
  | brace => ∃ a, t = a ++ ['\x7b']
  | opened => ∃ a, t = a ++ ['\x7b', '\x7b']
  | body => ∃ a b, Unbraced b ∧ t = a ++ '\x7b' :: '\x7b' :: b
  | closing => ∃ a b, Unbraced b ∧ t = a ++ '\x7b' :: '\x7b' :: (b ++ ['\x7d'])
  | found => ∃ a b r, Unbraced b ∧ t = a ++ (braced b ++ r)

theorem says_onOpening {t : Text} {q : Progress} (h : Says t q) :
    Says (t ++ ['\x7b']) q.onOpening := by
  cases q with
  | found =>
    obtain ⟨a, b, r, hb, rfl⟩ := h
    exact ⟨a, b, r ++ ['\x7b'], hb, by simp⟩
  | brace =>
    obtain ⟨a, rfl⟩ := h
    exact ⟨a, by simp⟩
  | opened =>
    obtain ⟨a, rfl⟩ := h
    exact ⟨a ++ ['\x7b'], by simp⟩
  | start | body | closing => exact ⟨t, rfl⟩

theorem says_onClosing {t : Text} {q : Progress} (h : Says t q) :
    Says (t ++ ['\x7d']) q.onClosing := by
  cases q with
  | found =>
    obtain ⟨a, b, r, hb, rfl⟩ := h
    exact ⟨a, b, r ++ ['\x7d'], hb, by simp⟩
  | opened =>
    obtain ⟨a, rfl⟩ := h
    exact ⟨a, [], unbraced_nil, by simp⟩
  | body =>
    obtain ⟨a, b, hb, rfl⟩ := h
    exact ⟨a, b, hb, by simp⟩
  | closing =>
    obtain ⟨a, b, hb, rfl⟩ := h
    exact ⟨a, b, [], hb, by simp [braced]⟩
  | start | brace => trivial

theorem says_onOther {t : Text} {c : Char} (hc : Token.isBrace c = false) {q : Progress}
    (h : Says t q) : Says (t ++ [c]) q.onOther := by
  have hone : Unbraced [c] := unbraced_cons.mpr ⟨hc, unbraced_nil⟩
  cases q with
  | found =>
    obtain ⟨a, b, r, hb, rfl⟩ := h
    exact ⟨a, b, r ++ [c], hb, by simp⟩
  | opened =>
    obtain ⟨a, rfl⟩ := h
    exact ⟨a, [c], hone, by simp⟩
  | body =>
    obtain ⟨a, b, hb, rfl⟩ := h
    exact ⟨a, b ++ [c], unbraced_append.mpr ⟨hb, hone⟩, by simp⟩
  | start | brace | closing => trivial

theorem says_step {t : Text} {q : Progress} (h : Says t q) (c : Char) :
    Says (t ++ [c]) (q.step c) := by
  by_cases hopening : c = '\x7b'
  · rw [step, if_pos hopening, hopening]
    exact says_onOpening h
  · by_cases hclosing : c = '\x7d'
    · rw [step, if_neg hopening, if_pos hclosing, hclosing]
      exact says_onClosing h
    · have hc : Token.isBrace c = false := by simp [Token.isBrace, hopening, hclosing]
      rw [step_of_unbraced hc]
      exact says_onOther hc h

theorem says_read (t : Text) : Says t (start.read t) := by
  induction t using List.reverseRecOn with
  | nil => trivial
  | append_singleton t c ih =>
    rw [read_append]
    exact says_step ih c

/-- Whatever was read before, braces around a text without braces are found. -/
theorem read_braced {b : Text} (h : Unbraced b) (q : Progress) : q.read (braced b) = found := by
  have htext : braced b = '\x7b' :: '\x7b' :: (b ++ ['\x7d', '\x7d']) := rfl
  have hclosing : ∀ p : Progress, p.read ['\x7d', '\x7d'] = p.onClosing.onClosing := fun _ => rfl
  rw [htext, read_cons, read_cons, read_append, hclosing]
  by_cases hb : b = []
  · rw [hb]
    cases q <;> rfl
  · rw [read_unbraced h hb]
    cases q <;> rfl

theorem read_found (t : Text) : found.read t = found := by
  induction t with
  | nil => rfl
  | cons c t ih =>
    have hstep : found.step c = found := by
      rw [step]
      split
      · rfl
      · split <;> rfl
    rw [read_cons, hstep, ih]

/-- **A text has no occurrence just when none is found by reading it through.** -/
theorem scan_eq_nil_iff_read {t : Text} : scan t = [] ↔ start.read t ≠ found := by
  rw [scan_eq_nil_iff, ne_eq]
  refine not_congr ⟨?_, fun h => ?_⟩
  · rintro ⟨a, b, r, hb, rfl⟩
    rw [read_append, read_append, read_braced hb, read_found]
  · have hsays := says_read t
    rw [h] at hsays
    exact hsays

/-! ## States that find less -/

/-- What is found from the first state is found from the second. -/
inductive Below : Progress → Progress → Prop
  | refl (q : Progress) : Below q q
  | start (q : Progress) : Below .start q
  | found (p : Progress) : Below p .found
  | brace : Below .brace .opened
  | body : Below .body .opened

theorem Below.trans {p q r : Progress} (h : Below p q) (h' : Below q r) : Below p r := by
  cases h with
  | refl => exact h'
  | start => exact .start r
  | found =>
    cases h'
    · exact .found p
    · exact .found p
  | brace =>
    cases h'
    · exact .brace
    · exact .found _
  | body =>
    cases h'
    · exact .body
    · exact .found _

theorem Below.eq_found {q : Progress} (h : Below .found q) : q = .found := by
  cases h <;> rfl

theorem Below.onOpening {p q : Progress} (h : Below p q) : Below p.onOpening q.onOpening := by
  cases h with
  | start => cases q <;> constructor
  | refl | found | brace | body => constructor

theorem Below.onClosing {p q : Progress} (h : Below p q) : Below p.onClosing q.onClosing := by
  cases h <;> constructor

theorem Below.onOther {p q : Progress} (h : Below p q) : Below p.onOther q.onOther := by
  cases h <;> constructor

theorem Below.step {p q : Progress} (h : Below p q) (c : Char) : Below (p.step c) (q.step c) := by
  rw [Progress.step, Progress.step]
  split
  · exact h.onOpening
  · split
    · exact h.onClosing
    · exact h.onOther

/-- A character that is no brace brings nothing nearer. -/
theorem below_onOther (q : Progress) : Below q.onOther q := by
  cases q <;> constructor

theorem below_read {x : Text} (h : Unbraced x) (q : Progress) : Below (q.read x) q := by
  by_cases hx : x = []
  · rw [hx]
    exact .refl q
  · rw [read_unbraced h hx]
    exact below_onOther q

end Progress

end PromptTemplate.Template
