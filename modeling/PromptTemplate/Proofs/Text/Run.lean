import Mathlib.Data.List.DropRight
import Mathlib.Data.List.TakeWhile
import PromptTemplate.Text.Basic

/-!
# Proofs/Text/Run — a run of characters of one class, and where it ends

    aaa|bca     `a` three times, then a text that does not go on with `a`

A text `Ends` a class of characters if its first character, should it have one, is of another.
**A run is cut off in front of such a text in one way only** (`append_inj_of_ends`), which is the
one that `takeWhile` and `dropWhile` find.
-/

namespace PromptTemplate.Text

variable {p q : Char → Bool} {a b r s : Text}

/-- The text does not go on with a character of the class. -/
def Ends (p : Char → Bool) (s : Text) : Prop := ∀ c ∈ s.head?, p c = false

@[simp] theorem ends_nil : Ends p [] := by simp [Ends]

@[simp] theorem ends_cons {c : Char} : Ends p (c :: s) ↔ p c = false := by simp [Ends]

theorem ends_dropWhile (p : Char → Bool) (s : Text) : Ends p (s.dropWhile p) := by
  cases h : s.dropWhile p with
  | nil => exact ends_nil
  | cons c r =>
    have hc := List.head_dropWhile_not p (l := s) (by simp [h])
    rw [ends_cons]
    simpa [h] using hc

/-- A run that is cut off where the text does not go on is empty. -/
theorem takeWhile_eq_nil_iff : s.takeWhile p = [] ↔ Ends p s := by
  cases s with
  | nil => simp
  | cons c s => simp

/-- Behind a run of one class that holds no character of the other. -/
theorem Ends.append (hr : Ends p r) (ha : ∀ c ∈ a, p c = false) : Ends p (a ++ r) := by
  cases a with
  | nil => exact hr
  | cons c a => exact ends_cons.mpr (ha c List.mem_cons_self)

/-- What a text begins with goes on with the class no more than the text does. -/
theorem Ends.of_isPrefix (hs : Ends p s) (h : r <+: s) : Ends p r := by
  obtain ⟨t, rfl⟩ := h
  cases r with
  | nil => exact ends_nil
  | cons c r => exact ends_cons.mpr (ends_cons.mp hs)

theorem takeWhile_of_ends (ha : ∀ c ∈ a, p c = true) (hr : Ends p r) :
    (a ++ r).takeWhile p = a := by
  rw [List.takeWhile_append_of_pos ha]
  cases r with
  | nil => simp
  | cons c r => rw [List.takeWhile_cons_of_neg (by simpa using hr), List.append_nil]

theorem dropWhile_of_ends (ha : ∀ c ∈ a, p c = true) (hr : Ends p r) :
    (a ++ r).dropWhile p = r := by
  rw [List.dropWhile_append_of_pos ha]
  cases r with
  | nil => rfl
  | cons c r => rw [List.dropWhile_cons_of_neg (by simpa using hr)]

/-- **A run is cut off in one way only.** -/
theorem append_inj_of_ends (ha : ∀ c ∈ a, p c = true) (hb : ∀ c ∈ b, p c = true)
    (hr : Ends p r) (hs : Ends p s) (h : a ++ r = b ++ s) : a = b ∧ r = s := by
  have htake := congrArg (List.takeWhile p) h
  have hdrop := congrArg (List.dropWhile p) h
  rw [takeWhile_of_ends ha hr, takeWhile_of_ends hb hs] at htake
  rw [dropWhile_of_ends ha hr, dropWhile_of_ends hb hs] at hdrop
  exact ⟨htake, hdrop⟩

/-- A run does not begin with a character of another class. -/
theorem append_ne_cons (hne : a ≠ []) (ha : ∀ c ∈ a, p c = true) {c : Char} (hc : p c = false) :
    a ++ r ≠ c :: s := by
  obtain ⟨d, a, rfl⟩ := List.exists_cons_of_ne_nil hne
  intro heq
  have hd := ha d List.mem_cons_self
  rw [(List.cons.inj heq).1, hc] at hd
  exact absurd hd (by decide)

/-! ## Blanks at the ends -/

/-- The first character that is not blank. -/
theorem find?_not_isBlank (t : Text) : t.find? (!isBlank ·) = (trimStart t).head? := by
  rw [List.find?_eq_head?_dropWhile_not, trimStart]
  simp only [Bool.not_not]

theorem trimEnd_append_blanks (t : Text) {g : Text} (hg : ∀ c ∈ g, isBlank c = true) :
    trimEnd (t ++ g) = trimEnd t := by
  have hg' : ∀ c ∈ g.reverse, isBlank c = true := fun c hc => hg c (List.mem_reverse.mp hc)
  rw [trimEnd, List.reverse_append, List.dropWhile_append_of_pos hg', trimEnd]

theorem trim_append_blanks (t : Text) {g : Text} (hg : ∀ c ∈ g, isBlank c = true) :
    trim (t ++ g) = trim t := by
  rw [trim, trimStart, List.dropWhile_append, trim, trimStart]
  split
  · rename_i h
    rw [List.isEmpty_iff.mp h, List.dropWhile_eq_nil_iff.mpr hg]
  · exact trimEnd_append_blanks _ hg

/-- Trimming takes blanks off the two ends. -/
theorem exists_trim (t : Text) :
    ∃ g g', isAllBlank g = true ∧ isAllBlank g' = true ∧ t = g ++ (trim t ++ g') := by
  have hstart := List.takeWhile_append_dropWhile (p := isBlank) (l := t)
  have hend := congrArg List.reverse
    (List.takeWhile_append_dropWhile (p := isBlank) (l := (trimStart t).reverse))
  rw [List.reverse_append, List.reverse_reverse] at hend
  refine ⟨t.takeWhile isBlank, ((trimStart t).reverse.takeWhile isBlank).reverse,
    List.all_takeWhile, ?_, ?_⟩
  · rw [isAllBlank, List.all_reverse]
    exact List.all_takeWhile
  · rw [trim, trimEnd, hend, trimStart, hstart]

theorem trimEnd_eq_nil {t : Text} : trimEnd t = [] ↔ isAllBlank t = true := by
  rw [trimEnd, List.reverse_eq_nil_iff, List.dropWhile_eq_nil_iff, isAllBlank, List.all_eq_true]
  simp only [List.mem_reverse]

/-- Nothing is left of a text of blanks, and of no other. -/
theorem trim_eq_nil {t : Text} : trim t = [] ↔ isAllBlank t = true := by
  rw [trim, trimEnd_eq_nil, trimStart]
  constructor
  · intro h
    have hnil : t.dropWhile isBlank = [] := by
      cases hd : t.dropWhile isBlank with
      | nil => rfl
      | cons c r =>
        have hc : isBlank c = false := ends_cons.mp (hd ▸ ends_dropWhile isBlank t)
        simp [hd, isAllBlank, hc] at h
    rw [List.dropWhile_eq_nil_iff] at hnil
    exact List.all_eq_true.mpr hnil
  · intro h
    rw [List.dropWhile_eq_nil_iff.mpr (List.all_eq_true.mp h)]
    rfl

/-- Trimming once is enough. -/
theorem trim_trim (t : Text) : trim (trim t) = trim t := by
  have hends : Ends isBlank (trim t) :=
    (ends_dropWhile isBlank t).of_isPrefix (List.rdropWhile_prefix isBlank _)
  have hstart : trimStart (trim t) = trim t := dropWhile_of_ends (List.forall_mem_nil _) hends
  rw [trim, hstart]
  exact List.rdropWhile_idempotent isBlank (trimStart t)

theorem mem_of_mem_trim {t : Text} {c : Char} (h : c ∈ trim t) : c ∈ t := by
  obtain ⟨g, g', -, -, ht⟩ := exists_trim t
  rw [ht]
  exact List.mem_append_right _ (List.mem_append_left _ h)

/-- There is nothing to trim off a text without blanks. -/
theorem trim_of_forall_not_isBlank {t : Text} (h : ∀ c ∈ t, isBlank c = false) : trim t = t := by
  have hnil {g : Text} (hg : isAllBlank g = true) (hsub : ∀ c ∈ g, c ∈ t) : g = [] := by
    refine List.eq_nil_iff_forall_not_mem.mpr fun c hc => ?_
    have hblank := List.all_eq_true.mp hg c hc
    rw [h c (hsub c hc)] at hblank
    exact absurd hblank (by decide)
  obtain ⟨g, g', hg, hg', ht⟩ := exists_trim t
  rw [hnil hg fun c hc => ht ▸ List.mem_append_left _ hc,
    hnil hg' fun c hc => ht ▸ List.mem_append_right _ (List.mem_append_right _ hc),
    List.nil_append, List.append_nil] at ht
  exact ht.symm

theorem isAllBlank_trim (t : Text) : isAllBlank (trim t) = isAllBlank t := by
  rw [Bool.eq_iff_iff, ← trim_eq_nil, ← trim_eq_nil, trim_trim]

end PromptTemplate.Text
