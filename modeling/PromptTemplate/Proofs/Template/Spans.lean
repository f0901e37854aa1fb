import PromptTemplate.Proofs.Template.Scanning
import PromptTemplate.Proofs.Text.Slice

/-!
# Proofs/Template/Spans — the bytes that the occurrences of a template take

    {{{a}}} {{ {{@é}}
     └───┘     └────┘     bytes 1 to 6 and 11 to 18

Spans of bytes are compared with the template's own bytes: no end of a span is assumed to lie
between characters, and nothing is said of the order in which the template is read. **The
occurrences are all spans of two braces, a text without braces and two braces, from left to right**
(`spans_scan`).
-/

namespace PromptTemplate.Template

open Placeholder Text

namespace Occurrence

theorem text_ne_nil (o : Occurrence) : o.text ≠ [] := List.cons_ne_nil _ _

theorem start_lt_stop (o : Occurrence) : o.start < o.stop := by
  have hbytes : 0 < bytes o.text := bytes_pos o.text_ne_nil
  rw [stop]
  omega

end Occurrence

/-! ## From left to right -/

theorem le_start_of_mem {i : Nat} {ps : List Piece} {o : Occurrence}
    (h : o ∈ occurrencesFrom i ps) : i ≤ o.start := by
  obtain ⟨qs, rs, -, hstart⟩ := mem_occurrencesFrom.mp h
  exact hstart ▸ Nat.le_add_right _ _

/-- **An occurrence ends before the next one begins.** -/
theorem pairwise_occurrencesFrom (i : Nat) (ps : List Piece) :
    (occurrencesFrom i ps).Pairwise fun o o' => o.stop ≤ o'.start := by
  induction ps generalizing i with
  | nil => exact .nil
  | cons p ps ih =>
    cases p with
    | char c => exact ih _
    | occurrence body => exact .cons (fun o ho => le_start_of_mem ho) (ih _)

/-! ## All spans between braces -/

theorem slice_of_mem_scan {s : Text} {o : Occurrence} (h : o ∈ scan s) :
    Slice s o.start o.stop o.text := by
  obtain ⟨-, a, b, rfl, hstart⟩ := mem_scan_iff.mp h
  rw [Occurrence.stop, ← hstart]
  exact slice_append a o.text b

/-- **The spans are the slices with braces at their ends and none between.** -/
theorem exists_mem_scan_iff {s : Text} {i j : Nat} :
    (∃ o ∈ scan s, o.start = i ∧ o.stop = j) ↔
      ∃ body, Unbraced body ∧ Slice s i j (braced body) := by
  constructor
  · rintro ⟨o, ho, rfl, rfl⟩
    exact ⟨o.body, (mem_scan_iff.mp ho).1, slice_of_mem_scan ho⟩
  · rintro ⟨body, hbody, hslice⟩
    obtain ⟨a, b, hs, hi, hj⟩ := (slice_iff (List.cons_ne_nil _ _)).mp hslice
    exact ⟨⟨i, body⟩, mem_scan_iff.mpr ⟨hbody, a, b, hs, hi⟩, rfl, hj⟩

/-! ## The sign of a body -/

/-- **The sign of a body is its first character that is not blank**, if that is a sign. -/
theorem modifierOf_eq_iff (body : Text) (m : Modifier) :
    modifierOf body = m ↔ match m with
      | .definition => body.find? (!isBlank ·) = some '@'
      | .comment => body.find? (!isBlank ·) = some '#'
      | .reference => body.find? (!isBlank ·) ≠ some '@' ∧ body.find? (!isBlank ·) ≠ some '#' := by
  rw [find?_not_isBlank, modifierOf]
  split <;> cases m <;> simp_all [List.head?_eq_some_iff]

/-! ## All of it -/

/-- What the occurrences of a template are. -/
structure Spans (s : Text) (os : List Occurrence) : Prop where
  exists_iff : ∀ i j, (∃ o ∈ os, o.start = i ∧ o.stop = j) ↔
    ∃ body, Unbraced body ∧ Slice s i j (braced body)
  start_lt_stop : ∀ o ∈ os, o.start < o.stop
  /-- From left to right, and no two of them share a byte. -/
  ascending : os.Pairwise fun o o' => o.stop ≤ o'.start
  isValid_start : ∀ o ∈ os, String.Pos.Raw.IsValid (String.ofList s) ⟨o.start⟩
  isValid_stop : ∀ o ∈ os, String.Pos.Raw.IsValid (String.ofList s) ⟨o.stop⟩
  slice_text : ∀ o ∈ os, Slice s o.start o.stop o.text
  unbraced_body : ∀ o ∈ os, Unbraced o.body ∧ o.text = braced o.body
  definition_iff : ∀ o ∈ os,
    modifierOf o.body = .definition ↔ o.body.find? (!isBlank ·) = some '@'
  comment_iff : ∀ o ∈ os, modifierOf o.body = .comment ↔ o.body.find? (!isBlank ·) = some '#'
  reference_iff : ∀ o ∈ os, modifierOf o.body = .reference ↔
    o.body.find? (!isBlank ·) ≠ some '@' ∧ o.body.find? (!isBlank ·) ≠ some '#'

/-- **The occurrences are all spans of a text without braces between braces**, from left to right,
with the sign that each begins with. -/
theorem spans_scan (s : Text) : Spans s (scan s) where
  exists_iff _ _ := exists_mem_scan_iff
  start_lt_stop o _ := o.start_lt_stop
  ascending := pairwise_occurrencesFrom 0 (pieces s)
  isValid_start o ho := ((slice_of_mem_scan ho).isValid o.text_ne_nil).1
  isValid_stop o ho := ((slice_of_mem_scan ho).isValid o.text_ne_nil).2
  slice_text _ ho := slice_of_mem_scan ho
  unbraced_body _ ho := ⟨(mem_scan_iff.mp ho).1, rfl⟩
  definition_iff o _ := modifierOf_eq_iff o.body .definition
  comment_iff o _ := modifierOf_eq_iff o.body .comment
  reference_iff o _ := modifierOf_eq_iff o.body .reference

/-- Braces around an occurrence are none of its own, and `é` counts for two bytes. -/
example :
    (scan "\x7b\x7b\x7ba\x7d\x7d\x7d \x7b\x7b \x7b\x7b@é\x7d\x7d".toList).map
        (fun o => (o.start, o.stop, modifierOf o.body)) =
      [(1, 6, .reference), (11, 18, .definition)] := by decide +kernel

end PromptTemplate.Template
