import PromptTemplate.Proofs.Response.Repair
import PromptTemplate.Proofs.Text.Run

/-!
# Proofs/Response/Emptiness — which responses have no variants

    [ ]             none: an empty list
    [1, {"a": 2     none: cut off, and no object is complete
    [ ] }           one text: no JSON text, and the cut behind the brace is none either

A response that is read as it stands has no variants if it is an empty list. What is kept of one
that is repaired ends with a closing brace, and no empty list has a brace in it. So **a response has
no variants just when it is an empty list, or no JSON text but the beginning of a list, without a
closing brace** (`variants_eq_nil_iff`). A list that nests too deep, or has a number out of range, is
no JSON text here.
-/

namespace PromptTemplate.Response

open Json

/-! ## Empty lists -/

theorem ofJson_eq_nil_iff {v : Json} : ofJson v = [] ↔ v = .array [] := by
  cases v <;> simp [ofJson]

/-- Between the brackets of an empty list there are blanks. -/
theorem brace_not_mem_of_parse_nil {s : Text} (h : Json.parse s = .ok (.array [])) :
    '\x7d' ∉ s := by
  obtain ⟨a, t, b, ha, ht, hb, rfl⟩ := exists_list h
  cases ht with
  | items hsep => exact nomatch hsep
  | empty ht =>
    have hplain : ∀ {u : Text}, Blank u → '\x7d' ∉ u := fun hu => brace_not_mem_of_plain hu.plain
    simp [hplain ha, hplain ht, hplain hb]

/-! ## Repaired responses -/

theorem upToLastBrace?_eq_none_iff {s : Text} : upToLastBrace? s = none ↔ '\x7d' ∉ s := by
  have hnil : s.reverse.dropWhile (· != '\x7d') = [] ↔ '\x7d' ∉ s := by
    rw [List.dropWhile_eq_nil_iff]
    simp only [List.mem_reverse, bne_iff_ne]
    exact ⟨fun h hmem => h _ hmem rfl, fun h c hc heq => h (heq ▸ hc)⟩
  rw [upToLastBrace?, ← hnil]
  split
  · exact iff_of_true rfl ‹_›
  · exact iff_of_false (by simp) ‹_›

/-- The first character of a response that is not blank is the outer bracket. -/
theorem closer?_eq_listEnd_iff {s : Text} :
    closer? s = some ']' ↔ s.find? (!Text.isBlank ·) = some '[' := by
  rw [Text.find?_not_isBlank, closer?]
  split <;> simp_all [List.head?_eq_some_iff]

/-- **A repaired response is empty just when it begins a list and has no closing brace.** -/
theorem repair_eq_nil_iff {s : Text} :
    repair s = [] ↔ closer? s = some ']' ∧ '\x7d' ∉ s := by
  rw [repair, ← upToLastBrace?_eq_none_iff]
  cases hcloser : closer? s with
  | none => simp
  | some c =>
    cases hkept : upToLastBrace? s with
    | none => by_cases hc : c = ']' <;> simp [hc]
    | some kept =>
      simp only [reduceCtorEq, and_false, iff_false]
      cases hcand : Json.parse (kept ++ [c]) with
      | error f => simp
      | ok v =>
        -- what is kept ends with a brace, which no empty list has
        rw [ofJson_eq_nil_iff]
        rintro rfl
        have hmem := List.mem_of_getLast? (upToLastBrace?_eq_some hkept).2
        exact brace_not_mem_of_parse_nil hcand (List.mem_append_left _ hmem)

/-- **A response has no variants just when it is an empty list, or no JSON text but the beginning of
a list, without a closing brace.** -/
theorem variants_eq_nil_iff {ι : Type} (id : Nat → ι) (s : Text) :
    variants id s = [] ↔
      Document s (.array []) ∨
        (∀ v, ¬ Document s v) ∧ s.find? (!Text.isBlank ·) = some '[' ∧ '\x7d' ∉ s := by
  rw [← List.map_eq_nil_iff (f := Variant.content), map_content_variants, contents,
    ← closer?_eq_listEnd_iff, ← repair_eq_nil_iff]
  simp only [← parse_eq_ok_iff]
  cases Json.parse s with
  | ok v => simp [ofJson_eq_nil_iff]
  | error f => simp

end PromptTemplate.Response
