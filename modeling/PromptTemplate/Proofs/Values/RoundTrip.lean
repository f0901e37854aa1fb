import PromptTemplate.Proofs.Values.Json

/-!
# Proofs/Values/RoundTrip — values that were saved are loaded again

    n ↦ 1, t ↦ the text "1"    →    {"t":"1","n":1}    →    n ↦ 1, t ↦ the text "1"

A value is saved without a word on its kind, as a number, a string or `null`, and each of these is
read as one kind only (`ofJson?_toJson`). A map has no order, so its entries are saved in any. As
their keys are distinct, **the same map is loaded from each of these texts** (`ofJson_saved`).
Doubles are left out, since reading rounds them twice.
-/

namespace PromptTemplate

open Json

namespace Value

/-- **The kind of a value shows in what it is saved as.** -/
@[simp] theorem ofJson?_toJson (v : Value) : ofJson? v.toJson = some v := by
  cases v with
  | integer n => exact congrArg some (Values.ofNumber_of_int64 n)
  | real x => rfl
  | text t => rfl
  | null => rfl

theorem storable_toJson {v : Value} (h : ∀ x, v ≠ .real x) (d : Nat) : Storable d v.toJson := by
  cases v with
  | integer n =>
    have hhigh := n.toInt_lt
    have hsize : UInt64.size = 18446744073709551616 := rfl
    exact .integer n.minValue_le_toInt (by omega)
  | real x => exact absurd rfl (h x)
  | text t => exact .string t
  | null => exact .null

end Value

namespace Values

/-- The object that entries are saved as, in their order. `toJson` takes them by their keys. -/
def saved (es : List (Text × Value)) : Json := .object (es.map fun e => (e.1, e.2.toJson))

theorem forall₂_holds (es : List (Text × Value)) :
    List.Forall₂ Holds (es.map fun e => (e.1, e.2.toJson)) es := by
  rw [List.forall₂_map_left_iff, List.forall₂_same]
  exact fun e _ => ⟨rfl, e.2.ofJson?_toJson⟩

/-- Entries are put back together in any order. -/
theorem ofList_of_perm {vs : Values} {es : List (Text × Value)} (h : es.Perm vs.entries) :
    ofList es = vs := by
  have hperm : es.reverse.Perm vs.entries := es.reverse_perm.trans h
  have hnodup : (es.reverse.map Prod.fst).Nodup := (hperm.map Prod.fst).nodup_iff.mpr vs.nodup_keys
  refine ext_get? fun k => Option.ext fun v => ?_
  rw [get?_ofList, lookup_eq_some_of_nodup hnodup, hperm.mem_iff, mem_entries_iff]

/-- **Values are loaded as they were saved**, in one line or over several, whatever the order of
their entries. Texts and keys are any texts. -/
theorem ofJson_saved {vs : Values} (h : ∀ k x, vs.get? k ≠ some (.real x))
    {es : List (Text × Value)} (hes : es.Perm vs.entries) :
    ofJson (print (saved es)) = .ok vs ∧ ofJson (pretty (saved es)) = .ok vs := by
  have hstorable : ∀ m ∈ es.map fun e => (e.1, e.2.toJson), Storable (maxDepth - 1) m.2 := by
    intro m hm
    obtain ⟨⟨k, v⟩, he, rfl⟩ := List.mem_map.mp hm
    refine Value.storable_toJson (fun x hx => h k x ?_) _
    rw [← mem_entries_iff, ← hes.mem_iff, ← hx]
    exact he
  obtain ⟨hprint, hpretty⟩ := objectText_print hstorable
  have hload {s : Text} (hs : ObjectText s (es.map fun e => (e.1, e.2.toJson))) :
      ofJson s = .ok vs :=
    ofJson_eq_ok.mpr ⟨es, flatText_iff.mpr ⟨_, hs, forall₂_holds es⟩, ofList_of_perm hes⟩
  exact ⟨hload hprint, hload hpretty⟩

/-- The least integer, nothing under a key that has to be escaped, and a text that looks like a
number, not in the order of their keys. -/
def oddments : List (Text × Value) :=
  [(['n'], .integer Int64.minValue), (['\n', '"'], .null), ([], .text "-1".toList)]

theorem ofJson_saved_oddments :
    (∀ k x, (ofList oddments).get? k ≠ some (.real x)) ∧
    oddments.Perm (ofList oddments).entries ∧ oddments ≠ (ofList oddments).entries ∧
    ofJson (print (saved oddments)) = .ok (ofList oddments) ∧
    ofJson (pretty (saved oddments)) = .ok (ofList oddments) := by
  have hentries : (ofList oddments).entries = oddments.reverse := by decide +kernel
  have hkinds : ∀ k x, (ofList oddments).get? k ≠ some (.real x) := by
    intro k x hk
    rw [← mem_entries_iff, hentries, List.mem_reverse] at hk
    simp [oddments] at hk
  have hperm : oddments.Perm (ofList oddments).entries := by
    rw [hentries]
    exact oddments.reverse_perm.symm
  exact ⟨hkinds, hperm, by decide +kernel, ofJson_saved hkinds hperm⟩

end Values

end PromptTemplate
