import Mathlib.Data.List.Lemmas
import PromptTemplate.Proofs.Text.Keys
import PromptTemplate.Values.Basic

/-!
# Proofs/Values/Map — values are a map

    ofList [("a", 1), ("b", 2), ("a", 3)]      a ↦ 3, b ↦ 2

A map is **what its keys have as values** (`ext_get?`), and each insertion changes the value of one
key (`get?_insert`), so of the values that a list gives to a key the last one counts
(`get?_ofList`).
-/

namespace PromptTemplate.Values

theorem find?_putEntry_self (k : Text) (v : Value) (es : List (Text × Value)) :
    (putEntry k v es).find? (·.1 = k) = some (k, v) := by
  induction es with
  | nil => simp [putEntry]
  | cons e es ih =>
    rw [putEntry]
    split
    · simp
    · split
      · simp
      · rw [List.find?_cons_of_neg (by simpa using Ne.symm ‹¬k = e.1›), ih]

theorem find?_putEntry_of_ne {k j : Text} (h : j ≠ k) (v : Value) (es : List (Text × Value)) :
    (putEntry k v es).find? (·.1 = j) = es.find? (·.1 = j) := by
  have hk : ∀ l : List (Text × Value), ((k, v) :: l).find? (·.1 = j) = l.find? (·.1 = j) :=
    fun l => List.find?_cons_of_neg (by simpa using Ne.symm h)
  induction es with
  | nil => rw [putEntry, hk]
  | cons e es ih =>
    rw [putEntry]
    split
    · rw [hk]
    · split
      · rw [hk, List.find?_cons_of_neg (by simpa [← ‹k = e.1›] using Ne.symm h)]
      · rw [List.find?_cons, List.find?_cons, ih]

theorem get?_insert (vs : Values) (k j : Text) (v : Value) :
    (vs.insert k v).get? j = if j = k then some v else vs.get? j := by
  rw [get?, insert]
  split
  · rw [‹j = k›, find?_putEntry_self, Option.map_some]
  · rw [find?_putEntry_of_ne ‹_›, get?]

theorem nonBlank?_insert_self (vs : Values) (k : Text) {v : Value} (h : v.isBlank = false) :
    (vs.insert k v).nonBlank? k = some v := by
  rw [nonBlank?, get?_insert, if_pos rfl]
  exact Option.filter_some_pos (by rw [h]; rfl)

theorem nonBlank?_insert_of_ne (vs : Values) {k j : Text} (h : j ≠ k) (v : Value) :
    (vs.insert k v).nonBlank? j = vs.nonBlank? j := by
  rw [nonBlank?, get?_insert, if_neg h, nonBlank?]

theorem nodup_keys (vs : Values) : (vs.entries.map Prod.fst).Nodup := by
  refine List.pairwise_map.mpr (List.Pairwise.imp (fun {a b} hlt heq => ?_) vs.ascending)
  rw [heq] at hlt
  exact List.lt_irrefl b.1 hlt

theorem mem_entries_iff {vs : Values} {k : Text} {v : Value} :
    (k, v) ∈ vs.entries ↔ vs.get? k = some v := by
  rw [get?, Option.map_eq_some_iff]
  simp only [find?_eq_some_of_nodup vs.nodup_keys]
  constructor
  · exact fun h => ⟨(k, v), ⟨h, rfl⟩, rfl⟩
  · rintro ⟨⟨j, w⟩, ⟨h, rfl⟩, rfl⟩
    exact h

/-- **Maps with the same values are equal.** -/
theorem ext_get? {vs ws : Values} (h : ∀ k, vs.get? k = ws.get? k) : vs = ws := by
  have hperm : vs.entries.Perm ws.entries := by
    refine (List.perm_ext_iff_of_nodup vs.nodup_keys.of_map ws.nodup_keys.of_map).mpr ?_
    rintro ⟨k, v⟩
    rw [mem_entries_iff, mem_entries_iff, h]
  have hentries : vs.entries = ws.entries :=
    hperm.eq_of_pairwise (fun _ _ _ _ hab hba => absurd hba (List.lt_asymm hab)) vs.ascending
      ws.ascending
  obtain ⟨es, hes⟩ := vs
  obtain ⟨fs, hfs⟩ := ws
  obtain rfl : es = fs := hentries
  rfl

theorem get?_foldl_insert (es : List (Text × Value)) (vs : Values) (k : Text) :
    (es.foldl (fun vs e => vs.insert e.1 e.2) vs).get? k =
      (es.reverse.lookup k).or (vs.get? k) := by
  induction es generalizing vs with
  | nil => rfl
  | cons e es ih =>
    rw [List.foldl_cons, ih, get?_insert, List.reverse_cons, List.lookup_append, Option.or_assoc]
    congr 1
    split
    · rw [‹k = e.1›, List.lookup_cons_self, Option.some_or]
    · rw [List.lookup_cons, beq_false_of_ne ‹k ≠ e.1›, List.lookup_nil, Option.none_or]

theorem get?_ofList (es : List (Text × Value)) (k : Text) :
    (ofList es).get? k = es.reverse.lookup k := by
  rw [ofList, get?_foldl_insert]
  exact Option.or_none

end PromptTemplate.Values
