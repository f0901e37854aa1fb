import Mathlib.Data.List.Induction
import PromptTemplate.Json.Basic
import PromptTemplate.Proofs.Text.Keys

/-!
# Proofs/Json/Members — what the members of an object become of the written ones

    a: 1, b: 2, a: 3   written
    a: 3, b: 2         kept

`keys_ofWritten` and `lookup_of_mem_ofWritten` say together what `ofWritten` keeps: **each key at
its first place** and **each with its last value**. Where no key is written twice, nothing changes.
-/

namespace PromptTemplate.Json

/-! ## One member more -/

theorem put_of_not_mem {ms : Members} {k : Text} (h : k ∉ ms.map Prod.fst) (v : Json) :
    put ms k v = ms ++ [(k, v)] := by
  induction ms with
  | nil => rfl
  | cons m ms ih =>
    rw [List.map_cons, List.mem_cons, not_or] at h
    rw [put, if_neg (Ne.symm h.1), ih h.2, List.cons_append]

theorem keys_put (ms : Members) (k : Text) (v : Json) :
    (put ms k v).map Prod.fst = putKey (ms.map Prod.fst) k := by
  induction ms with
  | nil => rfl
  | cons m ms ih =>
    rw [put, List.map_cons, putKey_cons]
    split
    · rw [List.map_cons, ‹m.1 = k›]
    · rw [List.map_cons, ih]

theorem mem_put {ms : Members} {k : Text} {v : Json} {m : Text × Json}
    (hnodup : (ms.map Prod.fst).Nodup) (h : m ∈ put ms k v) :
    m = (k, v) ∨ m ∈ ms ∧ m.1 ≠ k := by
  induction ms with
  | nil => exact .inl (List.mem_singleton.mp h)
  | cons n ms ih =>
    rw [List.map_cons, List.nodup_cons] at hnodup
    rw [put] at h
    split at h
    · obtain rfl | hmem := List.mem_cons.mp h
      · exact .inl rfl
      · refine .inr ⟨List.mem_cons_of_mem _ hmem, fun hk => hnodup.1 ?_⟩
        rw [‹n.1 = k›, ← hk]
        exact List.mem_map_of_mem hmem
    · obtain rfl | hmem := List.mem_cons.mp h
      · exact .inr ⟨List.mem_cons_self, ‹¬_›⟩
      · obtain rfl | ⟨hold, hne⟩ := ih hnodup.2 hmem
        · exact .inl rfl
        · exact .inr ⟨List.mem_cons_of_mem _ hold, hne⟩

theorem member?_put (ms : Members) (k j : Text) (v : Json) :
    member? (put ms k v) j = if j = k then some v else member? ms j := by
  rw [member?, member?]
  induction ms with
  | nil => by_cases hj : j = k <;> simp [put, hj, eq_comm (a := k)]
  | cons m ms ih =>
    rw [put]
    split
    · rename_i hm
      by_cases hj : j = k <;> simp [hj, hm, eq_comm (a := k)]
    · rename_i hm
      by_cases hj : m.1 = j
      · have hjk : j ≠ k := hj ▸ hm
        simp [hj, hjk]
      · rw [List.find?_cons_of_neg (by simpa using hj), ih,
          List.find?_cons_of_neg (by simpa using hj)]

/-! ## All members -/

theorem ofWritten_concat (ms : Members) (m : Text × Json) :
    ofWritten (ms ++ [m]) = put (ofWritten ms) m.1 m.2 := by
  rw [ofWritten, List.foldl_append, List.foldl_cons, List.foldl_nil, ofWritten]

/-- **Each key keeps its first place.** -/
theorem keys_ofWritten (ms : Members) :
    (ofWritten ms).map Prod.fst = (ms.map Prod.fst).eraseDups :=
  map_foldl_of_putKey fun acc m => keys_put acc m.1 m.2

theorem nodup_keys_ofWritten (ms : Members) : ((ofWritten ms).map Prod.fst).Nodup := by
  rw [keys_ofWritten]
  exact nodup_eraseDups _

/-- **Each key has its last value.** -/
theorem lookup_of_mem_ofWritten {ms : Members} {m : Text × Json} (h : m ∈ ofWritten ms) :
    ms.reverse.lookup m.1 = some m.2 := by
  induction ms using List.reverseRecOn with
  | nil => exact absurd h List.not_mem_nil
  | append_singleton ms n ih =>
    rw [ofWritten_concat] at h
    rw [List.reverse_append, List.reverse_singleton, List.singleton_append, List.lookup_cons]
    obtain rfl | ⟨hold, hne⟩ := mem_put (nodup_keys_ofWritten ms) h
    · rw [beq_self_eq_true]
    · rw [beq_eq_false_iff_ne.mpr hne]
      exact ih hold

/-- Where no key is written twice, the members are the written ones. -/
theorem ofWritten_of_nodup {ms : Members} (h : (ms.map Prod.fst).Nodup) : ofWritten ms = ms := by
  induction ms using List.reverseRecOn with
  | nil => rfl
  | append_singleton ms m ih =>
    rw [List.map_append, List.nodup_append] at h
    rw [ofWritten_concat, ih h.1, put_of_not_mem]
    exact fun hmem => h.2.2 m.1 hmem m.1 List.mem_cons_self rfl

end PromptTemplate.Json
