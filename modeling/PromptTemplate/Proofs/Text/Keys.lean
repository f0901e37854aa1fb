import Mathlib.Data.List.Induction
import Mathlib.Data.List.Nodup
import PromptTemplate.Text.Basic

/-!
# Proofs/Text/Keys — keys in the order in which they are first written

    x, y, x, z      written
    x, y, z         kept

Members of an object, parameters of an entry and entries of a registry are lists with a key for each
element. One element more takes the place of the one with its key, or goes to the end, and what that
does to the keys is the same for all of them (`putKey`). **Put one after the other, the keys are the
written ones without repetitions** (`map_foldl_of_putKey`).
-/

namespace PromptTemplate

/-! ## One key more -/

/-- A key that is known keeps its place, another one goes to the end. -/
def putKey (ks : List Text) (k : Text) : List Text := if k ∈ ks then ks else ks ++ [k]

theorem putKey_cons (j : Text) (ks : List Text) (k : Text) :
    putKey (j :: ks) k = if j = k then j :: ks else j :: putKey ks k := by
  simp only [putKey, List.mem_cons]
  by_cases hj : j = k
  · rw [if_pos (.inl hj.symm), if_pos hj]
  · rw [if_neg hj]
    by_cases hk : k ∈ ks
    · rw [if_pos (.inr hk), if_pos hk]
    · rw [if_neg (not_or.mpr ⟨Ne.symm hj, hk⟩), if_neg hk, List.cons_append]

theorem mem_putKey {ks : List Text} {k j : Text} : j ∈ putKey ks k ↔ j ∈ ks ∨ j = k := by
  rw [putKey]
  split
  · exact ⟨.inl, fun h => h.elim id (fun hj => hj ▸ ‹k ∈ ks›)⟩
  · rw [List.mem_append, List.mem_singleton]

theorem nodup_putKey {ks : List Text} (h : ks.Nodup) (k : Text) : (putKey ks k).Nodup := by
  rw [putKey]
  split
  · exact h
  · rw [← List.concat_eq_append]
    exact List.Nodup.concat ‹k ∉ ks› h

/-! ## All keys -/

theorem eraseDups_concat (ks : List Text) (k : Text) :
    (ks ++ [k]).eraseDups = putKey ks.eraseDups k := by
  rw [putKey, List.eraseDups_append]
  simp only [List.mem_eraseDups]
  split <;> simp [List.removeAll, *, List.eraseDups_cons]

theorem nodup_eraseDups (ks : List Text) : ks.eraseDups.Nodup := by
  induction ks using List.reverseRecOn with
  | nil => exact List.nodup_nil
  | append_singleton ks k ih =>
    rw [eraseDups_concat]
    exact nodup_putKey ih k

section Keyed

variable {α : Type} {key : α → Text} {as : List α}

/-- **Each key is at its first place** in a list that puts one element after the other. -/
theorem map_foldl_of_putKey {put : List α → α → List α}
    (hput : ∀ as a, (put as a).map key = putKey (as.map key) (key a)) :
    (as.foldl put []).map key = (as.map key).eraseDups := by
  induction as using List.reverseRecOn with
  | nil => rfl
  | append_singleton as a ih =>
    rw [List.foldl_append, List.foldl_cons, List.foldl_nil, hput, ih, List.map_append,
      List.map_singleton, eraseDups_concat]

/-- Where no key stands twice, an element is found by its key. -/
theorem find?_eq_some_of_nodup (h : (as.map key).Nodup) {k : Text} {a : α} :
    as.find? (key · = k) = some a ↔ a ∈ as ∧ key a = k := by
  refine ⟨fun hf => ⟨List.mem_of_find?_eq_some hf, by simpa using List.find?_some hf⟩, ?_⟩
  rintro ⟨ha, rfl⟩
  induction as with
  | nil => exact absurd ha List.not_mem_nil
  | cons b as ih =>
    rw [List.map_cons, List.nodup_cons] at h
    obtain rfl | hmem := List.mem_cons.mp ha
    · simp
    · have hne : key b ≠ key a := fun heq => h.1 (heq ▸ List.mem_map_of_mem hmem)
      rw [List.find?_cons_of_neg (by simpa using hne), ih h.2 hmem]

/-- So is its value. -/
theorem lookup_eq_some_of_nodup {β : Type} {es : List (Text × β)} (h : (es.map Prod.fst).Nodup)
    {k : Text} {v : β} : es.lookup k = some v ↔ (k, v) ∈ es := by
  rw [List.lookup_eq_some_iff]
  constructor
  · rintro ⟨l, r, rfl, -⟩
    exact List.mem_append_right l List.mem_cons_self
  · intro hmem
    obtain ⟨l, r, rfl⟩ := List.append_of_mem hmem
    rw [List.map_append, List.map_cons, List.nodup_append] at h
    refine ⟨l, r, rfl, fun e he => ?_⟩
    have hne : e.1 ≠ k := h.2.2 e.1 (List.mem_map_of_mem he) k List.mem_cons_self
    simpa using Ne.symm hne

end Keyed

end PromptTemplate
