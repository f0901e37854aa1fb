import Mathlib.Data.List.Forall2
import PromptTemplate.Json.Shape
import PromptTemplate.Proofs.Json.Reading

/-!
# Proofs/Json/Shape — whole texts of a known shape are read as the grammar says

A text whose top level has to be an object is read by taking up its members. What comes of it is
what the steps of the visitor come to, one after the other, over the members **as they are
written**, repeated keys included (`whole_readMap_eq_ok_iff`).
-/

namespace PromptTemplate.Json

section

variable {α β : Type} {P : Text → α → Prop} {Q : Text → β → Prop} {R : α → β → Prop} {s : Text}
  {ys : List β}

/-- Items of one kind that are items of another kind, one by one. -/
theorem separated_iff_of_forall (h : ∀ e y, Q e y ↔ ∃ x, P e x ∧ R x y) :
    Separated Q s ys ↔ ∃ xs, Separated P s xs ∧ List.Forall₂ R xs ys := by
  constructor
  · intro hs
    induction hs with
    | one ha hy hb =>
      obtain ⟨x, hx, hxy⟩ := (h _ _).mp hy
      exact ⟨[x], .one ha hx hb, .cons hxy .nil⟩
    | cons ha hy hb _ ih =>
      obtain ⟨x, hx, hxy⟩ := (h _ _).mp hy
      obtain ⟨xs, hxs, hys⟩ := ih
      exact ⟨x :: xs, .cons ha hx hb hxs, .cons hxy hys⟩
  · rintro ⟨xs, hs, hys⟩
    induction hs generalizing ys with
    | one ha hx hb =>
      obtain ⟨y, _, hxy, hnil, rfl⟩ := List.forall₂_cons_left_iff.mp hys
      obtain rfl := List.forall₂_nil_left_iff.mp hnil
      exact .one ha ((h _ _).mpr ⟨_, hx, hxy⟩) hb
    | cons ha hx hb _ ih =>
      obtain ⟨y, ys, hxy, hrest, rfl⟩ := List.forall₂_cons_left_iff.mp hys
      exact .cons ha ((h _ _).mpr ⟨_, hx, hxy⟩) hb (ih hrest)

theorem listed_iff_of_forall (h : ∀ e y, Q e y ↔ ∃ x, P e x ∧ R x y) :
    Listed Q s ys ↔ ∃ xs, Listed P s xs ∧ List.Forall₂ R xs ys := by
  constructor
  · rintro (hb | hs)
    · exact ⟨[], .empty hb, .nil⟩
    · obtain ⟨xs, hxs, hys⟩ := (separated_iff_of_forall h).mp hs
      exact ⟨xs, .items hxs, hys⟩
  · rintro ⟨xs, hb | hs, hys⟩
    · obtain rfl := List.forall₂_nil_left_iff.mp hys
      exact .empty hb
    · exact .items ((separated_iff_of_forall h).mpr ⟨xs, hs, hys⟩)

end

section

variable {σ : Type} {v : Visitor σ} {step : σ → Text × Json → Option σ} {start st : σ} {s r : Text}

theorem insideObject_eq_ok {read : Text → Except Fault (σ × Text)} :
    insideObject read s = .ok (st, r) ↔ ∃ u, read s = .ok (st, u) ∧ closeObject u = .ok r := by
  constructor
  · intro h
    rw [insideObject] at h
    split at h
    · exact absurd h (by simp)
    rename_i x u hread
    obtain ⟨t, hclose, ht⟩ := map_eq_ok h
    obtain ⟨rfl, rfl⟩ := Prod.mk.inj ht
    exact ⟨u, hread, hclose⟩
  · rintro ⟨u, hread, hclose⟩
    rw [insideObject, hread]
    simp only [hclose, Except.map]

theorem readMap_eq_ok : readMap v start s = .ok (st, r) ↔
    ∃ a t, Blank a ∧ s = a ++ '\x7b' :: t ∧
      insideObject (visitMembers v start true) t = .ok (st, r) := by
  obtain ⟨a, ha, hs⟩ := exists_blank s
  constructor
  · intro h
    rw [readMap] at h
    split at h
    · exact absurd h (by simp)
    rename_i c t hc
    split at h
    · rename_i hbrace
      exact ⟨a, t, ha, by rw [hs, hc, hbrace], h⟩
    · exact absurd h (by simp)
  · rintro ⟨b, t, hb, rfl, h⟩
    rw [readMap, blanks_append hb, blanks_cons (by decide)]
    exact h

/-- **A whole text is taken up just if it is an object whose members are.** -/
theorem whole_readMap_eq_ok_iff (hv : Visits v (Written (maxDepth - 1)) step) :
    whole (readMap v start) s = .ok st ↔
      ∃ ms, ObjectText s ms ∧ ms.foldlM step start = some st := by
  constructor
  · intro h
    rw [whole] at h
    split at h
    · exact absurd h (by simp)
    rename_i x r hread
    split at h
    · rename_i hr
      obtain rfl := Except.ok.inj h
      obtain ⟨a, t, ha, rfl, hinside⟩ := readMap_eq_ok.mp hread
      obtain ⟨u, hmembers, hclose⟩ := insideObject_eq_ok.mp hinside
      obtain ⟨w, r', ms, rfl, hw, hrun, hclose'⟩ := members_sound hv hmembers
      obtain rfl := Except.ok.inj (hclose'.symm.trans hclose)
      exact ⟨ms, ⟨a, w, r', ha, hw, blanks_eq_nil.mp hr, rfl⟩, hrun⟩
    · exact absurd h (by simp)
  · rintro ⟨ms, ⟨a, t, b, ha, ht, hb, rfl⟩, hrun⟩
    obtain ⟨u, hu, hclose⟩ := members_listed hv.takesUp ht hrun b
    have hread := readMap_eq_ok.mpr ⟨a, _, ha, rfl, insideObject_eq_ok.mpr ⟨u, hu, hclose⟩⟩
    rw [whole, hread]
    simp only [blanks_eq_nil.mpr hb]

end

end PromptTemplate.Json
