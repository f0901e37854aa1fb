import Mathlib.Algebra.Order.BigOperators.Group.List
import Mathlib.Algebra.Order.Group.Nat
import Mathlib.Data.List.Basic
import PromptTemplate.Content.Instructions
import PromptTemplate.Proofs.Json.Members

/-!
# Proofs/Content/PriorValues — which values of existing content the instructions show

    title    described         its value is not looked at
    hero     an image          its value is not looked at
    teaser   neither           its value, unless there is none to show

A field that has a description or a label is described by it, and a field that is no text is not
described at all. The value of any other field stands in its line. So existing content matters at
the names of **undescribed text-like fields, and at all of them** (`text_priorValues`). An array or
an object is shown as it is printed, so there the order of its members counts.
-/

namespace PromptTemplate

/-- Neither a description nor a label says anything of the field. -/
def ContentField.Undescribed (f : ContentField) : Prop :=
  (∀ t ∈ f.description, Text.isAllBlank t = true) ∧ ∀ t ∈ f.label, Text.isAllBlank t = true

namespace Instructions

/-- The value that a name has in existing content. -/
def prior? (existing : Option ExistingContent) (k : Text) : Option Json :=
  existing.bind (Json.member? · k)

/-- There is no value to show. -/
inductive Vacant : Option Json → Prop
  | absent : Vacant none
  | null : Vacant (some .null)
  | blank {t : Text} : Text.isAllBlank t = true → Vacant (some (.string t))

/-- Two existing contents have the same value for a name, or both have none to show. -/
def AgreeAt (k : Text) (c d : Option ExistingContent) : Prop :=
  prior? c k = prior? d k ∨ Vacant (prior? c k) ∧ Vacant (prior? d k)

/-! ## One field -/

theorem usable_eq_none_iff {o : Option Text} :
    usable o = none ↔ ∀ t ∈ o, Text.isAllBlank t = true := by
  simp [usable, Option.filter_eq_none_iff]

theorem describe_eq (existing : Option ExistingContent) (f : ContentField) :
    describe existing f =
      (((usable f.description).or (usable f.label)).or
        ((prior? existing f.name).bind priorText)).getD f.name := by
  rw [describe, prior?]
  cases usable f.description <;> cases usable f.label <;> rfl

theorem bind_priorText_of_vacant {v : Option Json} (h : Vacant v) : v.bind priorText = none := by
  cases h with
  | absent => rfl
  | null => rfl
  | @blank t ht =>
    have hnone : usable (some t) = none := by simpa [usable, Option.filter] using ht
    exact hnone

theorem AgreeAt.bind_priorText {k : Text} {c d : Option ExistingContent} (h : AgreeAt k c d) :
    (prior? c k).bind priorText = (prior? d k).bind priorText := by
  obtain heq | ⟨hc, hd⟩ := h
  · rw [heq]
  · rw [bind_priorText_of_vacant hc, bind_priorText_of_vacant hd]

/-- A field that is described by its description or its label does not ask for a value. -/
theorem describe_congr {f : ContentField} {c d : Option ExistingContent}
    (h : f.Undescribed → AgreeAt f.name c d) : describe c f = describe d f := by
  rw [describe_eq, describe_eq]
  cases hdescription : usable f.description with
  | some t => rfl
  | none =>
    cases hlabel : usable f.label with
    | some t => rfl
    | none =>
      rw [(h ⟨usable_eq_none_iff.mp hdescription, usable_eq_none_iff.mp hlabel⟩).bind_priorText]

/-! ## The value of one name -/

/-- What the line of an undescribed field shows of a value. -/
def shown (k : Text) (v : Json) : Text := (priorText v).getD k

theorem describe_put {f : ContentField} (h : f.Undescribed) (ms : ExistingContent) (v : Json) :
    describe (some (Json.put ms f.name v)) f = shown f.name v := by
  rw [describe_eq, usable_eq_none_iff.mpr h.1, usable_eq_none_iff.mpr h.2, prior?, Option.bind_some,
    Json.member?_put, if_pos rfl]
  rfl

theorem describe_put_of_not {k : Text} {f : ContentField} (h : ¬(f.Undescribed ∧ f.name = k))
    (ms : ExistingContent) (v w : Json) :
    describe (some (Json.put ms k v)) f = describe (some (Json.put ms k w)) f := by
  refine describe_congr fun hf => .inl ?_
  have hne : f.name ≠ k := fun hk => h ⟨hf, hk⟩
  simp only [prior?, Option.bind_some, Json.member?_put, if_neg hne]

/-- Parts that are no longer than others and make up the same text are the same. -/
theorem eq_of_flatMap_eq {α : Type} {f g : α → Text} {as : List α}
    (hle : ∀ a ∈ as, (f a).length ≤ (g a).length) (h : as.flatMap f = as.flatMap g) :
    ∀ a ∈ as, f a = g a := by
  induction as with
  | nil => exact List.forall_mem_nil _
  | cons a as ih =>
    obtain ⟨ha, has⟩ := List.forall_mem_cons.mp hle
    rw [List.flatMap_cons, List.flatMap_cons] at h
    have hrest : (as.flatMap f).length ≤ (as.flatMap g).length := by
      rw [List.length_flatMap, List.length_flatMap]
      exact List.sum_le_sum has
    have hlength := congrArg List.length h
    rw [List.length_append, List.length_append] at hlength
    obtain ⟨hfront, hback⟩ := List.append_inj h (by omega)
    exact List.forall_mem_cons.mpr ⟨hfront, ih has hback⟩

/-- **Values that are shown differently give different instructions.** -/
theorem shown_eq_of_text_eq {m : ContentModel} {f : ContentField} (hf : f ∈ m.textFields)
    (h : f.Undescribed) {ms : ExistingContent} {v w : Json}
    (heq : text (some m) (some (Json.put ms f.name v)) =
      text (some m) (some (Json.put ms f.name w))) : shown f.name v = shown f.name w := by
  -- all lines that show the value grow longer, or none of them does
  wlog hle : (shown f.name v).length ≤ (shown f.name w).length generalizing v w
  · exact (this heq.symm (Nat.le_of_not_le hle)).symm
  have hlines := List.append_cancel_right (List.append_cancel_right heq)
  have hline := eq_of_flatMap_eq (fun g _ => ?_) (List.append_cancel_left hlines) f hf
  · rw [describe_put h, describe_put h] at hline
    simpa [line] using hline
  · by_cases hg : g.Undescribed ∧ g.name = f.name
    · rw [← hg.2, describe_put hg.1, describe_put hg.1, hg.2]
      simpa [line] using hle
    · rw [describe_put_of_not hg ms v w]

/-- **Existing content matters at the names of the undescribed text-like fields, and only there.**
Models with the same text-like fields and contents that agree at these names give the same
instructions; where a value is shown differently at one of them, the instructions differ. -/
theorem text_priorValues :
    (∀ (m n : ContentModel) (c d : Option ExistingContent), m.textFields = n.textFields →
      (∀ f ∈ m.textFields, f.Undescribed → AgreeAt f.name c d) →
      text (some m) c = text (some n) d) ∧
    ∀ (m : ContentModel) (f : ContentField) (ms : ExistingContent) (v w : Json),
      f ∈ m.textFields → f.Undescribed → shown f.name v ≠ shown f.name w →
      text (some m) (some (Json.put ms f.name v)) ≠
        text (some m) (some (Json.put ms f.name w)) := by
  refine ⟨fun m n c d hfields hagree => ?_, fun m f ms v w hf h hne heq => ?_⟩
  · have hlines : m.textFields.flatMap (fun f => line f.name (describe c f)) =
        n.textFields.flatMap fun f => line f.name (describe d f) := by
      rw [← hfields]
      refine List.flatMap_congr fun f hf => ?_
      rw [describe_congr (hagree f hf)]
    rw [text, text, ofModel, ofModel, hlines]
  · exact hne (shown_eq_of_text_eq hf h heq)

def title : ContentField := ⟨['t'], some ['T'], none, .text⟩

def teaser : ContentField := ⟨['b'], some [' '], none, .longText⟩

/-- A labelled title, an image and a teaser that nothing describes. -/
def article : ContentModel := ⟨some ['A'], [title, ⟨['h'], none, none, .image⟩, teaser]⟩

/-- A model without the name and the image, and a content that has other values for all but the
teaser, give the same instructions; two values for the teaser give two. -/
theorem text_priorValues_article :
    article.textFields = (ContentModel.mk none [title, teaser]).textFields ∧
    text (some article) none =
      text (some ⟨none, [title, teaser]⟩) (some
        [(['t'], .string ['x']), (['h'], .bool true), (['b'], .string ['\n'])]) ∧
    teaser.Undescribed ∧ shown ['b'] (.array [.null]) ≠ shown ['b'] .null ∧
    text (some article) (some (Json.put [] ['b'] (.array [.null]))) ≠
      text (some article) (some (Json.put [] ['b'] .null)) := by
  have hfields : article.textFields = [title, teaser] := by decide
  have hteaser : teaser.Undescribed := ⟨by simp [teaser], by simpa [teaser] using by decide⟩
  have hshown : shown ['b'] (.array [.null]) ≠ shown ['b'] .null := by decide +kernel
  refine ⟨hfields, ?_, hteaser, hshown, ?_⟩
  · refine text_priorValues.1 _ _ _ _ hfields fun f hf hbare => ?_
    rw [hfields] at hf
    obtain rfl | rfl := by simpa using hf
    · exact absurd (hbare.2 ['T'] rfl) (by decide)
    · exact .inr ⟨.absent, .blank (by decide)⟩
  · exact text_priorValues.2 article teaser [] _ _ (by decide) hteaser hshown

end Instructions

end PromptTemplate
