import Mathlib.Data.List.Basic
import PromptTemplate.Proofs.Template.Numbering
import PromptTemplate.Proofs.Template.Resolution

/-!
# Proofs/Template/Form — the order of a form

    {{c}} {{#b}} {{@a}} {{b}} {{@d}}     a, d, then c, b

A form lists the defined inputs by their first definitions, then the others by their first
occurrences, comments counted. Said of the occurrences this is a relation on identifiers
(`Before`), and the inputs of a registry stand in that order (`Numbered.pairwise_inputs`). As it
holds one way at most, **lists of the same identifiers in that order are equal**
(`eq_of_pairwise_before`).
-/

namespace PromptTemplate

open Placeholder

/-! ## The order, said of the occurrences -/

/-- Whether an identifier stands before another in a form, if both are inputs. -/
def Before (os : List (Option Node)) (k j : Text) : Prop :=
  match firstDefinition? os k, firstDefinition? os j with
  | some i, some i' => i < i'
  | some _, none => True
  | none, some _ => False
  | none, none => ∃ i i', firstOccurrence? os k = some i ∧ firstOccurrence? os j = some i' ∧ i < i'

theorem Before.asymm {os : List (Option Node)} {k j : Text} (h : Before os k j) :
    ¬ Before os j k := by
  rw [Before] at h ⊢
  cases hk : firstDefinition? os k with
  | some i =>
    cases hj : firstDefinition? os j with
    | some i' =>
      simp only [hk, hj] at h ⊢
      exact Nat.lt_asymm h
    | none => exact not_false
  | none =>
    cases hj : firstDefinition? os j with
    | some i' => simp only [hk, hj] at h
    | none =>
      simp only [hk, hj] at h ⊢
      obtain ⟨i, i', hi, hi', hlt⟩ := h
      rintro ⟨p, p', hp, hp', hlt'⟩
      obtain rfl : i' = p := Option.some.inj (hi'.symm.trans hp)
      obtain rfl : i = p' := Option.some.inj (hi.symm.trans hp')
      exact Nat.lt_asymm hlt hlt'

/-- The order depends on first definitions, and on first occurrences of what is not defined. -/
theorem Before.congr {os os' : List (Option Node)} {k j : Text} (h : Before os k j)
    (hk : firstDefinition? os' k = firstDefinition? os k)
    (hj : firstDefinition? os' j = firstDefinition? os j)
    (hk' : firstDefinition? os k = none → firstOccurrence? os' k = firstOccurrence? os k)
    (hj' : firstDefinition? os j = none → firstOccurrence? os' j = firstOccurrence? os j) :
    Before os' k j := by
  rw [Before] at h ⊢
  rw [hk, hj]
  cases hi : firstDefinition? os k <;> cases hi' : firstDefinition? os j <;>
    simp only [hi, hi'] at h ⊢
  case none.none => rwa [hk' hi, hj' hi']
  case some.some => exact h

/-- **Lists of the same identifiers in this order are equal.** -/
theorem eq_of_pairwise_before {os : List (Option Node)} {ks js : List Text} (h : ks.Perm js)
    (hks : ks.Pairwise (Before os)) (hjs : js.Pairwise (Before os)) : ks = js :=
  h.eq_of_pairwise (fun _ _ _ _ hkj hjk => absurd hjk hkj.asymm) hks hjs

/-- What stands in this order stands nowhere twice. -/
theorem nodup_of_pairwise_before {os : List (Option Node)} {ks : List Text}
    (h : ks.Pairwise (Before os)) : ks.Nodup := by
  refine h.imp fun {k j} hkj heq => ?_
  rw [heq] at hkj
  exact hkj.asymm hkj

/-- Identifiers that stand before all others of a list are what it begins with. -/
theorem isPrefix_of_pairwise_before {os : List (Option Node)} {ks js : List Text}
    (hks : ks.Pairwise (Before os)) (hjs : js.Pairwise (Before os)) (hsub : ks ⊆ js)
    (hothers : ∀ k ∈ ks, ∀ j ∈ js, j ∉ ks → Before os k j) : ks <+: js := by
  have hpairwise : (ks ++ js.filter (· ∉ ks)).Pairwise (Before os) := by
    refine List.pairwise_append.mpr ⟨hks, hjs.filter _, fun k hk j hj => ?_⟩
    obtain ⟨hmem, hnew⟩ := List.mem_filter.mp hj
    exact hothers k hk j hmem (of_decide_eq_true hnew)
  have hperm : (ks ++ js.filter (· ∉ ks)).Perm js := by
    refine (List.perm_ext_iff_of_nodup (nodup_of_pairwise_before hpairwise)
      (nodup_of_pairwise_before hjs)).mpr fun k => ?_
    rw [List.mem_append, List.mem_filter, decide_eq_true_eq]
    by_cases hk : k ∈ ks
    · exact iff_of_true (.inl hk) (hsub hk)
    · simp [hk]
  exact ⟨_, eq_of_pairwise_before hperm hpairwise hjs⟩

/-! ## The inputs of a registry -/

namespace Entry

/-- A definition precedes another by its place; places that are equal leave it to the occurrence. -/
theorem precedes_iff {a b : Entry} : a.precedes b = true ↔
    match a.order, b.order with
    | some i, some i' => i < i' ∨ i = i' ∧ a.firstSeen ≤ b.firstSeen
    | some _, none => True
    | none, some _ => False
    | none, none => a.firstSeen ≤ b.firstSeen := by
  rw [precedes]
  cases a.order <;> cases b.order <;> simp

theorem precedes_total (a b : Entry) : (a.precedes b || b.precedes a) = true := by
  rw [Bool.or_eq_true, precedes_iff, precedes_iff]
  cases a.order <;> cases b.order <;> simp only [or_true, true_or] <;> omega

theorem precedes_trans (a b c : Entry) (hab : a.precedes b = true) (hbc : b.precedes c = true) :
    a.precedes c = true := by
  rw [precedes_iff] at hab hbc ⊢
  cases ha : a.order <;> cases hb : b.order <;> cases hc : c.order <;>
    simp only [ha, hb, hc] at hab hbc ⊢ <;> omega

end Entry

namespace Registry

/-- The entry that comes first in the order of a form is the one whose identifier does. -/
theorem Numbered.before_of_precedes {r : Registry} {os : List (Option Node)} (h : Numbered r os)
    {a b : Entry} (ha : a ∈ r.entries) (hb : b ∈ r.entries) (hne : a.identifier ≠ b.identifier)
    (hab : a.precedes b = true) : Before os a.identifier b.identifier := by
  rw [Entry.precedes_iff, h.order ha, h.order hb] at hab
  rw [Before]
  cases hi : firstDefinition? os a.identifier with
  | none =>
    cases hi' : firstDefinition? os b.identifier with
    | some i' => simp [hi, hi'] at hab
    | none =>
      simp only [hi, hi', Option.map_none] at hab
      refine ⟨_, _, h.firstSeen ha, h.firstSeen hb, Nat.lt_of_le_of_ne hab fun heq => hne ?_⟩
      obtain ⟨n, hna, hnb⟩ := exists_of_firstIndex?_eq (h.firstSeen ha) (heq ▸ h.firstSeen hb)
      exact (of_decide_eq_true hna).symm.trans (of_decide_eq_true hnb)
  | some i =>
    cases hi' : firstDefinition? os b.identifier with
    | none => exact trivial
    | some i' =>
      simp only [hi, hi', Option.map_some] at hab
      -- were the second definition no later, it would have no more definitions before it
      refine Nat.lt_of_not_le fun hle => ?_
      obtain hlt | heq := Nat.lt_or_eq_of_le hle
      · have hcard := card_definedBefore_lt hi' hlt
        omega
      · obtain ⟨n, hna, hnb⟩ := exists_of_firstIndex?_eq hi (heq ▸ hi')
        exact hne ((of_decide_eq_true hna).1.symm.trans (of_decide_eq_true hnb).1)

/-- **The inputs of a registry stand in the order of a form.** -/
theorem Numbered.pairwise_inputs {r : Registry} {os : List (Option Node)} (h : Numbered r os) :
    (r.inputs.map Entry.identifier).Pairwise (Before os) := by
  have hdistinct := List.pairwise_map.mp (distinct_inputs h.reflects.distinct)
  have hprecedes : r.inputs.Pairwise fun a b => a.precedes b = true :=
    List.pairwise_mergeSort Entry.precedes_trans Entry.precedes_total _
  refine List.pairwise_map.mpr ((hdistinct.and hprecedes).imp_of_mem ?_)
  rintro a b ha hb ⟨hne, hab⟩
  exact h.before_of_precedes (mem_inputs.mp ha).1 (mem_inputs.mp hb).1 hne hab

/-- The input with an identifier. -/
def input? (r : Registry) (k : Text) : Option Entry := r.inputs.find? (·.identifier = k)

theorem input?_eq_some_iff_mem {r : Registry} (h : Distinct r.entries) {k : Text} {e : Entry} :
    r.input? k = some e ↔ e ∈ r.inputs ∧ e.identifier = k :=
  find?_eq_some_of_distinct (distinct_inputs h)

theorem identifier_of_input? {r : Registry} {k : Text} {e : Entry} (he : r.input? k = some e) :
    e.identifier = k := by
  simpa using List.find?_some he

theorem input?_eq_some {r : Registry} (h : Distinct r.entries) {k : Text} {e : Entry} :
    r.input? k = some e ↔ r.find? k = some e ∧ e.isInput = true := by
  rw [input?, find?_inputs h, Option.filter_eq_some_iff]

/-- Entries that are in order already are listed as they are. -/
theorem inputs_of_pairwise {r : Registry}
    (h : (r.entries.filter (·.isInput)).Pairwise fun a b => a.precedes b = true) :
    r.inputs = r.entries.filter (·.isInput) :=
  List.mergeSort_of_pairwise h

theorem modifier_ne_comment_iff {m : Modifier} :
    m ≠ .comment ↔ m = .definition ∨ m = .reference := by
  cases m <;> simp

/-- An entry is an input if one of its placeholders is no comment. -/
theorem Reflects.isInput_iff {r : Registry} {ns : List Node} (h : Reflects r ns) {e : Entry}
    (he : e ∈ r.entries) :
    e.isInput = true ↔ ∃ n ∈ ns, n.identifier = e.identifier ∧ n.modifier ≠ .comment := by
  rw [Entry.isInput, (h.records he).definition, (h.records he).referenced, Bool.or_eq_true]
  simp only [ofIdentifier, List.any_filter, List.any_eq_true, Bool.and_eq_true, decide_eq_true_eq,
    modifier_ne_comment_iff, and_or_left, exists_or]

/-- The inputs are the identifiers of placeholders that are no comments. -/
theorem Reflects.mem_inputs_iff {r : Registry} {ns : List Node} (h : Reflects r ns) {k : Text} :
    k ∈ r.inputs.map Entry.identifier ↔
      ∃ n ∈ ns, n.identifier = k ∧ n.modifier ≠ .comment := by
  rw [List.mem_map]
  constructor
  · rintro ⟨e, he, rfl⟩
    obtain ⟨hmem, hinput⟩ := mem_inputs.mp he
    exact (h.isInput_iff hmem).mp hinput
  · rintro ⟨n, hn, rfl, hm⟩
    obtain ⟨e, he, hid⟩ := List.mem_map.mp (h.mem.mpr (List.mem_map_of_mem hn))
    exact ⟨e, mem_inputs.mpr ⟨he, (h.isInput_iff he).mpr ⟨n, hn, hid.symm, hm⟩⟩, hid⟩

end Registry

end PromptTemplate
