import PromptTemplate.Proofs.Template.Form

/-!
# Proofs/Template/Arrangement — a form can be laid out in one way only

    {{c}} {{# b}} {{@d}} {{b}} {{@a}}     d, a, then c, b

A list of entries is `Arranged` when it has each input once, the defined ones by their first
definitions, and behind them the others as they were first seen. This is the order of a form
(`Numbered.pairwise_before_iff`), and two lists in that order are one. So **the inputs are the only
list that is arranged, in whichever order the entries are kept** (`inputs_of_perm`).
-/

namespace PromptTemplate

open Placeholder

namespace Registry

variable {r : Registry} {os : List (Option Node)}

/-! ## Entries in another order -/

theorem Reflects.of_perm {ns : List Node} (h : Reflects r ns) {es : List Entry}
    (hperm : es.Perm r.entries) : Reflects ⟨es⟩ ns where
  distinct := ((hperm.map Entry.identifier).nodup_iff).mpr h.distinct
  mem := ((hperm.map Entry.identifier).mem_iff).trans h.mem
  records he := h.records (hperm.mem_iff.mp he)

/-- What a registry numbers does not depend on the order in which it keeps its entries. -/
theorem Numbered.of_perm (h : Numbered r os) {es : List Entry} (hperm : es.Perm r.entries) :
    Numbered ⟨es⟩ os where
  reflects := h.reflects.of_perm hperm
  firstSeen he := h.firstSeen (hperm.mem_iff.mp he)
  order he := h.order (hperm.mem_iff.mp he)

/-! ## The order of a form, said of the entries -/

/-- Whether the first definition of an identifier comes before that of another. -/
def DefinedFirst (os : List (Option Node)) (k j : Text) : Prop :=
  ∃ i i', firstDefinition? os k = some i ∧ firstDefinition? os j = some i' ∧ i < i'

/-- Of two entries the defined one is first; two that are defined follow their first definitions,
two that are not the occurrences where they were first seen. -/
theorem Numbered.before_iff (h : Numbered r os) {a b : Entry} (ha : a ∈ r.entries)
    (hb : b ∈ r.entries) : Before os a.identifier b.identifier ↔
      match a.definition, b.definition with
      | true, true => DefinedFirst os a.identifier b.identifier
      | true, false => True
      | false, true => False
      | false, false => a.firstSeen < b.firstSeen := by
  rw [Before, DefinedFirst, Bool.eq_iff_iff.mpr (h.reflects.definition_iff ha),
    Bool.eq_iff_iff.mpr (h.reflects.definition_iff hb)]
  cases firstDefinition? os a.identifier <;> cases firstDefinition? os b.identifier <;>
    simp [h.firstSeen ha, h.firstSeen hb]

/-- Entries in this order that are the same ones are listed in the same way. -/
theorem eq_of_pairwise_identifiers {form form' : List Entry} (hperm : form.Perm form')
    (h : form.Pairwise fun a b => Before os a.identifier b.identifier)
    (h' : form'.Pairwise fun a b => Before os a.identifier b.identifier) : form = form' :=
  hperm.eq_of_pairwise (fun _ _ _ _ hab hba => absurd hba hab.asymm) h h'

/-- **Entries stand in the order of a form just when the defined ones come first**, by their first
definitions, and the others follow as they were first seen. -/
theorem Numbered.pairwise_before_iff (h : Numbered r os) {form : List Entry}
    (hform : ∀ e ∈ form, e ∈ r.entries) :
    form.Pairwise (fun a b => Before os a.identifier b.identifier) ↔
      form = form.filter (·.definition) ++ form.filter (!·.definition) ∧
      ((form.filter (·.definition)).Pairwise fun a b =>
        DefinedFirst os a.identifier b.identifier) ∧
      (form.filter (!·.definition)).Pairwise fun a b => a.firstSeen < b.firstSeen := by
  have hdefined : ∀ {a b}, a ∈ form.filter (·.definition) → b ∈ form.filter (·.definition) →
      (Before os a.identifier b.identifier ↔ DefinedFirst os a.identifier b.identifier) := by
    intro a b ha hb
    rw [List.mem_filter] at ha hb
    rw [h.before_iff (hform a ha.1) (hform b hb.1), ha.2, hb.2]
  have hothers : ∀ {a b}, a ∈ form.filter (!·.definition) → b ∈ form.filter (!·.definition) →
      (Before os a.identifier b.identifier ↔ a.firstSeen < b.firstSeen) := by
    intro a b ha hb
    rw [List.mem_filter, Bool.not_eq_true'] at ha hb
    rw [h.before_iff (hform a ha.1) (hform b hb.1), ha.2, hb.2]
  have hacross : ∀ a ∈ form.filter (·.definition), ∀ b ∈ form.filter (!·.definition),
      Before os a.identifier b.identifier := by
    intro a ha b hb
    rw [List.mem_filter] at ha
    rw [List.mem_filter, Bool.not_eq_true'] at hb
    rw [h.before_iff (hform a ha.1) (hform b hb.1), ha.2, hb.2]
    trivial
  -- on both halves and across them the two orders agree, so only the place of the halves is left
  rw [← List.Pairwise.iff_of_mem hdefined, ← List.Pairwise.iff_of_mem hothers]
  constructor
  · intro hbefore
    have hfirst := hbefore.filter (·.definition)
    have hrest := hbefore.filter (!·.definition)
    refine ⟨?_, hfirst, hrest⟩
    exact eq_of_pairwise_identifiers (List.filter_append_perm _ form).symm hbefore
      (List.pairwise_append.mpr ⟨hfirst, hrest, hacross⟩)
  · rintro ⟨heq, hfirst, hrest⟩
    rw [heq]
    exact List.pairwise_append.mpr ⟨hfirst, hrest, hacross⟩

/-! ## Forms -/

/-- A form over the entries of a registry, `os` being what each occurrence of the template is read
as. -/
structure Arranged (r : Registry) (os : List (Option Node)) (form : List Entry) : Prop where
  /-- Definitions and references are asked for; what is a comment alone is not. -/
  mem_iff : ∀ e, e ∈ form ↔ e ∈ r.entries ∧ (e.definition = true ∨ e.referenced = true)
  nodup : (form.map Entry.identifier).Nodup
  /-- The defined inputs come before the others. -/
  eq_append : form = form.filter (·.definition) ++ form.filter (!·.definition)
  defined : (form.filter (·.definition)).Pairwise fun a b =>
    DefinedFirst os a.identifier b.identifier
  undefined : (form.filter (!·.definition)).Pairwise fun a b => a.firstSeen < b.firstSeen

theorem mem_inputs_iff_or {e : Entry} :
    e ∈ r.inputs ↔ e ∈ r.entries ∧ (e.definition = true ∨ e.referenced = true) := by
  rw [mem_inputs, Entry.isInput, Bool.or_eq_true]

/-- **The inputs are arranged, and nothing else is.** -/
theorem Numbered.arranged_iff (h : Numbered r os) {form : List Entry} :
    Arranged r os form ↔ form = r.inputs := by
  have hinputs : ∀ e ∈ r.inputs, e ∈ r.entries := fun e he => (mem_inputs.mp he).1
  have hdistinct := distinct_inputs h.reflects.distinct
  have hbefore := List.pairwise_map.mp h.pairwise_inputs
  constructor
  · intro hform
    have hentries : ∀ e ∈ form, e ∈ r.entries := fun e he => ((hform.mem_iff e).mp he).1
    have hperm : form.Perm r.inputs :=
      (List.perm_ext_iff_of_nodup hform.nodup.of_map hdistinct.of_map).mpr fun e =>
        (hform.mem_iff e).trans mem_inputs_iff_or.symm
    refine eq_of_pairwise_identifiers hperm ?_ hbefore
    exact (h.pairwise_before_iff hentries).mpr ⟨hform.eq_append, hform.defined, hform.undefined⟩
  · rintro rfl
    obtain ⟨heq, hfirst, hrest⟩ := (h.pairwise_before_iff hinputs).mp hbefore
    exact ⟨fun e => mem_inputs_iff_or, hdistinct, heq, hfirst, hrest⟩

/-- Registries with the same entries are arranged in the same way. -/
theorem Arranged.of_perm {es form : List Entry} (hperm : es.Perm r.entries)
    (h : Arranged ⟨es⟩ os form) : Arranged r os form where
  mem_iff e := by
    rw [h.mem_iff, hperm.mem_iff]
  nodup := h.nodup
  eq_append := h.eq_append
  defined := h.defined
  undefined := h.undefined

/-- **However the entries of a template are kept, the form is the same**, and it is the one that is
arranged. -/
theorem inputs_of_perm {s : Text} {es : List Entry} (hperm : es.Perm (ofTemplate s).entries) :
    (Registry.mk es).inputs = (ofTemplate s).inputs ∧
      ∀ form, Arranged (ofTemplate s) (Template.readings s) form ↔
        form = (ofTemplate s).inputs := by
  have h := numbered_ofTemplate s
  refine ⟨?_, fun form => h.arranged_iff⟩
  have harranged := (h.of_perm hperm).arranged_iff.mpr rfl
  exact h.arranged_iff.mp (harranged.of_perm hperm)

/-- A comment that is seen before a reference of its identifier, and two definitions, kept from the
last one to the first. -/
theorem inputs_of_perm_reverse :
    let s := Template.braced ['c'] ++ Template.braced ['#', 'b'] ++ Template.braced ['@', 'd'] ++
      Template.braced ['b'] ++ Template.braced ['@', 'a']
    (ofTemplate s).entries.reverse.Perm (ofTemplate s).entries ∧
      (Registry.mk (ofTemplate s).entries.reverse).inputs = (ofTemplate s).inputs ∧
      ∀ form, Arranged (ofTemplate s) (Template.readings s) form ↔
        form = (ofTemplate s).inputs := by
  intro s
  have hperm := List.reverse_perm (ofTemplate s).entries
  exact ⟨hperm, inputs_of_perm hperm⟩

end Registry

end PromptTemplate
