import PromptTemplate.Proofs.Template.Registry
import PromptTemplate.Proofs.Values.Map

/-!
# Proofs/Template/Resolution — the value of an identifier once defaults are filled in

    supplied, unless blank   →   the last default written, unless blank   →   none

The defaults are filled in one entry after the other, in the order of a form. As no identifier has
two entries, neither the order nor the other entries matter for what one identifier gets
(`nonBlank?_resolve`), and **its default is the last one written for it, before or after the place
that asks for it** (`Reflects.nonBlank?_resolve`).
-/

namespace PromptTemplate

open Placeholder

/-! ## Merged parameters -/

namespace Entry

theorem find?_putParameter (qs : List Parameter) (p : Parameter) (key : Text) :
    Parameter.find? (putParameter qs p) key =
      if p.key = key then some p.value else Parameter.find? qs key := by
  simp only [Parameter.find?]
  induction qs with
  | nil => by_cases hp : p.key = key <;> simp [putParameter, hp]
  | cons q qs ih =>
    rw [putParameter]
    split
    · by_cases hp : p.key = key <;> simp [‹q.key = p.key›, hp]
    · by_cases hq : q.key = key
      · have hp : p.key ≠ key := fun h => ‹¬q.key = p.key› (hq.trans h.symm)
        rw [List.find?_cons_of_pos (by simpa using hq), if_neg hp,
          List.find?_cons_of_pos (by simpa using hq)]
      · rw [List.find?_cons_of_neg (by simpa using hq), ih,
          List.find?_cons_of_neg (by simpa using hq)]

/-- **Of the parameters with one key the last one counts.** -/
theorem find?_foldl_putParameter (ps qs : List Parameter) (key : Text) :
    Parameter.find? (ps.foldl putParameter qs) key =
      (Parameter.find? ps.reverse key).or (Parameter.find? qs key) := by
  induction ps generalizing qs with
  | nil => rfl
  | cons p ps ih =>
    rw [List.foldl_cons, ih, find?_putParameter, List.reverse_cons]
    simp only [Parameter.find?, List.find?_append, List.find?_singleton]
    cases ps.reverse.find? (·.key = key) with
    | some q => rfl
    | none => by_cases hp : p.key = key <;> simp [hp]

end Entry

/-- The last default written for an identifier. -/
def writtenDefault? (ns : List Node) (k : Text) : Option Text :=
  Parameter.find? (writtenParameters (ofIdentifier k ns)).reverse "default".toList

theorem Entry.Records.default?_eq {e : Entry} {k : Text} {ns : List Node}
    (h : e.Records (ofIdentifier k ns)) : e.default? = writtenDefault? ns k := by
  rw [Entry.default?, Entry.parameter?, h.parameters, Entry.find?_foldl_putParameter]
  exact Option.or_none

/-! ## Filling in -/

namespace Registry

/-- What an entry has to offer where nothing usable is supplied. -/
def fallback? (supplied : Values) (e : Entry) : Option Value :=
  match supplied.nonBlank? e.identifier with
  | some _ => none
  | none => (e.default?.filter (!Text.isAllBlank ·)).map .text

theorem get?_resolveEntry (supplied resolved : Values) (e : Entry) (k : Text) :
    (resolveEntry supplied resolved e).get? k =
      if k = e.identifier then (fallback? supplied e).or (resolved.get? k)
      else resolved.get? k := by
  rw [resolveEntry, fallback?]
  cases supplied.nonBlank? e.identifier with
  | some v => simp
  | none =>
    cases e.default? with
    | none => simp
    | some d =>
      by_cases hd : Text.isAllBlank d = true
      · simp [hd, Option.filter]
      · simp [hd, Option.filter, Values.get?_insert]

theorem get?_foldl_resolveEntry {es : List Entry} (h : Distinct es) (supplied resolved : Values)
    (k : Text) :
    (es.foldl (resolveEntry supplied) resolved).get? k =
      ((es.find? (·.identifier = k)).bind (fallback? supplied)).or (resolved.get? k) := by
  induction es generalizing resolved with
  | nil => rfl
  | cons e es ih =>
    rw [Distinct, List.map_cons, List.nodup_cons] at h
    rw [List.foldl_cons, ih h.2, get?_resolveEntry]
    by_cases hk : e.identifier = k
    · have hnone : es.find? (·.identifier = k) = none := by
        refine List.find?_eq_none.mpr fun a ha hak => h.1 ?_
        rw [hk, ← of_decide_eq_true hak]
        exact List.mem_map_of_mem ha
      rw [hnone, List.find?_cons_of_pos (by simpa using hk), if_pos hk.symm]
      rfl
    · rw [List.find?_cons_of_neg (by simpa using hk), if_neg (Ne.symm hk)]

theorem inputs_perm (r : Registry) : r.inputs.Perm (r.entries.filter (·.isInput)) :=
  List.mergeSort_perm _ _

theorem mem_inputs {r : Registry} {e : Entry} :
    e ∈ r.inputs ↔ e ∈ r.entries ∧ e.isInput = true := by
  rw [r.inputs_perm.mem_iff, List.mem_filter]

theorem distinct_inputs {r : Registry} (h : Distinct r.entries) : Distinct r.inputs :=
  ((r.inputs_perm.map Entry.identifier).nodup_iff).mpr (h.sublist (List.filter_sublist.map _))

theorem find?_inputs {r : Registry} (h : Distinct r.entries) (k : Text) :
    r.inputs.find? (·.identifier = k) = (r.find? k).filter (·.isInput) := by
  ext e
  rw [find?_eq_some_of_distinct (distinct_inputs h), mem_inputs, Option.filter_eq_some_iff, find?,
    find?_eq_some_of_distinct h]
  exact and_right_comm

/-- **The value of an identifier is the supplied one, else the default of its entry**, blank ones
passed over. -/
theorem nonBlank?_resolve {r : Registry} (h : Distinct r.entries) (supplied : Values) (k : Text) :
    (r.resolve supplied).nonBlank? k =
      (supplied.nonBlank? k).or
        ((((r.find? k).filter (·.isInput)).bind Entry.default?).filter
          (!Text.isAllBlank ·) |>.map .text) := by
  rw [Values.nonBlank?, resolve, get?_foldl_resolveEntry (distinct_inputs h), find?_inputs h]
  cases he : (r.find? k).filter (·.isInput) with
  | none => simp [Values.nonBlank?]
  | some e =>
    obtain rfl : e.identifier = k := by
      have hfind := (Option.filter_eq_some_iff.mp he).1
      exact ((find?_eq_some_of_distinct h).mp hfind).2
    rw [Option.bind_some, Option.bind_some, fallback?]
    cases hv : supplied.nonBlank? e.identifier with
    | some v => rwa [Option.none_or]
    | none =>
      cases hd : e.default?.filter (!Text.isAllBlank ·) with
      | none => rwa [Option.map_none, Option.none_or]
      | some d => simpa [Value.isBlank] using (Option.filter_eq_some_iff.mp hd).2

/-- The same for an identifier that is referenced, with the default said of the placeholders. -/
theorem Reflects.nonBlank?_resolve {r : Registry} {ns : List Node} (h : Reflects r ns) {n : Node}
    (hn : n ∈ ns) (href : n.modifier = .reference) (supplied : Values) :
    (r.resolve supplied).nonBlank? n.identifier =
      (supplied.nonBlank? n.identifier).or
        (((writtenDefault? ns n.identifier).filter (!Text.isAllBlank ·)).map .text) := by
  obtain ⟨e, he⟩ := h.exists_find? hn
  have hinput : e.isInput = true := by
    rw [Entry.isInput, (h.referenced_iff he).mpr ⟨n, hn, rfl, href⟩, Bool.or_true]
  rw [Registry.nonBlank?_resolve h.distinct, he, Option.filter_some_pos hinput, Option.bind_some,
    (h.records_of_find? he).default?_eq]

end Registry

end PromptTemplate
