import PromptTemplate.Proofs.Template.Form
import PromptTemplate.Proofs.Template.Merging

/-!
# Proofs/Template/Appending — what stays as a template grows

    {{@a, x=1}} {{b}}                             a: order 0, x       b: no order
    {{@a, x=1}} {{b}} {{a, y=2, x=3}} {{@b}}      a: order 0, x, y    b: order 1

The first placeholder of an identifier, or the first definition, is the same for a template and for
one that goes on with more occurrences. So an entry keeps its numbers, and what it gains it gains
behind what it has (`Entry.Extends`). In the form the definitions that are new come behind all
others, because they stand there (`Numbered.definedInputs_isPrefix`). Together: **the registry of a
longer template extends that of the shorter one** (`extends_of_isPrefix`).
-/

namespace PromptTemplate

open Placeholder

namespace Template

theorem readings_isPrefix {s s' : Text}
    (h : (scan s).map Occurrence.text <+: (scan s').map Occurrence.text) :
    readings s <+: readings s' := by
  have hmap := h.map fun t => (Placeholder.parse t).toOption
  rwa [List.map_map, List.map_map] at hmap

end Template

/-! ## Entries -/

theorem ofIdentifier_append (k : Text) (ns ms : List Node) :
    ofIdentifier k (ns ++ ms) = ofIdentifier k ns ++ ofIdentifier k ms :=
  List.filter_append _ _

theorem writtenParameters_append (ns ms : List Node) :
    writtenParameters (ns ++ ms) = writtenParameters ns ++ writtenParameters ms := by
  rw [writtenParameters, List.filter_append, List.flatMap_append, writtenParameters,
    writtenParameters]

namespace Entry

/-- What an entry keeps of an earlier one of the same identifier. -/
structure Extends (e' e : Entry) : Prop where
  identifier_eq : e'.identifier = e.identifier
  firstSeen_eq : e'.firstSeen = e.firstSeen
  /-- A place among the definitions is never given up. -/
  order_eq : ∀ i, e.order = some i → e'.order = some i
  definition : e.definition = true → e'.definition = true
  comment : e.comment = true → e'.comment = true
  referenced : e.referenced = true → e'.referenced = true
  /-- New parameters come behind the others. -/
  keys_isPrefix : e.parameters.map Parameter.key <+: e'.parameters.map Parameter.key

/-- More placeholders leave the keys of the parameters where they are. -/
theorem Records.keys_isPrefix {e e' : Entry} {ns ms : List Node} (h : e.Records ns)
    (h' : e'.Records (ns ++ ms)) :
    e.parameters.map Parameter.key <+: e'.parameters.map Parameter.key := by
  rw [h.parameters, h'.parameters, keys_foldl_putParameter, keys_foldl_putParameter,
    writtenParameters_append, List.map_append, List.eraseDups_append]
  exact List.prefix_append _ _

end Entry

/-! ## Registries -/

namespace Registry

/-- The identifiers of the inputs that are defined, in the order of a form. -/
def definedInputs (r : Registry) : List Text :=
  (r.inputs.filter (·.definition)).map Entry.identifier

/-- What a registry keeps of an earlier one. -/
structure Extends (r' r : Registry) : Prop where
  entries : ∀ k e, r.find? k = some e → ∃ e', r'.find? k = some e' ∧ e'.Extends e
  definedInputs_isPrefix : r.definedInputs <+: r'.definedInputs

variable {r r' : Registry} {os os' : List (Option Node)}

/-- The entry of an identifier after more occurrences. -/
theorem Numbered.entry_extends (h : Numbered r os) (h' : Numbered r' (os ++ os')) {e e' : Entry}
    (he : e ∈ r.entries) (he' : e' ∈ r'.entries) (hid : e'.identifier = e.identifier) :
    e'.Extends e := by
  have hrec := h.reflects.records he
  have hrec' := h'.reflects.records he'
  rw [hid, List.reduceOption_append, ofIdentifier_append] at hrec'
  refine
    { identifier_eq := hid
      firstSeen_eq := ?_
      order_eq := fun i hi => ?_
      definition := fun hdef => ?_
      comment := fun hcom => ?_
      referenced := fun href => ?_
      keys_isPrefix := hrec.keys_isPrefix hrec' }
  · have hfirst := h'.firstSeen he'
    rw [hid, firstOccurrence?, firstIndex?_append_of_isSome (Option.isSome_of_eq_some
      (h.firstSeen he)), ← firstOccurrence?, h.firstSeen he] at hfirst
    exact (Option.some.inj hfirst).symm
  · obtain ⟨j, hj, rfl⟩ := h.order_eq he hi
    rw [h'.order he', hid, firstDefinition?,
      firstIndex?_append_of_isSome (Option.isSome_of_eq_some hj), ← firstDefinition?, hj,
      Option.map_some, definedBefore_append (Nat.le_of_lt (firstIndex?_lt hj))]
  · rw [hrec'.definition, List.any_append, ← hrec.definition, hdef, Bool.true_or]
  · rw [hrec'.comment, List.any_append, ← hrec.comment, hcom, Bool.true_or]
  · rw [hrec'.referenced, List.any_append, ← hrec.referenced, href, Bool.true_or]

/-- The defined inputs are the identifiers with a definition. -/
theorem Numbered.mem_definedInputs (h : Numbered r os) {k : Text} :
    k ∈ r.definedInputs ↔ (firstDefinition? os k).isSome = true := by
  rw [definedInputs, List.mem_map]
  constructor
  · rintro ⟨e, he, rfl⟩
    obtain ⟨hmem, hdef⟩ := List.mem_filter.mp he
    exact (h.reflects.definition_iff (mem_inputs.mp hmem).1).mp hdef
  · intro hk
    obtain ⟨n, hn, hnk⟩ := firstIndex?_isSome.mp hk
    obtain ⟨e, he, hid⟩ := List.mem_map.mp (h.reflects.mem.mpr (List.mem_map_of_mem hn))
    obtain rfl : e.identifier = k := hid.trans (of_decide_eq_true hnk).1
    have hdef := (h.reflects.definition_iff he).mpr hk
    have hinput : e.isInput = true := by rw [Entry.isInput, hdef, Bool.true_or]
    exact ⟨e, List.mem_filter.mpr ⟨mem_inputs.mpr ⟨he, hinput⟩, hdef⟩, rfl⟩

theorem definedInputs_sublist (r : Registry) :
    r.definedInputs.Sublist (r.inputs.map Entry.identifier) :=
  List.filter_sublist.map _

theorem Numbered.pairwise_definedInputs (h : Numbered r os) :
    r.definedInputs.Pairwise (Before os) :=
  h.pairwise_inputs.sublist r.definedInputs_sublist

/-- A definition that is there stands before one that is still to come. -/
theorem before_append {k j : Text} (hk : (firstDefinition? os k).isSome = true)
    (hj : (firstDefinition? os j).isSome = false)
    (hj' : (firstDefinition? (os ++ os') j).isSome = true) : Before (os ++ os') k j := by
  obtain ⟨i, hi⟩ := Option.isSome_iff_exists.mp hk
  obtain ⟨i', hi'⟩ := Option.isSome_iff_exists.mp hj'
  have hilt : i < os.length := firstIndex?_lt hi
  have hi'le : os.length ≤ i' := by
    refine Nat.le_of_not_lt fun hlt => ?_
    have hsome : firstDefinition? os j = some i' := (firstIndex?_append_eq_some hlt).mp hi'
    rw [hsome] at hj
    exact absurd hj (by simp)
  have hki : firstDefinition? (os ++ os') k = some i := (firstIndex?_append_eq_some hilt).mpr hi
  rw [Before, hki, hi']
  exact Nat.lt_of_lt_of_le hilt hi'le

/-- **The definitions that are new come behind the others in the form.** -/
theorem Numbered.definedInputs_isPrefix (h : Numbered r os) (h' : Numbered r' (os ++ os')) :
    r.definedInputs <+: r'.definedInputs := by
  have hkept : ∀ {k}, (firstDefinition? os k).isSome = true →
      firstDefinition? (os ++ os') k = firstDefinition? os k := firstIndex?_append_of_isSome
  have hsub : r.definedInputs ⊆ r'.definedInputs := fun k hk => by
    have hsome := h.mem_definedInputs.mp hk
    rwa [h'.mem_definedInputs, hkept hsome]
  have hpairwise : r.definedInputs.Pairwise (Before (os ++ os')) := by
    refine h.pairwise_definedInputs.imp_of_mem fun {k j} hk hj hkj => ?_
    have hk' := h.mem_definedInputs.mp hk
    have hj' := h.mem_definedInputs.mp hj
    exact hkj.congr (hkept hk') (hkept hj') (fun hnone => absurd hk' (by simp [hnone]))
      (fun hnone => absurd hj' (by simp [hnone]))
  refine isPrefix_of_pairwise_before hpairwise h'.pairwise_definedInputs hsub ?_
  intro k hk j hj hnew
  refine before_append (h.mem_definedInputs.mp hk) ?_ (h'.mem_definedInputs.mp hj)
  exact Bool.eq_false_iff.mpr (mt h.mem_definedInputs.mpr hnew)

/-- **A template that goes on with more occurrences has a registry that extends the old one.** -/
theorem extends_of_isPrefix {s s' : Text}
    (h : (Template.scan s).map Template.Occurrence.text <+:
      (Template.scan s').map Template.Occurrence.text) :
    (ofTemplate s').Extends (ofTemplate s) := by
  obtain ⟨os', hos⟩ := Template.readings_isPrefix h
  have hr := numbered_ofTemplate s
  have hr' := numbered_ofTemplate s'
  rw [← hos] at hr'
  refine ⟨fun k e he => ?_, hr.definedInputs_isPrefix hr'⟩
  obtain ⟨hmem, rfl⟩ := hr.reflects.find?_eq_some.mp he
  have hid : e.identifier ∈ (ofTemplate s').entries.map Entry.identifier := by
    rw [hr'.reflects.mem, List.reduceOption_append, List.map_append, List.mem_append]
    exact .inl (hr.reflects.mem.mp (List.mem_map_of_mem hmem))
  obtain ⟨e', hmem', hid'⟩ := List.mem_map.mp hid
  exact ⟨e', hr'.reflects.find?_eq_some.mpr ⟨hmem', hid'⟩, hr.entry_extends hr' hmem hmem' hid'⟩

/-- A reference that is defined later, a definition with a later parameter, and an occurrence that
is no placeholder between them. -/
theorem extends_of_isPrefix_promoted :
    let s := Template.braced "@a, x=1".toList ++ Template.braced ['b']
    let s' := Template.braced "@a, x=1".toList ++ Template.braced ['b'] ++
      Template.braced "c d".toList ++ Template.braced "a, y=2, x=3".toList ++
      Template.braced "@b".toList
    (Template.scan s).map Template.Occurrence.text <+:
        (Template.scan s').map Template.Occurrence.text ∧
      (ofTemplate s').Extends (ofTemplate s) := by
  intro s s'
  have h : (Template.scan s).map Template.Occurrence.text <+:
      (Template.scan s').map Template.Occurrence.text := by decide +kernel
  exact ⟨h, extends_of_isPrefix h⟩

end Registry

end PromptTemplate
