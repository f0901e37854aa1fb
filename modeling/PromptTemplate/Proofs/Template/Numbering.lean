import Mathlib.Data.Finset.Card
import Mathlib.Data.List.ReduceOption
import PromptTemplate.Proofs.Template.Registry

/-!
# Proofs/Template/Numbering — the numbers in a registry

    {{@b}} {{x y}} {{a}} {{@a}} {{@b}}
    b: first seen 0, order 0        a: first seen 2, order 1

An entry has two numbers: the place of its first placeholder among all occurrences, and the number
of identifiers that were defined before it was. A registry is `Numbered` by the occurrences read so
far; one more occurrence keeps this, be it a placeholder (`Numbered.add`) or not (`Numbered.skip`).
It follows that the definitions are numbered from zero, without gap or repeat, in their order
(`Numbered.orders_perm`), and **what a registry lists is what its template says**
(`lists_ofTemplate`).
-/

namespace PromptTemplate

open Placeholder

namespace Template

/-- What each occurrence of a template is read as; one that is no placeholder is read as nothing. -/
def readings (s : Text) : List (Option Node) :=
  (scan s).map fun o => (Placeholder.parse o.text).toOption

end Template

/-! ## Places -/

/-- The index of the first placeholder with a property, all occurrences counted. -/
def firstIndex? (p : Node → Bool) (os : List (Option Node)) : Option Nat :=
  os.findIdx? (·.any p)

/-- The place of the first placeholder of an identifier. -/
def firstOccurrence? (os : List (Option Node)) (k : Text) : Option Nat :=
  firstIndex? (fun n => n.identifier = k) os

/-- The place of the first definition of an identifier. -/
def firstDefinition? (os : List (Option Node)) (k : Text) : Option Nat :=
  firstIndex? (fun n => n.identifier = k ∧ n.modifier = .definition) os

/-- The identifiers whose first definition comes before the place `i`. -/
def definedBefore (os : List (Option Node)) (i : Nat) : Finset Text :=
  (os.reduceOption.map Node.identifier).toFinset.filter fun k =>
    (firstDefinition? os k).any (· < i)

theorem firstIndex?_append (p : Node → Bool) (os os' : List (Option Node)) :
    firstIndex? p (os ++ os') =
      (firstIndex? p os).or ((firstIndex? p os').map (· + os.length)) :=
  List.findIdx?_append

theorem firstIndex?_concat (p : Node → Bool) (os : List (Option Node)) (o : Option Node) :
    firstIndex? p (os ++ [o]) =
      (firstIndex? p os).or (if o.any p then some os.length else none) := by
  rw [firstIndex?_append]
  cases h : o.any p <;> simp [firstIndex?, List.findIdx?_cons, h]

theorem firstIndex?_concat_of_neg {p : Node → Bool} {o : Option Node} (h : o.any p = false)
    (os : List (Option Node)) : firstIndex? p (os ++ [o]) = firstIndex? p os := by
  rw [firstIndex?_concat, h]
  simp

theorem firstIndex?_lt {p : Node → Bool} {os : List (Option Node)} {i : Nat}
    (h : firstIndex? p os = some i) : i < os.length :=
  (List.findIdx?_eq_some_iff_findIdx_eq.mp h).1

theorem firstIndex?_isSome {p : Node → Bool} {os : List (Option Node)} :
    (firstIndex? p os).isSome = true ↔ ∃ n ∈ os.reduceOption, p n = true := by
  rw [firstIndex?, List.findIdx?_isSome, List.any_eq_true]
  constructor
  · rintro ⟨o, ho, hp⟩
    obtain ⟨n, rfl, hn⟩ := (Option.any_eq_true p o).mp hp
    exact ⟨n, List.reduceOption_mem_iff.mpr ho, hn⟩
  · rintro ⟨n, hn, hp⟩
    exact ⟨some n, List.reduceOption_mem_iff.mp hn, hp⟩

/-- What was met before is first met there. -/
theorem firstIndex?_append_of_isSome {p : Node → Bool} {os os' : List (Option Node)}
    (h : (firstIndex? p os).isSome = true) : firstIndex? p (os ++ os') = firstIndex? p os := by
  rw [firstIndex?_append, Option.or_of_isSome h]

/-- The places in the first part of a list are those of that part. -/
theorem firstIndex?_append_eq_some {p : Node → Bool} {os os' : List (Option Node)} {i : Nat}
    (hi : i < os.length) : firstIndex? p (os ++ os') = some i ↔ firstIndex? p os = some i := by
  rw [firstIndex?_append]
  cases firstIndex? p os with
  | some j => rw [Option.some_or]
  | none =>
    rw [Option.none_or, Option.map_eq_some_iff]
    refine iff_of_false ?_ (by simp)
    rintro ⟨j, -, rfl⟩
    omega

/-- A new identifier has no place. -/
theorem firstIndex?_eq_none {p : Node → Bool} {os : List (Option Node)} {k : Text}
    (hk : k ∉ os.reduceOption.map Node.identifier) (hp : ∀ n, p n = true → n.identifier = k) :
    firstIndex? p os = none := by
  rw [← Option.not_isSome_iff_eq_none, firstIndex?_isSome]
  rintro ⟨n, hn, hpn⟩
  exact hk (hp n hpn ▸ List.mem_map_of_mem hn)

/-- A place that is found holds a placeholder with the property. -/
theorem exists_of_firstIndex? {p : Node → Bool} {os : List (Option Node)} {i : Nat}
    (h : firstIndex? p os = some i) : ∃ n, os[i]? = some (some n) ∧ p n = true := by
  obtain ⟨hi, hp, -⟩ := List.findIdx?_eq_some_iff_getElem.mp h
  obtain ⟨n, hn, hpn⟩ := (Option.any_eq_true p _).mp hp
  exact ⟨n, by rw [List.getElem?_eq_getElem hi, hn], hpn⟩

/-- Two properties that are first met at one place are met in one placeholder. -/
theorem exists_of_firstIndex?_eq {p q : Node → Bool} {os : List (Option Node)} {i : Nat}
    (hp : firstIndex? p os = some i) (hq : firstIndex? q os = some i) :
    ∃ n, p n = true ∧ q n = true := by
  obtain ⟨n, hn, hpn⟩ := exists_of_firstIndex? hp
  obtain ⟨m, hm, hqm⟩ := exists_of_firstIndex? hq
  obtain rfl : n = m := by
    rw [hm] at hn
    simpa using hn.symm
  exact ⟨n, hpn, hqm⟩

theorem mem_definedBefore {os : List (Option Node)} {i : Nat} {k : Text} :
    k ∈ definedBefore os i ↔ ∃ j, firstDefinition? os k = some j ∧ j < i := by
  rw [definedBefore, Finset.mem_filter, Option.any_eq_true]
  simp only [decide_eq_true_eq]
  refine ⟨And.right, fun h => ⟨?_, h⟩⟩
  obtain ⟨j, hj, -⟩ := h
  obtain ⟨n, hn, hk⟩ := firstIndex?_isSome.mp (Option.isSome_of_eq_some hj)
  rw [List.mem_toFinset]
  exact (of_decide_eq_true hk).1 ▸ List.mem_map_of_mem hn

/-- What comes later changes nothing before. -/
theorem definedBefore_append {os : List (Option Node)} {i : Nat} (hi : i ≤ os.length)
    (os' : List (Option Node)) : definedBefore (os ++ os') i = definedBefore os i := by
  ext k
  rw [mem_definedBefore, mem_definedBefore]
  exact exists_congr fun j => and_congr_left fun hj =>
    firstIndex?_append_eq_some (Nat.lt_of_lt_of_le hj hi)

/-- Definitions in their order have more and more identifiers before them. -/
theorem card_definedBefore_lt {os : List (Option Node)} {k : Text} {i j : Nat}
    (hk : firstDefinition? os k = some i) (hij : i < j) :
    (definedBefore os i).card < (definedBefore os j).card := by
  refine Finset.card_lt_card (Finset.ssubset_iff_of_subset ?_ |>.mpr ⟨k, ?_, ?_⟩)
  · intro l hl
    obtain ⟨p, hp, hpi⟩ := mem_definedBefore.mp hl
    exact mem_definedBefore.mpr ⟨p, hp, Nat.lt_trans hpi hij⟩
  · exact mem_definedBefore.mpr ⟨i, hk, hij⟩
  · intro hmem
    obtain ⟨p, hp, hpi⟩ := mem_definedBefore.mp hmem
    obtain rfl : i = p := Option.some.inj (hk.symm.trans hp)
    exact Nat.lt_irrefl i hpi

/-! ## One placeholder more -/

namespace Registry

/-- A registry numbers its entries as the occurrences read so far ask for. -/
structure Numbered (r : Registry) (os : List (Option Node)) : Prop where
  reflects : Reflects r os.reduceOption
  firstSeen : ∀ {e : Entry}, e ∈ r.entries → firstOccurrence? os e.identifier = some e.firstSeen
  order : ∀ {e : Entry}, e ∈ r.entries →
    e.order = (firstDefinition? os e.identifier).map fun i => (definedBefore os i).card

theorem Reflects.definition_iff {r : Registry} {os : List (Option Node)}
    (h : Reflects r os.reduceOption) {e : Entry} (he : e ∈ r.entries) :
    e.definition = true ↔ (firstDefinition? os e.identifier).isSome = true := by
  rw [(h.records he).definition, firstDefinition?, firstIndex?_isSome]
  simp [ofIdentifier]

/-- The next place is the number of identifiers defined so far. -/
theorem Reflects.nextOrder_eq {r : Registry} {os : List (Option Node)}
    (h : Reflects r os.reduceOption) : r.nextOrder = (definedBefore os os.length).card := by
  have hnodup : ((r.entries.filter (·.definition)).map Entry.identifier).Nodup :=
    h.distinct.sublist (List.filter_sublist.map _)
  have hset : ((r.entries.filter (·.definition)).map Entry.identifier).toFinset =
      definedBefore os os.length := by
    ext k
    rw [List.mem_toFinset, mem_definedBefore]
    constructor
    · intro hk
      obtain ⟨e, he, rfl⟩ := List.mem_map.mp hk
      obtain ⟨hmem, hdef⟩ := List.mem_filter.mp he
      obtain ⟨i, hi⟩ := Option.isSome_iff_exists.mp ((h.definition_iff hmem).mp hdef)
      exact ⟨i, hi, firstIndex?_lt hi⟩
    · rintro ⟨i, hi, -⟩
      obtain ⟨n, hn, hk⟩ := firstIndex?_isSome.mp (Option.isSome_of_eq_some hi)
      obtain ⟨rfl, -⟩ := of_decide_eq_true hk
      obtain ⟨e, he, hid⟩ := List.mem_map.mp (h.mem.mpr (List.mem_map_of_mem hn))
      refine List.mem_map.mpr ⟨e, List.mem_filter.mpr ⟨he, (h.definition_iff he).mpr ?_⟩, hid⟩
      rw [hid, hi]
      rfl
  rw [nextOrder, List.countP_eq_length_filter, ← hset, List.toFinset_card_of_nodup hnodup,
    List.length_map]

theorem numbered_empty : Numbered empty [] where
  reflects := reflects_empty
  firstSeen h := absurd h List.not_mem_nil
  order h := absurd h List.not_mem_nil

/-- An occurrence that is no placeholder is counted, and nothing else. -/
theorem Numbered.skip {r : Registry} {os : List (Option Node)} (h : Numbered r os) :
    Numbered r (os ++ [none]) where
  reflects := by
    rw [List.reduceOption_append]
    simpa using h.reflects
  firstSeen he := by
    rw [firstOccurrence?, firstIndex?_concat_of_neg rfl]
    exact h.firstSeen he
  order {e} he := by
    rw [firstDefinition?, firstIndex?_concat_of_neg rfl, ← firstDefinition?, h.order he]
    refine Option.map_congr fun i hi => ?_
    rw [definedBefore_append (Nat.le_of_lt (firstIndex?_lt hi))]

theorem firstSeen_add (e : Entry) (n : Node) (order : Nat) :
    (e.add n order).firstSeen = e.firstSeen := by
  rw [Entry.add]
  split <;> rfl

/-- A place is only given to a definition, and only if there is none. -/
theorem order_add (e : Entry) (n : Node) (next : Nat) :
    (e.add n next).order =
      e.order.or (if n.modifier = .definition then some next else none) := by
  rw [Entry.add]
  cases n.modifier with
  | definition => cases e.order <;> simp
  | comment => simp
  | reference => simp

theorem firstDefinition?_concat (os : List (Option Node)) (n : Node) :
    firstDefinition? (os ++ [some n]) n.identifier =
      (firstDefinition? os n.identifier).or
        (if n.modifier = .definition then some os.length else none) := by
  rw [firstDefinition?, firstIndex?_concat, ← firstDefinition?]
  simp

theorem firstDefinition?_concat_of_ne {n : Node} {k : Text} (hk : k ≠ n.identifier)
    (os : List (Option Node)) : firstDefinition? (os ++ [some n]) k = firstDefinition? os k := by
  rw [firstDefinition?, firstIndex?_concat_of_neg (by simp [Ne.symm hk]), ← firstDefinition?]

/-- The place that the identifier of one more placeholder gets. -/
theorem Numbered.order_concat {r : Registry} {os : List (Option Node)} (h : Numbered r os)
    (n : Node) :
    ((firstDefinition? os n.identifier).map fun i => (definedBefore os i).card).or
        (if n.modifier = .definition then some r.nextOrder else none) =
      (firstDefinition? (os ++ [some n]) n.identifier).map fun i =>
        (definedBefore (os ++ [some n]) i).card := by
  rw [firstDefinition?_concat, h.reflects.nextOrder_eq]
  cases hi : firstDefinition? os n.identifier with
  | some i =>
    rw [Option.some_or, Option.map_some, Option.map_some, Option.some_or,
      definedBefore_append (Nat.le_of_lt (firstIndex?_lt hi))]
  | none =>
    rw [Option.none_or, Option.map_none, Option.none_or]
    split
    · rw [Option.map_some, definedBefore_append (Nat.le_refl _)]
    · rfl

/-- **A placeholder more on both sides.** -/
theorem Numbered.add {r : Registry} {os : List (Option Node)} (h : Numbered r os) (n : Node) :
    Numbered (r.add n os.length) (os ++ [some n]) where
  reflects := by
    rw [List.reduceOption_append, List.reduceOption_cons_of_some, List.reduceOption_nil]
    exact h.reflects.add n _
  firstSeen {e} he := by
    obtain ⟨hold, hne⟩ | ⟨e', hid, rfl, hold | ⟨hnew, rfl⟩⟩ := mem_addTo h.reflects.distinct he
    · rw [firstOccurrence?, firstIndex?_concat_of_neg (by simp [Ne.symm hne])]
      exact h.firstSeen hold
    · rw [Entry.identifier_add, firstSeen_add, firstOccurrence?, firstIndex?_concat,
        ← firstOccurrence?, h.firstSeen hold, Option.some_or]
    · have hnone : firstOccurrence? os n.identifier = none :=
        firstIndex?_eq_none (mt h.reflects.mem.mpr hnew) fun m hm => of_decide_eq_true hm
      rw [Entry.identifier_add, firstSeen_add, firstOccurrence?, firstIndex?_concat,
        ← firstOccurrence?, Entry.identifier_new, hnone]
      simp [Entry.new]
  order {e} he := by
    obtain ⟨hold, hne⟩ | ⟨e', hid, rfl, hold | ⟨hnew, rfl⟩⟩ := mem_addTo h.reflects.distinct he
    · rw [firstDefinition?_concat_of_ne hne, h.order hold]
      refine Option.map_congr fun i hi => ?_
      rw [definedBefore_append (Nat.le_of_lt (firstIndex?_lt hi))]
    · rw [Entry.identifier_add, order_add, hid, ← h.order_concat, h.order hold, hid]
    · have hnone : firstDefinition? os n.identifier = none :=
        firstIndex?_eq_none (mt h.reflects.mem.mpr hnew) fun m hm => (of_decide_eq_true hm).1
      rw [Entry.identifier_add, order_add, Entry.identifier_new, ← h.order_concat, hnone]
      rfl

theorem Numbered.survey {r : Registry} {os : List (Option Node)} (h : Numbered r os)
    (cs : List Template.Occurrence) :
    Numbered (r.survey os.length cs).1
      (os ++ cs.map fun o => (Placeholder.parse o.text).toOption) := by
  induction cs generalizing r os with
  | nil =>
    rw [List.map_nil, List.append_nil]
    exact h
  | cons o cs ih =>
    rw [Registry.survey, List.map_cons, List.append_cons]
    cases Placeholder.parse o.text with
    | ok n =>
      have hcs := ih (h.add n)
      rwa [List.length_append] at hcs
    | error f =>
      have hcs := ih h.skip
      rwa [List.length_append] at hcs

/-- **The registry of a template numbers its entries.** -/
theorem numbered_ofTemplate (s : Text) : Numbered (ofTemplate s) (Template.readings s) :=
  numbered_empty.survey (Template.scan s)

/-! ## What the numbers say -/

theorem Numbered.nodup_firstSeen {r : Registry} {os : List (Option Node)} (h : Numbered r os) :
    (r.entries.map Entry.firstSeen).Nodup := by
  refine List.pairwise_map.mpr
    (List.Pairwise.imp_of_mem ?_ (List.pairwise_map.mp h.reflects.distinct))
  intro a b ha hb hne hab
  obtain ⟨n, hna, hnb⟩ := exists_of_firstIndex?_eq (h.firstSeen ha) (hab ▸ h.firstSeen hb)
  exact hne ((of_decide_eq_true hna).symm.trans (of_decide_eq_true hnb))

theorem Numbered.order_isSome {r : Registry} {os : List (Option Node)} (h : Numbered r os)
    {e : Entry} (he : e ∈ r.entries) : e.order.isSome = e.definition := by
  rw [h.order he, Option.isSome_map, Bool.eq_iff_iff, h.reflects.definition_iff he]

theorem Numbered.order_eq {r : Registry} {os : List (Option Node)} (h : Numbered r os) {e : Entry}
    (he : e ∈ r.entries) {i : Nat} (hi : e.order = some i) :
    ∃ j, firstDefinition? os e.identifier = some j ∧ i = (definedBefore os j).card := by
  rw [h.order he] at hi
  obtain ⟨j, hj, hcard⟩ := Option.map_eq_some_iff.mp hi
  exact ⟨j, hj, hcard.symm⟩

/-- The places follow the first definitions. -/
theorem Numbered.order_lt_iff {r : Registry} {os : List (Option Node)} (h : Numbered r os)
    {a b : Entry} (ha : a ∈ r.entries) (hb : b ∈ r.entries) {i i' j j' : Nat}
    (hi : a.order = some i) (hi' : b.order = some i')
    (hj : firstDefinition? os a.identifier = some j)
    (hj' : firstDefinition? os b.identifier = some j') : i < i' ↔ j < j' := by
  rw [h.order ha, hj, Option.map_some, Option.some.injEq] at hi
  rw [h.order hb, hj', Option.map_some, Option.some.injEq] at hi'
  subst hi hi'
  refine ⟨fun hlt => ?_, card_definedBefore_lt hj⟩
  obtain hlt' | rfl | hlt' := Nat.lt_trichotomy j j'
  · exact hlt'
  · exact absurd hlt (Nat.lt_irrefl _)
  · exact absurd hlt (Nat.lt_asymm (card_definedBefore_lt hj' hlt'))

theorem Numbered.nodup_orders {r : Registry} {os : List (Option Node)} (h : Numbered r os) :
    (r.entries.filterMap Entry.order).Nodup := by
  refine List.pairwise_filterMap.mpr
    (List.Pairwise.imp_of_mem ?_ (List.pairwise_map.mp h.reflects.distinct))
  intro a b ha hb hne i hi i' hi' heq
  obtain ⟨j, hj, -⟩ := h.order_eq ha hi
  obtain ⟨j', hj', -⟩ := h.order_eq hb hi'
  have hlt := h.order_lt_iff ha hb hi hi' hj hj'
  have hgt := h.order_lt_iff hb ha hi' hi hj' hj
  obtain rfl : j = j' := by omega
  obtain ⟨n, hna, hnb⟩ := exists_of_firstIndex?_eq hj hj'
  exact hne ((of_decide_eq_true hna).1.symm.trans (of_decide_eq_true hnb).1)

/-- **The places are numbered without gap or repeat.** -/
theorem Numbered.orders_perm {r : Registry} {os : List (Option Node)} (h : Numbered r os) :
    (r.entries.filterMap Entry.order).Perm (List.range (r.entries.countP (·.definition))) := by
  have hlength : (r.entries.filterMap Entry.order).length = r.entries.countP (·.definition) := by
    rw [List.length_filterMap_eq_countP]
    exact List.countP_congr fun e he => by rw [h.order_isSome he]
  refine List.Subperm.perm_of_length_le (h.nodup_orders.subperm fun i hi => ?_) ?_
  · obtain ⟨e, he, hei⟩ := List.mem_filterMap.mp hi
    obtain ⟨j, hj, rfl⟩ := h.order_eq he hei
    rw [List.mem_range, ← nextOrder, h.reflects.nextOrder_eq]
    exact card_definedBefore_lt hj (firstIndex?_lt hj)
  · rw [List.length_range, hlength]

/-- What a registry lists, `os` being what each occurrence of the template is read as. -/
structure Lists (r : Registry) (os : List (Option Node)) : Prop where
  /-- The identifiers of placeholders have an entry, and no others. -/
  contains_iff : ∀ k, r.contains k = true ↔ ∃ n, some n ∈ os ∧ n.identifier = k
  identifier_eq : ∀ k e, r.find? k = some e → e.identifier = k
  nodup_identifiers : (r.entries.map Entry.identifier).Nodup
  definition_iff : ∀ k e, r.find? k = some e →
    (e.definition = true ↔ ∃ n, some n ∈ os ∧ n.identifier = k ∧ n.modifier = .definition)
  comment_iff : ∀ k e, r.find? k = some e →
    (e.comment = true ↔ ∃ n, some n ∈ os ∧ n.identifier = k ∧ n.modifier = .comment)
  referenced_iff : ∀ k e, r.find? k = some e →
    (e.referenced = true ↔ ∃ n, some n ∈ os ∧ n.identifier = k ∧ n.modifier = .reference)
  order_isSome : ∀ k e, r.find? k = some e → e.order.isSome = e.definition
  /-- The order counts the identifiers that are defined before. -/
  order_eq : ∀ k e i, r.find? k = some e → e.order = some i →
    ∃ j, firstDefinition? os k = some j ∧ i = (definedBefore os j).card
  order_lt_iff : ∀ k e i j k' e' i' j', r.find? k = some e → e.order = some i →
    firstDefinition? os k = some j → r.find? k' = some e' → e'.order = some i' →
    firstDefinition? os k' = some j' → (i < i' ↔ j < j')
  /-- The orders are the numbers below the number of definitions, each once. -/
  orders_perm : (r.entries.filterMap Entry.order).Perm
    (List.range (r.entries.countP (·.definition)))
  firstSeen_eq : ∀ k e, r.find? k = some e → firstOccurrence? os k = some e.firstSeen
  nodup_firstSeen : (r.entries.map Entry.firstSeen).Nodup

theorem Reflects.contains_iff {r : Registry} {os : List (Option Node)}
    (h : Reflects r os.reduceOption) {k : Text} :
    r.contains k = true ↔ ∃ n, some n ∈ os ∧ n.identifier = k := by
  rw [contains, Option.isSome_iff_exists]
  constructor
  · rintro ⟨e, he⟩
    obtain ⟨hmem, rfl⟩ := h.find?_eq_some.mp he
    obtain ⟨n, hn, hid⟩ := List.mem_map.mp (h.mem.mp (List.mem_map_of_mem hmem))
    exact ⟨n, List.reduceOption_mem_iff.mp hn, hid⟩
  · rintro ⟨n, hn, rfl⟩
    exact h.exists_find? (List.reduceOption_mem_iff.mpr hn)

/-- Whether a placeholder of an identifier has a modifier, said of the occurrences. -/
theorem any_ofIdentifier_iff {os : List (Option Node)} {k : Text} {m : Modifier} :
    (ofIdentifier k os.reduceOption).any (·.modifier = m) = true ↔
      ∃ n, some n ∈ os ∧ n.identifier = k ∧ n.modifier = m := by
  simp [ofIdentifier, List.reduceOption_mem_iff]

/-- **What the registry of a template lists is what the template says.** -/
theorem lists_ofTemplate (s : Text) : Lists (ofTemplate s) (Template.readings s) := by
  have h := numbered_ofTemplate s
  have hmem : ∀ {k e}, (ofTemplate s).find? k = some e →
      e ∈ (ofTemplate s).entries ∧ e.identifier = k := h.reflects.find?_eq_some.mp
  refine
    { contains_iff := fun k => h.reflects.contains_iff
      identifier_eq := fun k e he => (hmem he).2
      nodup_identifiers := h.reflects.distinct
      definition_iff := fun k e he => ?_
      comment_iff := fun k e he => ?_
      referenced_iff := fun k e he => ?_
      order_isSome := fun k e he => h.order_isSome (hmem he).1
      order_eq := fun k e i he hi => (hmem he).2 ▸ h.order_eq (hmem he).1 hi
      order_lt_iff := ?_
      orders_perm := h.orders_perm
      firstSeen_eq := fun k e he => (hmem he).2 ▸ h.firstSeen (hmem he).1
      nodup_firstSeen := h.nodup_firstSeen }
  · rw [(h.reflects.records_of_find? he).definition, any_ofIdentifier_iff]
  · rw [(h.reflects.records_of_find? he).comment, any_ofIdentifier_iff]
  · rw [(h.reflects.records_of_find? he).referenced, any_ofIdentifier_iff]
  · intro k e i j k' e' i' j' he hi hj he' hi' hj'
    obtain ⟨hmem₁, rfl⟩ := hmem he
    obtain ⟨hmem₂, rfl⟩ := hmem he'
    exact h.order_lt_iff hmem₁ hmem₂ hi hi' hj hj'

/-- An occurrence that is no placeholder has an index, but no entry. -/
example :
    (ofTemplate (Template.braced ['@', 'b'] ++ Template.braced ['x', ' ', 'y'] ++
      Template.braced ['a'] ++ Template.braced ['@', 'a'])).entries.map
        (fun e => (e.identifier, e.order, e.firstSeen)) =
      [(['b'], some 0, 0), (['a'], some 1, 2)] := by decide +kernel

end Registry

end PromptTemplate
