import PromptTemplate.Proofs.Text.Keys
import PromptTemplate.Template.Registry

/-!
# Proofs/Template/Registry — an entry says what the placeholders of its identifier say

    @a, x=1     b     #a     a, x=2, y=3     placeholders, in order
    a: definition, comment, referenced, x=2, y=3
    b: referenced

A registry `Reflects` a list of placeholders when it has one entry for each of their identifiers,
and that entry `Records` the placeholders of the identifier, their parameters merged. One more
placeholder keeps this (`Reflects.add`), so **the registry of a template reflects its placeholders**
(`reflects_ofTemplate`).
-/

namespace PromptTemplate

open Placeholder

namespace Template

/-- The placeholder that a piece is, if it is one. -/
def Piece.node? : Piece → Option Node
  | .char _ => none
  | .occurrence body => (Placeholder.parse (braced body)).toOption

/-- The placeholders of a template, in order. -/
def nodes (s : Text) : List Node := (pieces s).filterMap Piece.node?

theorem filterMap_occurrencesFrom (start : Nat) (ps : List Piece) :
    (occurrencesFrom start ps).filterMap (fun o => (Placeholder.parse o.text).toOption) =
      ps.filterMap Piece.node? := by
  induction ps generalizing start with
  | nil => rfl
  | cons p ps ih =>
    cases p with
    | char c => exact ih _
    | occurrence body =>
      rw [occurrencesFrom, List.filterMap_cons, List.filterMap_cons, ih]
      rfl

end Template

/-- The placeholders of one identifier. -/
def ofIdentifier (k : Text) (ns : List Node) : List Node := ns.filter (·.identifier = k)

/-- The parameters as they are written; those of a comment are part of its text. -/
def writtenParameters (ns : List Node) : List Parameter :=
  (ns.filter (·.modifier ≠ .comment)).flatMap Node.parameters

/-! ## Entries -/

namespace Entry

@[simp] theorem identifier_new (k : Text) (i : Nat) : (new k i).identifier = k := rfl

@[simp] theorem identifier_add (e : Entry) (n : Node) (order : Nat) :
    (e.add n order).identifier = e.identifier := by
  rw [add]
  split <;> rfl

/-- What an entry knows, said of the placeholders of its identifier. -/
structure Records (e : Entry) (ns : List Node) : Prop where
  definition : e.definition = ns.any (·.modifier = .definition)
  comment : e.comment = ns.any (·.modifier = .comment)
  referenced : e.referenced = ns.any (·.modifier = .reference)
  parameters : e.parameters = (writtenParameters ns).foldl putParameter []

theorem records_new (k : Text) (i : Nat) : Records (new k i) [] := ⟨rfl, rfl, rfl, rfl⟩

theorem Records.add {e : Entry} {ns : List Node} (h : Records e ns) (n : Node) (order : Nat) :
    Records (e.add n order) (ns ++ [n]) := by
  rw [Entry.add]
  cases hn : n.modifier with
  | definition =>
    refine ⟨?_, ?_, ?_, ?_⟩
    · simp [hn]
    · simp [hn, h.comment]
    · simp [hn, h.referenced]
    · simp [hn, h.parameters, writtenParameters]
  | comment =>
    refine ⟨?_, ?_, ?_, ?_⟩
    · simp [hn, h.definition]
    · simp [hn]
    · simp [hn, h.referenced]
    · simp [hn, h.parameters, writtenParameters]
  | reference =>
    refine ⟨?_, ?_, ?_, ?_⟩
    · simp [hn, h.definition]
    · simp [hn, h.comment]
    · simp [hn]
    · simp [hn, h.parameters, writtenParameters]

end Entry

namespace Registry

/-! ## One placeholder more -/

/-- No identifier has two entries. -/
def Distinct (es : List Entry) : Prop := (es.map Entry.identifier).Nodup

theorem identifiers_addTo (n : Node) (i order : Nat) (es : List Entry) :
    (addTo n i order es).map Entry.identifier =
      putKey (es.map Entry.identifier) n.identifier := by
  induction es with
  | nil => simp [addTo, putKey]
  | cons e es ih =>
    rw [addTo, List.map_cons, putKey_cons]
    split
    · rw [List.map_cons, Entry.identifier_add]
    · rw [List.map_cons, ih]

theorem distinct_addTo {n : Node} {es : List Entry} (h : Distinct es) (i order : Nat) :
    Distinct (addTo n i order es) := by
  rw [Distinct, identifiers_addTo]
  exact nodup_putKey h _

/-- An entry after one more placeholder is an entry of another identifier, or the one of its
identifier with the placeholder added. -/
theorem mem_addTo {n : Node} {es : List Entry} (h : Distinct es) {i order : Nat} {e : Entry}
    (he : e ∈ addTo n i order es) :
    e ∈ es ∧ e.identifier ≠ n.identifier ∨
      ∃ e', e'.identifier = n.identifier ∧ e = e'.add n order ∧
        (e' ∈ es ∨ n.identifier ∉ es.map Entry.identifier ∧ e' = Entry.new n.identifier i) := by
  induction es with
  | nil =>
    obtain rfl := List.mem_singleton.mp he
    exact .inr ⟨_, rfl, rfl, .inr ⟨List.not_mem_nil, rfl⟩⟩
  | cons a es ih =>
    rw [Distinct, List.map_cons, List.nodup_cons] at h
    rw [addTo] at he
    split at he
    · obtain rfl | hmem := List.mem_cons.mp he
      · exact .inr ⟨a, ‹_›, rfl, .inl List.mem_cons_self⟩
      · refine .inl ⟨List.mem_cons_of_mem _ hmem, fun heq => h.1 ?_⟩
        rw [‹a.identifier = _›, ← heq]
        exact List.mem_map_of_mem hmem
    · obtain rfl | hmem := List.mem_cons.mp he
      · exact .inl ⟨List.mem_cons_self, ‹_›⟩
      · obtain ⟨hold, hne⟩ | ⟨e', hid, rfl, hold | ⟨hnew, rfl⟩⟩ := ih h.2 hmem
        · exact .inl ⟨List.mem_cons_of_mem _ hold, hne⟩
        · exact .inr ⟨e', hid, rfl, .inl (List.mem_cons_of_mem _ hold)⟩
        · refine .inr ⟨_, rfl, rfl, .inr ⟨?_, rfl⟩⟩
          rw [List.map_cons, List.mem_cons, not_or]
          exact ⟨Ne.symm ‹_›, hnew⟩

theorem find?_eq_some_of_distinct {es : List Entry} (h : Distinct es) {k : Text} {e : Entry} :
    es.find? (·.identifier = k) = some e ↔ e ∈ es ∧ e.identifier = k :=
  find?_eq_some_of_nodup h

/-! ## The whole registry -/

/-- A registry says what a list of placeholders says: one entry for each of their identifiers, and
in it the placeholders of that identifier. -/
structure Reflects (r : Registry) (ns : List Node) : Prop where
  distinct : Distinct r.entries
  mem : ∀ {k : Text}, k ∈ r.entries.map Entry.identifier ↔ k ∈ ns.map Node.identifier
  records : ∀ {e : Entry}, e ∈ r.entries → e.Records (ofIdentifier e.identifier ns)

theorem ofIdentifier_concat_of_ne {k : Text} {n : Node} (h : k ≠ n.identifier) (ns : List Node) :
    ofIdentifier k (ns ++ [n]) = ofIdentifier k ns := by
  simp [ofIdentifier, Ne.symm h]

theorem ofIdentifier_concat (n : Node) (ns : List Node) :
    ofIdentifier n.identifier (ns ++ [n]) = ofIdentifier n.identifier ns ++ [n] := by
  simp [ofIdentifier]

theorem ofIdentifier_of_not_mem {k : Text} {ns : List Node} (h : k ∉ ns.map Node.identifier) :
    ofIdentifier k ns = [] := by
  refine List.filter_eq_nil_iff.mpr fun n hn hk => h ?_
  rw [← of_decide_eq_true hk]
  exact List.mem_map_of_mem hn

theorem reflects_empty : Reflects empty [] where
  distinct := List.nodup_nil
  mem := .rfl
  records h := absurd h List.not_mem_nil

/-- **A placeholder more on both sides.** -/
theorem Reflects.add {r : Registry} {ns : List Node} (h : Reflects r ns) (n : Node) (i : Nat) :
    Reflects (r.add n i) (ns ++ [n]) where
  distinct := distinct_addTo h.distinct _ _
  mem {k} := by
    rw [Registry.add, identifiers_addTo, mem_putKey, h.mem, List.map_append, List.mem_append,
      List.map_singleton, List.mem_singleton]
  records {e} he := by
    obtain ⟨hold, hne⟩ | ⟨e', hid, rfl, hold | ⟨hnew, rfl⟩⟩ := mem_addTo h.distinct he
    · rw [ofIdentifier_concat_of_ne hne]
      exact h.records hold
    · have hrec := h.records hold
      rw [hid] at hrec
      rw [Entry.identifier_add, hid, ofIdentifier_concat]
      exact hrec.add n _
    · rw [Entry.identifier_add, Entry.identifier_new, ofIdentifier_concat,
        ofIdentifier_of_not_mem (mt h.mem.mpr hnew)]
      exact (Entry.records_new _ i).add n _

theorem Reflects.survey {r : Registry} {ns : List Node} (h : Reflects r ns) (index : Nat)
    (os : List Template.Occurrence) :
    Reflects (r.survey index os).1
      (ns ++ os.filterMap fun o => (Placeholder.parse o.text).toOption) := by
  induction os generalizing r ns index with
  | nil =>
    rw [List.filterMap_nil, List.append_nil]
    exact h
  | cons o os ih =>
    rw [Registry.survey, List.filterMap_cons]
    cases Placeholder.parse o.text with
    | ok n =>
      have hos := ih (h.add n index) (index + 1)
      rw [List.append_assoc] at hos
      exact hos
    | error f => exact ih h (index + 1)

/-- **The registry of a template reflects its placeholders.** -/
theorem reflects_ofTemplate (s : Text) : Reflects (ofTemplate s) (Template.nodes s) := by
  have h := reflects_empty.survey 0 (Template.scan s)
  rwa [Template.scan, Template.filterMap_occurrencesFrom] at h

theorem Reflects.find?_eq_some {r : Registry} {ns : List Node} (h : Reflects r ns) {k : Text}
    {e : Entry} : r.find? k = some e ↔ e ∈ r.entries ∧ e.identifier = k :=
  find?_eq_some_of_distinct h.distinct

/-- The entry of an identifier records its placeholders. -/
theorem Reflects.records_of_find? {r : Registry} {ns : List Node} (h : Reflects r ns) {k : Text}
    {e : Entry} (he : r.find? k = some e) : e.Records (ofIdentifier k ns) := by
  obtain ⟨hmem, rfl⟩ := h.find?_eq_some.mp he
  exact h.records hmem

theorem Reflects.exists_find? {r : Registry} {ns : List Node} (h : Reflects r ns) {n : Node}
    (hn : n ∈ ns) : ∃ e, r.find? n.identifier = some e := by
  obtain ⟨e, he, hid⟩ := List.mem_map.mp (h.mem.mpr (List.mem_map_of_mem hn))
  exact ⟨e, h.find?_eq_some.mpr ⟨he, hid⟩⟩

/-- Referenced are the identifiers of references. -/
theorem Reflects.referenced_iff {r : Registry} {ns : List Node} (h : Reflects r ns) {k : Text}
    {e : Entry} (he : r.find? k = some e) :
    e.referenced = true ↔ ∃ n ∈ ns, n.identifier = k ∧ n.modifier = .reference := by
  rw [(h.records_of_find? he).referenced]
  simp [ofIdentifier]

end Registry

end PromptTemplate
