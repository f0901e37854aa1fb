import PromptTemplate.Proofs.Template.Numbering
import PromptTemplate.Proofs.Template.Resolution

/-!
# Proofs/Template/Merging — the parameters of an entry

    {{@a, x=1, y=2}}  {{b, x=9}}  {{a, z=3, x=4}}     a: x=4, y=2, z=3

An entry takes up its parameters one after the other. One more of them adds its key at the end or
leaves the keys alone (`Entry.keys_putParameter`), so a key keeps its first place; its value is the
last one, by `Entry.find?_foldl_putParameter`. Thus **the parameters of an entry are the written
ones, each key once, at its first place and with its last value** (`merged_of_mem_entries`).
-/

namespace PromptTemplate

open Placeholder

/-- The last value that is written for a key. -/
def lastValue? (ps : List Parameter) (key : Text) : Option Text := Parameter.find? ps.reverse key

/-- What parameters become of the written ones. -/
structure Merged (written ps : List Parameter) : Prop where
  /-- The keys, in the order in which they are first written. -/
  keys_eq : ps.map Parameter.key = (written.map Parameter.key).eraseDups
  nodup_keys : (ps.map Parameter.key).Nodup
  value_eq : ∀ p ∈ ps, lastValue? written p.key = some p.value

namespace Entry

/-! ## One parameter more -/

theorem keys_putParameter (ps : List Parameter) (p : Parameter) :
    (putParameter ps p).map Parameter.key = putKey (ps.map Parameter.key) p.key := by
  induction ps with
  | nil => rfl
  | cons q ps ih =>
    rw [putParameter, List.map_cons, putKey_cons]
    split
    · rw [List.map_cons, ‹q.key = p.key›]
    · rw [List.map_cons, ih]

/-! ## All parameters -/

/-- **Each key keeps its first place.** -/
theorem keys_foldl_putParameter (ps : List Parameter) :
    (ps.foldl putParameter []).map Parameter.key = (ps.map Parameter.key).eraseDups :=
  map_foldl_of_putKey keys_putParameter

theorem nodup_keys_foldl_putParameter (ps : List Parameter) :
    ((ps.foldl putParameter []).map Parameter.key).Nodup := by
  rw [keys_foldl_putParameter]
  exact nodup_eraseDups _

theorem find?_foldl_putParameter_nil (ps : List Parameter) (key : Text) :
    Parameter.find? (ps.foldl putParameter []) key = lastValue? ps key := by
  rw [find?_foldl_putParameter, lastValue?]
  exact Option.or_none

theorem merged_foldl_putParameter (ps : List Parameter) : Merged ps (ps.foldl putParameter []) where
  keys_eq := keys_foldl_putParameter ps
  nodup_keys := nodup_keys_foldl_putParameter ps
  value_eq p hp := by
    have hfind := (find?_eq_some_of_nodup (nodup_keys_foldl_putParameter ps)).mpr ⟨hp, rfl⟩
    rw [← find?_foldl_putParameter_nil, Parameter.find?, hfind, Option.map_some]

end Entry

/-! ## The parameters of a template -/

/-- The parameters that a template writes for an identifier, in their order. -/
def Template.parametersOf (s k : Text) : List Parameter :=
  writtenParameters (ofIdentifier k (readings s).reduceOption)

namespace Registry

/-- **The parameters of an entry are those written for its identifier, merged.** -/
theorem merged_of_mem_entries {s : Text} {e : Entry} (he : e ∈ (ofTemplate s).entries) :
    Merged (Template.parametersOf s e.identifier) e.parameters ∧
      ∀ key, e.parameter? key = lastValue? (Template.parametersOf s e.identifier) key := by
  have hparameters := ((numbered_ofTemplate s).reflects.records he).parameters
  refine ⟨?_, fun key => ?_⟩
  · rw [hparameters]
    exact Entry.merged_foldl_putParameter _
  · rw [Entry.parameter?, hparameters]
    exact Entry.find?_foldl_putParameter_nil _ key

/-- A key that is written again within one placeholder and in a reference, with a comment of the
same identifier between. -/
theorem merged_of_mem_entries_again :
    let s := Template.braced "@a, x=1, y=2, x=3".toList ++ Template.braced "#a".toList ++
      Template.braced "a, z=5, x=4".toList
    let e : Entry := ⟨['a'], true, true, true, some 0, 0,
      [⟨['x'], ['4']⟩, ⟨['y'], ['2']⟩, ⟨['z'], ['5']⟩]⟩
    e ∈ (ofTemplate s).entries ∧ Merged (Template.parametersOf s e.identifier) e.parameters ∧
      ∀ key, e.parameter? key = lastValue? (Template.parametersOf s e.identifier) key := by
  intro s e
  have he : e ∈ (ofTemplate s).entries := by decide +kernel
  exact ⟨he, merged_of_mem_entries he⟩

end Registry

end PromptTemplate
