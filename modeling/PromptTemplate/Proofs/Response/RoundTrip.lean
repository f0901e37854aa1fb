import PromptTemplate.Proofs.Json.Printing
import PromptTemplate.Proofs.Response.Repair

/-!
# Proofs/Response/RoundTrip — contents that were printed are decoded again

    text "[1]", record a: 1   →   ["[1]", {"a": 1}]   →   text "[1]", record a: 1

A content is printed as a string or as an object, with nothing beside it that says which. As a
string is a text and an object a record, **the printed list decodes to the same contents**
(`variants_of_printed`), whatever a text looks like.
-/

namespace PromptTemplate.Response

open Json

namespace Content

/-- A content is recognised by its shape. -/
@[simp] theorem ofItem_toJson (c : Content) : ofItem c.toJson = c := by
  cases c with
  | text t => rfl
  | record ms => rfl

/-- The list that contents are printed as. -/
def listToJson (cs : List Content) : Json := .array (cs.map toJson)

/-- A list of contents nests one deeper than its records. -/
theorem storable_listToJson {cs : List Content} {d : Nat}
    (h : ∀ ms, .record ms ∈ cs → Storable d (.object ms)) : Storable (d + 1) (listToJson cs) := by
  refine .array fun v hv => ?_
  obtain ⟨c, hc, rfl⟩ := List.mem_map.mp hv
  cases c with
  | text t => exact .string t
  | record ms => exact h ms hc

theorem ofJson_listToJson (cs : List Content) : ofJson (listToJson cs) = cs := by
  rw [listToJson, ofJson, List.map_map]
  exact List.map_id'' ofItem_toJson cs

end Content

/-- **Contents decode as they were printed**, in one line or over several, kind and order kept.
Texts are any texts; records have each key once, no doubles, and brackets at most 126 deep. -/
theorem variants_of_printed {ι : Type} (id : Nat → ι) {cs : List Content}
    (h : ∀ ms, .record ms ∈ cs → Storable 126 (.object ms)) :
    (variants id (print (Content.listToJson cs))).map Variant.content = cs ∧
      (variants id (pretty (Content.listToJson cs))).map Variant.content = cs := by
  have hstorable : Storable maxDepth (Content.listToJson cs) := Content.storable_listToJson h
  rw [map_content_variants, map_content_variants,
    contents_of_parse (parse_print_of_storable hstorable),
    contents_of_parse (parse_pretty_of_storable hstorable), Content.ofJson_listToJson]
  exact ⟨rfl, rfl⟩

/-- A record with the least and the greatest integer, its keys not in the order of the alphabet. -/
def extremes : List (Text × Json) :=
  [(['b'], .array [.number (.integer (-9223372036854775808)), .null]),
    (['a'], .number (.integer 18446744073709551615))]

/-- A text that looks like a list, beside that record. -/
theorem variants_of_printed_extremes :
    (variants (fun i => i) (print (Content.listToJson
      [.text "[1]\n".toList, .record extremes]))).map Variant.content =
        [.text "[1]\n".toList, .record extremes] ∧
    (variants (fun i => i) (pretty (Content.listToJson
      [.text "[1]\n".toList, .record extremes]))).map Variant.content =
        [.text "[1]\n".toList, .record extremes] := by
  refine variants_of_printed (fun i => i) fun ms hms => ?_
  obtain rfl : ms = extremes := by simpa using hms
  refine .object (fun m hm => ?_) (by decide)
  simp only [extremes, List.mem_cons, List.not_mem_nil, or_false] at hm
  obtain rfl | rfl := hm
  · refine .array fun v hv => ?_
    obtain rfl | rfl := by simpa using hv
    · exact .integer (by decide) (by decide)
    · exact .null
  · exact .integer (by decide) (by decide)

end PromptTemplate.Response
