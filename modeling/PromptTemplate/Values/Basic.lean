import PromptTemplate.Decimal.Shortest
import PromptTemplate.Json.Basic
import PromptTemplate.Json.Printer

/-!
# Values/Basic — the values of a form and their map

A value is a number, a text or nothing; `null` and a text of blanks are **blank**. `Values` maps
identifiers to values. Its entries are kept in the order of their keys, each key once, so **two
maps with the same values are equal**.
-/

namespace PromptTemplate

inductive Value
  | integer (n : Int64)
  | real (x : Binary64)
  | text (t : Text)
  | null
deriving DecidableEq

namespace Value

/-- Blank values are as good as none. A number is never blank, zero included. -/
def isBlank : Value → Bool
  | null => true
  | text t => t.isAllBlank
  | _ => false

/-- Doubles are displayed with the fewest digits and without an exponent, whole ones without a
fraction; of two equally near decimals the larger magnitude is taken. -/
def realLayout : Decimal.Layout where
  tie := .up
  positional _ := true
  wholeMark := false

def displayReal : Binary64 → Text
  | .finite negative m e => realLayout.finiteText negative m e
  | .infinite true => "-inf".toList
  | .infinite false => "inf".toList
  | .nan => "NaN".toList

/-- The text that stands for a value in a prompt. -/
def display : Value → Text
  | integer n => Decimal.integerText n.toInt
  | real x => displayReal x
  | text t => t
  | null => []

/-- The JSON value that a value is saved as. -/
def toJson : Value → Json
  | integer n => .number (.integer n.toInt)
  | real x => .number (.real x)
  | text t => .string t
  | null => .null

end Value

/-- Entries in the order of their keys, each key once. -/
abbrev Ascending (entries : List (Text × Value)) : Prop :=
  entries.Pairwise fun a b => a.1 < b.1

/-- Puts an entry into its place, instead of the one with the same key. -/
def putEntry (k : Text) (v : Value) : List (Text × Value) → List (Text × Value)
  | [] => [(k, v)]
  | e :: es =>
    if k < e.1 then (k, v) :: e :: es
    else if k = e.1 then (k, v) :: es
    else e :: putEntry k v es

theorem mem_putEntry {k : Text} {v : Value} {es : List (Text × Value)} {e : Text × Value}
    (h : e ∈ putEntry k v es) : e = (k, v) ∨ e ∈ es := by
  induction es with
  | nil => simpa [putEntry] using h
  | cons a es ih =>
    simp only [putEntry] at h
    split at h
    · simpa using h
    · split at h
      · rcases List.mem_cons.mp h with h | h
        · exact .inl h
        · exact .inr (List.mem_cons_of_mem _ h)
      · rcases List.mem_cons.mp h with h | h
        · exact .inr (h ▸ List.mem_cons_self)
        · exact (ih h).imp_right (List.mem_cons_of_mem _)

theorem ascending_putEntry {k : Text} {v : Value} {es : List (Text × Value)}
    (h : Ascending es) : Ascending (putEntry k v es) := by
  induction es with
  | nil => simp [putEntry, Ascending]
  | cons a es ih =>
    obtain ⟨ha, hes⟩ := List.pairwise_cons.mp h
    simp only [putEntry]
    split
    · rename_i hk
      refine List.pairwise_cons.mpr ⟨fun e he => ?_, h⟩
      rcases List.mem_cons.mp he with rfl | he
      · exact hk
      · exact List.lt_trans hk (ha e he)
    · rename_i hlt
      split
      · rename_i hk
        exact List.pairwise_cons.mpr ⟨fun e he => by simpa [hk] using ha e he, hes⟩
      · rename_i hne
        refine List.pairwise_cons.mpr ⟨fun e he => ?_, ih hes⟩
        rcases mem_putEntry he with rfl | he
        · exact Decidable.byContradiction fun h => hne (List.le_antisymm (List.not_lt.mp h) (List.not_lt.mp hlt))
        · exact ha e he

/-- The values of a form, by identifier. -/
structure Values where
  entries : List (Text × Value)
  ascending : Ascending entries
deriving DecidableEq

namespace Values

def empty : Values := ⟨[], .nil⟩

instance : Inhabited Values := ⟨empty⟩

/-- The map with a value for the key, in place of any it had. -/
def insert (vs : Values) (k : Text) (v : Value) : Values :=
  ⟨putEntry k v vs.entries, ascending_putEntry vs.ascending⟩

def get? (vs : Values) (k : Text) : Option Value := (vs.entries.find? (·.1 = k)).map (·.2)

/-- The value of a key unless it is missing or blank. -/
def nonBlank? (vs : Values) (k : Text) : Option Value := (vs.get? k).filter (!·.isBlank)

def size (vs : Values) : Nat := vs.entries.length

def isEmpty (vs : Values) : Bool := vs.entries.isEmpty

/-- The values of a list of pairs; of several with one key the last counts. -/
def ofList (ps : List (Text × Value)) : Values := ps.foldl (fun vs p => vs.insert p.1 p.2) empty

/-- The JSON object that the values are saved as, in the order of the keys. -/
def toJson (vs : Values) : Json := .object (vs.entries.map fun e => (e.1, e.2.toJson))

end Values

end PromptTemplate
