import PromptTemplate.Decimal.Binary64
import PromptTemplate.Text.Basic

/-!
# Json/Basic — JSON values

An integer of 64 bits, signed or not, is kept as it is; every other number is a double. The
members of an object are kept in the order of their first appearance: **a repeated key keeps its
first place and takes its last value** (`put`).
-/

namespace PromptTemplate

namespace Json

inductive Number
  | integer (n : Int)
  | real (x : Binary64)
deriving DecidableEq, Repr

end Json

inductive Json
  | null
  | bool (b : Bool)
  | number (n : Json.Number)
  | string (s : Text)
  | array (items : List Json)
  | object (members : List (Text × Json))

namespace Json

/-- Members of an object, each key once. -/
abbrev Members := List (Text × Json)

/-- A new key goes to the end; a known one keeps its place and takes the new value. -/
def put : Members → Text → Json → Members
  | [], k, v => [(k, v)]
  | (k', v') :: ms, k, v => if k' = k then (k, v) :: ms else (k', v') :: put ms k v

/-- The members that a sequence of written members leaves. -/
def ofWritten (ms : List (Text × Json)) : Members := ms.foldl (fun acc m => put acc m.1 m.2) []

def member? (ms : Members) (k : Text) : Option Json := (ms.find? (·.1 = k)).map (·.2)

end Json

end PromptTemplate
