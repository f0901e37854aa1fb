import PromptTemplate.Text.Place
import PromptTemplate.Toml.Document

/-!
# Values/Toml — reading values from a TOML text

The text is flat: every key of the top table stands for an integer, a float or a string. **The
first entry that is anything else is the fault**, at its value, or at its header or key if it is a
table.
-/

namespace PromptTemplate

namespace Toml

/-- The text from the beginning of an entry on. -/
def entryPlace (k : Key) : Item → Text
  | .value _ place => place
  | .table _ _ _ place => place.getD k.place
  | .tables (.table _ _ _ place :: _) => place.getD k.place
  | .tables _ => k.place

/-- A fault, by the bytes left to read at its place. -/
structure Fault where
  left : Nat
deriving DecidableEq, Repr

/-- The line and the column of the fault, both from one. -/
def Fault.message (f : Fault) (whole : Text) : String :=
  let place := Place.ofIndex whole (Text.bytes whole - f.left)
  "TOML parse error at line " ++ String.ofList (Decimal.digits place.line)
    ++ ", column " ++ String.ofList (Decimal.digits place.column)

end Toml

namespace Values

open Toml

/-- The values of entries, added to others. -/
def addEntries (vs : Values) : List (Key × Item) → Except Toml.Fault Values
  | [] => .ok vs
  | (k, .value (some v) _) :: es => addEntries (vs.insert k.name v) es
  | (k, i) :: _ => .error ⟨Text.bytes (entryPlace k i)⟩

/-- The values of a TOML text. -/
def ofToml (s : Text) : Except Toml.Fault Values :=
  match Toml.parse s with
  | .error e => .error ⟨Text.bytes e.rest⟩
  | .ok (.table es _ _ _) => addEntries empty es
  | .ok _ => .ok empty

end Values

end PromptTemplate
