import PromptTemplate.Json.Reader
import PromptTemplate.Values.Basic

/-!
# Response/Decode — the variants in a response

A response should be a JSON list of variants, but it may be cut off. Then everything behind its
last closing brace is dropped and the outer bracket is closed; if that is no JSON text either, the
whole response is one text.
-/

namespace PromptTemplate.Response

/-- The content of a variant. -/
inductive Content
  | text (t : Text)
  | record (members : Json.Members)

namespace Content

/-- An object is a record; of any other value the text is kept. -/
def ofItem : Json → Content
  | .object ms => record ms
  | .string t => text t
  | v => text (Json.print v)

def toJson : Content → Json
  | text t => .string t
  | record ms => .object ms

end Content

/-- The contents of a whole value. -/
def ofJson : Json → List Content
  | .array vs => vs.map Content.ofItem
  | v => [.ofItem v]

/-- The outer bracket of a response, as the one that closes it. -/
def closer? (s : Text) : Option Char :=
  match Text.trimStart s with
  | '[' :: _ => some ']'
  | '\x7b' :: _ => some '\x7d'
  | _ => none

/-- The text up to and with its last closing brace. -/
def upToLastBrace? (s : Text) : Option Text :=
  match s.reverse.dropWhile (· != '\x7d') with
  | [] => none
  | r => some r.reverse

/-- The contents of a response that is no JSON text. -/
def repair (s : Text) : List Content :=
  match closer? s with
  | none => [.text s]
  | some closer =>
    match upToLastBrace? s with
    | none => if closer = ']' then [] else [.record []]
    | some kept =>
      match Json.parse (kept ++ [closer]) with
      | .ok v => ofJson v
      | .error _ => [.text s]

/-- The contents of the variants in a response. -/
def contents (s : Text) : List Content :=
  match Json.parse s with
  | .ok v => ofJson v
  | .error _ => repair s

/-- A content under an identifier of its own. -/
structure Variant (ι : Type) where
  id : ι
  content : Content

/-- The variants in a response, under the identifiers `id 0`, `id 1`, …. -/
def variants {ι : Type} (id : Nat → ι) (s : Text) : List (Variant ι) :=
  (contents s).mapIdx fun i c => ⟨id i, c⟩

def Variant.toJson (v : Variant Text) : Json :=
  .object [("id".toList, .string v.id), ("content".toList, v.content.toJson)]

end PromptTemplate.Response
