import PromptTemplate.Content.Model

/-!
# Content/Instructions — asking for a response of a given shape

The text that follows a prompt when a content model is bound: **one line for each text-like field,
in the order of the model, and one for the name of the variation**.
-/

namespace PromptTemplate

namespace ContentModel

/-- The fields that can appear in a response. -/
def textFields (m : ContentModel) : List ContentField := m.fields.filter (·.kind.isTextLike)

end ContentModel

namespace Instructions

/-- A text that is there and not blank. -/
def usable (t : Option Text) : Option Text := t.filter (!Text.isAllBlank ·)

/-- The text of a value that a field has now, unless it is `null` or a blank text. -/
def priorText (v : Json) : Option Text :=
  match v with
  | .null => none
  | .string t => usable (some t)
  | v => some (Json.print v)

/-- What is said of a field: its description, else its label, else its present value, else its
name. -/
def describe (existing : Option ExistingContent) (f : ContentField) : Text :=
  (usable f.description
    <|> usable f.label
    <|> ((existing.bind (Json.member? · f.name)).bind priorText)).getD f.name

/-- The line of a key. -/
def line (key description : Text) : Text :=
  '-' :: ' ' :: '"' :: key ++ '"' :: ':' :: ' ' :: description ++ ['\n']

def variationKey : Text := "variationName".toList

def variationDescription : Text :=
  "A short, descriptive name for this variation, shown when choosing between results".toList

def opening : Text :=
  ("\n\nFormat the response as a JSON array. Each element of the array is one " ++
    "variation: a JSON object with exactly these keys:\n").toList

def closing : Text :=
  "Respond with the JSON array only, without any surrounding text.".toList

/-- The instructions for a model. -/
def ofModel (m : ContentModel) (existing : Option ExistingContent) : Text :=
  opening ++ m.textFields.flatMap (fun f => line f.name (describe existing f))
    ++ line variationKey variationDescription ++ closing

/-- The instructions, if a model is bound. -/
def text (model : Option ContentModel) (existing : Option ExistingContent) : Text :=
  match model with
  | none => []
  | some m => ofModel m existing

end Instructions

end PromptTemplate
