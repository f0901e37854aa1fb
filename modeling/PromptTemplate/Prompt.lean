import PromptTemplate.Content.Instructions
import PromptTemplate.Template.Render

/-!
# Prompt — from a template to the text that is sent

The supplied values are completed by the defaults that the template declares, the template is
rendered, and the instructions of the content model follow.
-/

namespace PromptTemplate

/-- What a prompt is made from, besides its template. -/
structure PromptRequest where
  values : Values
  model : Option ContentModel
  existing : Option ExistingContent
  config : RenderConfig

/-- The prompt of a template. -/
def generatePrompt (template : Text) (q : PromptRequest) : Text :=
  let values := (Registry.ofTemplate template).resolve q.values
  Template.render values q.config template ++ Instructions.text q.model q.existing

end PromptTemplate
