import PromptTemplate.Content.Model
import PromptTemplate.Values.Json
import PromptTemplate.Values.Toml

/-!
# Load — values, models and existing content from their texts

What is loaded comes from a file or from a text at hand. Each fault keeps its cause; its message
names what was loaded and, for a text, the place in it.
-/

namespace PromptTemplate

/-- Why values could not be loaded. -/
inductive ValuesFault
  | file (reason : Text)
  | json (f : Json.Fault) (source : Text)
  | toml (f : Toml.Fault) (source : Text)

def ValuesFault.message : ValuesFault → Text
  | file reason => "Failed to read values file: ".toList ++ reason
  | json f source => ("Failed to parse values JSON: " ++ f.message source).toList
  | toml f source => ("Failed to parse values TOML: " ++ f.message source).toList

/-- Why a content model could not be loaded. -/
inductive ModelFault
  | file (reason : Text)
  | json (f : Json.Fault) (source : Text)

def ModelFault.message : ModelFault → Text
  | file reason => "Failed to read content model file: ".toList ++ reason
  | json f source => ("Failed to parse content model JSON: " ++ f.message source).toList

namespace Values

def loadJson (s : Text) : Except ValuesFault Values := (ofJson s).mapError (.json · s)

def loadToml (s : Text) : Except ValuesFault Values := (ofToml s).mapError (.toml · s)

end Values

def ContentModel.load (s : Text) : Except ModelFault ContentModel :=
  (ContentModel.ofJson s).mapError (.json · s)

/-- The message of existing content that could not be loaded is the bare fault. -/
def ExistingContent.load (s : Text) : Except Text ExistingContent :=
  (ExistingContent.ofJson s).mapError fun f => (f.message s).toList

end PromptTemplate
