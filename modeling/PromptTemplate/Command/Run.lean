import PromptTemplate.Command.Arguments
import PromptTemplate.Load
import PromptTemplate.Prompt
import PromptTemplate.Report
import PromptTemplate.Response.Decode

/-!
# Command/Run — what the command line answers

`run` takes the standard input and the files as bytes, and answers with what is written and the exit
code. Reading stops at the first fault, which is written as one line. What is written for the log is
left out: a warning for each placeholder that is skipped and, with `-v`, details of what is loaded
and decoded. So the standard error is empty but for faults, usage and the reports of `inputs`.
-/

namespace PromptTemplate

namespace Command

/-- What the program reads from. -/
structure World where
  stdin : ByteArray
  /-- The bytes of a file, or the reason why there are none. -/
  file : Text → Except Text ByteArray

/-- What the program leaves. The standard error is without lines of the log. -/
structure Outcome where
  code : Nat
  stdout : Text
  stderr : Text

/-- The text that bytes encode. -/
def decodeBytes (b : ByteArray) : Except Text Text :=
  match String.fromUTF8? b with
  | some s => .ok s.toList
  | none => .error "stream did not contain valid UTF-8".toList

def World.text (w : World) (path : Text) : Except Text Text := w.file path >>= decodeBytes

/-- A message about a file. -/
def aboutFile (doing path reason : Text) : Text :=
  doing ++ ' ' :: '\'' :: path ++ '\'' :: ':' :: ' ' :: reason

/-- The template or response: a file, or the standard input. -/
def readInput (w : World) : Option Text → Except Text Text
  | some path => (w.text path).mapError (aboutFile "reading file".toList path)
  | none => (decodeBytes w.stdin).mapError ("reading from stdin: ".toList ++ ·)

/-- The parts of a path that name something. -/
def pathParts (path : Text) : List Text :=
  (path.splitOn '/').filter fun p => !p.isEmpty && p != ['.']

/-- The extension of the last part of a path: what follows its last point, unless that is its
first character. -/
def extension? (path : Text) : Option Text :=
  match (pathParts path).getLast? with
  | none => none
  | some name =>
    if name = ['.', '.'] then none
    else
      match name.reverse.dropWhile (· != '.') with
      | _ :: _ :: _ => some (name.reverse.takeWhile (· != '.')).reverse
      | _ => none

/-- The values of a file: JSON if its extension says so, else TOML. -/
def loadValues (w : World) (path : Text) : Except ValuesFault Values :=
  match w.text path with
  | .error reason => .error (.file reason)
  | .ok s => if extension? path = some "json".toList then Values.loadJson s
    else Values.loadToml s

def loadModel (w : World) (path : Text) : Except ModelFault ContentModel :=
  match w.text path with
  | .error reason => .error (.file reason)
  | .ok s => ContentModel.load s

/-- What is listed of an input. -/
def summary (e : Entry) : Json :=
  let optional (name : String) (t : Option Text) : Json.Members :=
    (t.map fun t => (name.toList, Json.string t)).toList
  .object <|
    [("identifier".toList, .string e.identifier), ("label".toList, .string e.label)]
    ++ optional "type" e.inputType? ++ optional "default" e.default?
    ++ optional "description" e.description?
    ++ [("definition".toList, .bool e.definition)]
    ++ (e.order.map fun i => ("order".toList, Json.number (.integer i))).toList

/-- Lists the inputs of a template and reports what is no placeholder. -/
def runInputs (w : World) (a : Arguments) : Except Text Outcome := do
  let template ← readInput w a.input
  let name := a.input.getD "<stdin>".toList
  let reports := (Registry.diagnostics template).flatMap fun d =>
    d.report name template ++ ['\n']
  let inputs := (Registry.ofTemplate template).inputs
  .ok ⟨0, Json.pretty (.array (inputs.map summary)) ++ ['\n'], reports⟩

/-- Loads what an option names, if it is given. -/
def loadOptional {α : Type} (load : Text → Except Text α) : Option Text → Except Text (Option α)
  | none => .ok none
  | some path => (load path).map some

/-- Writes the prompt of a template. -/
def runRender (w : World) (a : Arguments) : Except Text Outcome := do
  let template ← readInput w a.input
  let values ← loadOptional (fun p =>
    (loadValues w p).mapError fun f => aboutFile "loading values".toList p f.message) a.values
  let model ← loadOptional (fun p =>
    (loadModel w p).mapError fun f => aboutFile "loading content model".toList p f.message) a.model
  let existing ← loadOptional (fun p =>
    (w.text p >>= ExistingContent.load).mapError
      (aboutFile "loading existing content".toList p)) a.existing
  let config := { RenderConfig.default with
    sentinel := a.sentinel.getD RenderConfig.default.sentinel }
  let prompt := generatePrompt template ⟨values.getD .empty, model, existing, config⟩
  .ok ⟨0, prompt ++ ['\n'], []⟩

/-- Lists the variants in a response, under the given identifiers. -/
def runDecode (w : World) (id : Nat → Text) (a : Arguments) : Except Text Outcome := do
  let response ← readInput w a.input
  let variants := (Response.variants id response).map Response.Variant.toJson
  .ok ⟨0, Json.pretty (.array variants) ++ ['\n'], []⟩

/-- Does what the arguments ask for. -/
def perform (w : World) (id : Nat → Text) (a : Arguments) : Except Text Outcome :=
  match a.action with
  | .inputs => runInputs w a
  | .render => runRender w a
  | .decode => runDecode w id a

def usageText : Text :=
  ("Usage:\n  inputs [FILE]\n" ++
    "  render [FILE] [--values FILE] [--model FILE] [--existing FILE] [--sentinel TEXT]\n" ++
    "  decode [FILE]\n").toList

/-- The program but for its log: standard input and files to output and exit code. -/
def run (w : World) (id : Nat → Text) (args : List Text) : Outcome :=
  match parseArguments args with
  | .error .help => ⟨0, usageText, []⟩
  | .error .invalid => ⟨2, [], usageText⟩
  | .ok a =>
    match perform w id a with
    | .ok outcome => outcome
    | .error reason => ⟨1, [], "Error: ".toList ++ reason ++ ['\n']⟩

end Command

end PromptTemplate
