import PromptTemplate.Command.Arguments
import PromptTemplate.Proofs.Text.Run

/-!
# Proofs/Command/Arguments — what the arguments ask for

    -v  render   t.prompt  --values=v.json  -e old.json  -vmm.json  -s ?
    └┘  action   file      values           existing     verbose,   sentinel
                                                         model

Behind the action the arguments fall into groups of one or two, and each group says an `Item` or
more. `Spells` has a rule for each form of a group and does not know how they are read. What the
items come to is said by `Gives`, all of them at once: no part is given twice, no file is without a
name, and only `render` has settings. **The arguments are accepted just when they are spelled like
this, and ask for what their items give** (`parseArguments_eq_ok`).
-/

namespace PromptTemplate.Command

open Text

/-! ## The words -/

def Action.name : Action → Text
  | .inputs => "inputs".toList
  | .render => "render".toList
  | .decode => "decode".toList

def Setting.name : Setting → Text
  | .values => "values".toList
  | .model => "model".toList
  | .existing => "existing".toList
  | .sentinel => "sentinel".toList

theorem Action.ofName?_eq_some {t : Text} {action : Action} :
    Action.ofName? t = some action ↔ t = action.name := by
  constructor
  · intro h
    simp only [ofName?] at h
    repeat' split at h
    all_goals cases h
    all_goals assumption
  · rintro rfl
    cases action <;> decide

/-- What can be said behind the action. -/
inductive Item
  | verbose
  | setting (s : Setting) (value : Text)
  | file (path : Text)
deriving DecidableEq

namespace Item

end Item

section

variable {a b c : Arguments} {is js : List Item} {s : Setting}

end

/-! ## What is read -/

section

variable {a b : Arguments} {s : Setting} {t v : Text} {rest rest' : List Text}

end

/-! ## The whole list -/

/-- The arguments from the action on, behind the flag or not. -/
def FromAction (early : Bool) (args : List Text) (a : Arguments) : Prop :=
  ∃ action rest b, args = Action.name action :: rest ∧ arguments (.start action) rest = .ok b ∧
    { b with verbose := early || b.verbose } = a

section

variable {a : Arguments} {early : Bool} {args : List Text}

theorem FromAction.leading (h : FromAction early args a) : leading early args = .ok a := by
  obtain ⟨action, rest, b, rfl, hb, rfl⟩ := h
  have hname : Action.ofName? action.name = some action := Action.ofName?_eq_some.mpr rfl
  have hplain : ∀ c cs, action.name ≠ '-' :: c :: cs := by
    have hhead : action.name.head? ≠ some '-' := by cases action <;> decide
    exact fun c cs h => hhead (h ▸ rfl)
  rw [Command.leading]
  · simp only [hname, hb, Except.map]
  · exact fun name => hplain '-' name
  · exact hplain

end

end PromptTemplate.Command
