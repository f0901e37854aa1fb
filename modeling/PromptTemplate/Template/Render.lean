import PromptTemplate.Template.Registry

/-!
# Template/Render — filling in a template

Definitions and comments vanish, a reference becomes the text of its value, and where there is no
usable value the sentinel stands. Then, if asked for, every run of blank lines shrinks to one blank
line, and the ends are trimmed.
-/

namespace PromptTemplate

open Placeholder

structure RenderConfig where
  /-- The text for a missing or blank value. -/
  sentinel : Text
  /-- Whether runs of blank lines shrink to one. -/
  collapse : Bool
deriving DecidableEq, Repr

namespace RenderConfig

def default : RenderConfig := ⟨"<please_select>".toList, true⟩

instance : Inhabited RenderConfig := ⟨default⟩

end RenderConfig

namespace Template

/-- What a placeholder leaves in the text. -/
def substituteNode (values : Values) (config : RenderConfig) (n : Node) : Text :=
  if n.modifier.isMetadata then []
  else
    match values.nonBlank? n.identifier with
    | some v => v.display
    | none => config.sentinel

/-- What an occurrence leaves in the text. One that is no placeholder has no value; it counts as a
reference unless it begins with a sign. -/
def substitute (values : Values) (config : RenderConfig) (body : Text) : Text :=
  match Placeholder.parse (braced body) with
  | .ok n => substituteNode values config n
  | .error _ => if modifierOf body = .reference then config.sentinel else []

def renderPiece (values : Values) (config : RenderConfig) : Piece → Text
  | .char c => [c]
  | .occurrence body => substitute values config body

/-! ## Blank lines -/

/-- Characters that may stand on a blank line. -/
def isPadding (c : Char) : Bool := c == ' ' || c == '\t' || c == '\r'

/-- What follows the blank line at the front of a text. -/
def afterBlankLine? (s : Text) : Option Text :=
  match s.dropWhile isPadding with
  | '\n' :: r => some r
  | _ => none

theorem afterBlankLine?_lt {s r : Text} (h : afterBlankLine? s = some r) :
    r.length < s.length := by
  have hd := (List.dropWhile_sublist isPadding (l := s)).length_le
  simp only [afterBlankLine?] at h
  split at h
  · rename_i hs
    simp at h
    rw [hs, List.length_cons] at hd
    rw [← h]
    omega
  · simp at h

/-- What follows the blank lines at the front of a text. -/
def afterBlankLines (s : Text) : Text :=
  match _h : afterBlankLine? s with
  | some r => afterBlankLines r
  | none => s
termination_by s.length
decreasing_by exact afterBlankLine?_lt _h

theorem afterBlankLines_le (s : Text) : (afterBlankLines s).length ≤ s.length := by
  fun_induction afterBlankLines s with
  | case1 s r h ih => exact Nat.le_of_lt (Nat.lt_of_le_of_lt ih (afterBlankLine?_lt h))
  | case2 => exact Nat.le_refl _

/-- What follows the run of two or more blank lines at the front of a text. -/
def afterBlankRun? (s : Text) : Option Text :=
  match afterBlankLine? s with
  | some r => (afterBlankLine? r).map afterBlankLines
  | none => none

theorem afterBlankRun?_lt {s r : Text} (h : afterBlankRun? s = some r) : r.length < s.length := by
  simp only [afterBlankRun?] at h
  split at h
  · rename_i t ht
    obtain ⟨u, hu, rfl⟩ := Option.map_eq_some_iff.mp h
    have := afterBlankLine?_lt ht
    have := afterBlankLine?_lt hu
    have := afterBlankLines_le u
    omega
  · simp at h

/-- The line end at the front of a text and what follows it. -/
def lineEnd? : Text → Option (Text × Text)
  | '\r' :: '\n' :: r => some (['\r', '\n'], r)
  | '\n' :: r => some (['\n'], r)
  | _ => none

theorem lineEnd?_lt {s e r : Text} (h : lineEnd? s = some (e, r)) : r.length < s.length := by
  simp only [lineEnd?] at h
  split at h
  · obtain ⟨-, rfl⟩ := Prod.mk.inj (Option.some.inj h)
    simp only [List.length_cons]
    omega
  · obtain ⟨-, rfl⟩ := Prod.mk.inj (Option.some.inj h)
    simp only [List.length_cons]
    omega
  · exact absurd h (by simp)

/-- The line end at the front of a text, if a run of blank lines follows it, and what follows
the run. -/
def blankRun? (s : Text) : Option (Text × Text) :=
  match lineEnd? s with
  | some (e, r) => (afterBlankRun? r).map (e, ·)
  | none => none

theorem blankRun?_lt {s e r : Text} (h : blankRun? s = some (e, r)) : r.length < s.length := by
  simp only [blankRun?] at h
  split at h
  · rename_i hl
    obtain ⟨u, hu, hr⟩ := Option.map_eq_some_iff.mp h
    simp only [Prod.mk.injEq] at hr
    have := lineEnd?_lt hl
    have := afterBlankRun?_lt hu
    rw [← hr.2]
    omega
  · simp at h

/-- The text with one blank line for every run of two or more; it takes the line end before the
run. -/
def collapseBlankLines (s : Text) : Text :=
  match _h : blankRun? s with
  | some (e, r) => e ++ e ++ collapseBlankLines r
  | none =>
    match s with
    | [] => []
    | c :: r => c :: collapseBlankLines r
termination_by s.length
decreasing_by
  · exact blankRun?_lt _h
  · simp

/-! ## Whole templates -/

/-- The template with its occurrences replaced, before blank lines are looked at. -/
def fill (values : Values) (config : RenderConfig) (s : Text) : Text :=
  (pieces s).flatMap (renderPiece values config)

/-- The text of a template for the given values. -/
def render (values : Values) (config : RenderConfig) (s : Text) : Text :=
  let filled := fill values config s
  Text.trim (if config.collapse then collapseBlankLines filled else filled)

end Template

end PromptTemplate
