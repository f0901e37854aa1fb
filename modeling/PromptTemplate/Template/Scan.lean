import PromptTemplate.Placeholder.Node

/-!
# Template/Scan — the placeholders of a template

A template is cut into single characters and **occurrences**: two opening braces, a body without
braces, two closing braces. Whether the body makes sense is not asked here. **The pieces make up
the template again** (`flatten_pieces`).
-/

namespace PromptTemplate.Template

open Placeholder

inductive Piece
  | char (c : Char)
  /-- `\{\{body\}\}`, the body without braces. -/
  | occurrence (body : Text)
deriving DecidableEq, Repr

/-- The body of the occurrence at the front of a text and what follows it. -/
def occurrence? : Text → Option (Text × Text)
  | '\x7b' :: '\x7b' :: r =>
    match r.dropWhile fun c => c != '\x7b' && c != '\x7d' with
    | '\x7d' :: '\x7d' :: rest => some (r.takeWhile fun c => c != '\x7b' && c != '\x7d', rest)
    | _ => none
  | _ => none

/-- A body between its braces. -/
def braced (body : Text) : Text := '\x7b' :: '\x7b' :: body ++ ['\x7d', '\x7d']

theorem occurrence?_eq {s body rest : Text} (h : occurrence? s = some (body, rest)) :
    s = braced body ++ rest := by
  simp only [occurrence?] at h
  split at h
  · rename_i r
    split at h
    · rename_i hr
      simp only [Option.some.injEq, Prod.mk.injEq] at h
      obtain ⟨rfl, rfl⟩ := h
      have := List.takeWhile_append_dropWhile
        (p := fun c => c != '\x7b' && c != '\x7d') (l := r)
      rw [hr] at this
      simp [braced, this]
    · simp at h
  · simp at h

/-- The pieces of a template, in order. -/
def pieces (s : Text) : List Piece :=
  match _h : occurrence? s with
  | some (body, rest) => .occurrence body :: pieces rest
  | none =>
    match s with
    | [] => []
    | c :: r => .char c :: pieces r
termination_by s.length
decreasing_by
  · have := congrArg List.length (occurrence?_eq _h)
    simp only [braced, List.length_append, List.length_cons, List.length_nil] at this
    omega
  · simp

def Piece.text : Piece → Text
  | char c => [c]
  | occurrence body => braced body

/-- **The pieces make up the template again.** -/
theorem flatten_pieces (s : Text) : (pieces s).flatMap Piece.text = s := by
  fun_induction pieces s with
  | case1 s body rest h ih => simp [Piece.text, ih, ← occurrence?_eq h]
  | case2 => rfl
  | case3 c r h ih => simp [Piece.text, ih]

/-- An occurrence and the bytes of the template that it takes. -/
structure Occurrence where
  start : Nat
  body : Text
deriving DecidableEq, Repr

namespace Occurrence

def text (o : Occurrence) : Text := braced o.body

def stop (o : Occurrence) : Nat := o.start + Text.bytes o.text

end Occurrence

/-- What a body looks like by its first character that is not blank. -/
def modifierOf (body : Text) : Modifier :=
  match Text.trimStart body with
  | '@' :: _ => .definition
  | '#' :: _ => .comment
  | _ => .reference

/-- The occurrences among pieces, the first of which is at offset `start`. -/
def occurrencesFrom (start : Nat) : List Piece → List Occurrence
  | [] => []
  | .char c :: ps => occurrencesFrom (start + c.utf8Size) ps
  | .occurrence body :: ps =>
    ⟨start, body⟩ :: occurrencesFrom (start + Text.bytes (braced body)) ps

/-- The occurrences of a template, in order. -/
def scan (s : Text) : List Occurrence := occurrencesFrom 0 (pieces s)

end PromptTemplate.Template
