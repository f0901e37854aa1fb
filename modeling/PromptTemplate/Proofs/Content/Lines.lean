import Mathlib.Data.List.Basic
import PromptTemplate.Content.Instructions

/-!
# Proofs/Content/Lines — the lines of the instructions

    - "title": Headline,          a description with a newline in it:
    at most 60 characters         two lines for one field
    - "body": Body
    - "variationName": A short, descriptive name for this variation, …

Names and descriptions, wherever they come from, go into the lines as they are, so a field takes as
many lines as its name and its description have together (`lines_text`). **The lines list the fields
just when none of these texts has a newline** (`lists_text_iff`).
-/

namespace PromptTemplate.Instructions

/-- What the line of a key begins with. -/
def lead (key : Text) : Text := '-' :: ' ' :: '"' :: key ++ ['"', ':', ' ']

/-- What stands for a field, without the newline behind it. -/
def entry (existing : Option ExistingContent) (f : ContentField) : Text :=
  lead f.name ++ describe existing f

def variationEntry : Text := lead variationKey ++ variationDescription

/-- The line in front of the keys. -/
def instruction : Text :=
  ("Format the response as a JSON array. Each element of the array is one variation: " ++
    "a JSON object with exactly these keys:").toList

/-- The lines of a text. -/
def lines (t : Text) : List Text := t.splitOn '\n'

/-- The lines between the instruction and the closing line list the text-like fields of a model: one
line for each of them, in the order of the model, and one for the name of the variation. -/
def Lists (m : ContentModel) (t : Text) : Prop :=
  ∃ ls, lines t = [] :: [] :: instruction :: (ls ++ [closing]) ∧
    ls.length = m.textFields.length + 1 ∧
    (∀ (i : Nat) (f : ContentField), m.textFields[i]? = some f →
      ∃ l, ls[i]? = some l ∧ lead f.name <+: l) ∧
    ls.getLast? = some variationEntry

/-! ## Lines -/

theorem lines_of_not_mem {t : Text} (h : '\n' ∉ t) : lines t = [t] := List.splitOn_eq_singleton h

theorem lines_append_newline (s t : Text) : lines (s ++ '\n' :: t) = lines s ++ lines t :=
  List.splitOn_append_cons_self s t

theorem lines_newline_cons (t : Text) : lines ('\n' :: t) = [] :: lines t :=
  lines_append_newline [] t

/-- A text has one line more than it has newlines. -/
theorem length_lines (t : Text) : (lines t).length = t.count '\n' + 1 := by
  induction t with
  | nil => rfl
  | cons c t ih =>
    rw [lines] at ih
    rw [lines, List.splitOn_cons_eq_if_modifyHead, List.count_cons]
    split
    · rw [List.length_cons, ih]
    · rw [List.length_modifyHead, ih, Nat.add_zero]

section

variable (m : ContentModel) (existing : Option ExistingContent)

theorem line_eq (key description : Text) :
    line key description = lead key ++ description ++ ['\n'] := by
  simp [line, lead]

theorem lines_flatMap_line (fs : List ContentField) (t : Text) :
    lines (fs.flatMap (fun f => line f.name (describe existing f)) ++ t) =
      fs.flatMap (fun f => lines (entry existing f)) ++ lines t := by
  induction fs with
  | nil => rfl
  | cons f fs ih =>
    rw [List.flatMap_cons, List.flatMap_cons, line_eq, ← entry, List.append_assoc,
      List.append_assoc, List.singleton_append, lines_append_newline, ih, List.append_assoc]

theorem opening_eq : opening = '\n' :: '\n' :: (instruction ++ ['\n']) := by
  decide +kernel

/-- **A field takes as many lines as its name and its description have.** -/
theorem lines_text : lines (text (some m) existing) =
    [] :: [] :: instruction ::
      (m.textFields.flatMap (fun f => lines (entry existing f)) ++ [variationEntry] ++
        [closing]) := by
  have hinstruction : '\n' ∉ instruction := by decide +kernel
  have hvariation : '\n' ∉ variationEntry := by decide +kernel
  have hclosing : '\n' ∉ closing := by decide +kernel
  rw [text, ofModel, line_eq variationKey, ← variationEntry, opening_eq]
  simp only [List.append_assoc, List.cons_append, List.nil_append, lines_newline_cons,
    lines_append_newline, lines_flatMap_line, lines_of_not_mem hinstruction,
    lines_of_not_mem hvariation, lines_of_not_mem hclosing]

end

/-! ## One line for each field -/

/-- A field takes one line, and one more for each newline in its name or its description. -/
theorem length_flatMap_lines (existing : Option ExistingContent) (fs : List ContentField) :
    (fs.flatMap fun f => lines (entry existing f)).length =
      fs.length + (fs.flatMap (entry existing)).count '\n' := by
  induction fs with
  | nil => rfl
  | cons f fs ih =>
    rw [List.flatMap_cons, List.length_append, ih, length_lines, List.flatMap_cons,
      List.count_append, List.length_cons]
    omega

theorem newline_mem_entry {existing : Option ExistingContent} {f : ContentField} :
    '\n' ∈ entry existing f ↔ '\n' ∈ f.name ∨ '\n' ∈ describe existing f := by
  simp [entry, lead]

/-- The lines list the fields just when each of these takes one. -/
theorem lists_iff {m : ContentModel} {existing : Option ExistingContent} :
    Lists m (text (some m) existing) ↔ ∀ f ∈ m.textFields, '\n' ∉ entry existing f := by
  constructor
  · rintro ⟨ls, hlines, hlength, -⟩ f hf
    rw [lines_text, List.cons.injEq, List.cons.injEq, List.cons.injEq] at hlines
    obtain rfl := List.append_cancel_right hlines.2.2.2
    rw [List.length_append, length_flatMap_lines, List.length_singleton] at hlength
    have hnone : (m.textFields.flatMap (entry existing)).count '\n' = 0 := by omega
    exact fun h => List.count_eq_zero.mp hnone (List.mem_flatMap_of_mem hf h)
  · intro h
    have hentries : m.textFields.flatMap (fun f => lines (entry existing f)) =
        m.textFields.map (entry existing) := by
      rw [List.map_eq_flatMap]
      exact List.flatMap_congr fun f hf => lines_of_not_mem (h f hf)
    refine ⟨_, lines_text m existing, ?_, fun i f hf => ⟨entry existing f, ?_, ?_⟩, ?_⟩
    · rw [hentries, List.length_append, List.length_map, List.length_singleton]
    · rw [hentries, List.getElem?_append_left, List.getElem?_map, hf, Option.map_some]
      rw [List.length_map]
      exact (List.getElem?_eq_some_iff.mp hf).1
    · exact List.prefix_append _ _
    · exact List.getLast?_concat

/-- **The lines list the fields just when no name and no description has a newline.** -/
theorem lists_text_iff (m : ContentModel) (existing : Option ExistingContent) :
    lines (text (some m) existing) =
      [] :: [] :: instruction ::
        (m.textFields.flatMap (fun f => lines (lead f.name ++ describe existing f)) ++
          [variationEntry] ++ [closing]) ∧
    (Lists m (text (some m) existing) ↔
      ∀ f ∈ m.textFields, '\n' ∉ f.name ∧ '\n' ∉ describe existing f) := by
  refine ⟨lines_text m existing, lists_iff.trans ?_⟩
  refine forall₂_congr fun f _ => ?_
  rw [newline_mem_entry, not_or]

/-- A description of two lines takes two lines. -/
theorem exists_not_lists_text :
    ¬ ∀ (m : ContentModel) (existing : Option ExistingContent),
      Lists m (text (some m) existing) := by
  intro h
  have hentry := lists_iff.mp
    (h ⟨none, [⟨"title".toList, none, some "a\nb".toList, .text⟩]⟩ none) _ List.mem_cons_self
  exact hentry (by decide +kernel)

end PromptTemplate.Instructions
