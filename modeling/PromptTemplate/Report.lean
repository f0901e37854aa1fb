import PromptTemplate.Placeholder.Fault
import PromptTemplate.Template.Registry
import PromptTemplate.Text.Width

/-!
# Report — an issue shown in its source

A report is a box around the lines that an issue concerns, with line numbers and a mark below the
concerned characters. **Its offsets count characters**; an issue whose end lies behind the end of
the source has no box. An issue within one line is underlined; one over several lines is drawn as
an arrow along the margin, from its first line to its last.
-/

namespace PromptTemplate.Report

/-- A line with its end, after `offset` characters. -/
structure Line where
  offset : Nat
  text : Text

namespace Line

def stop (l : Line) : Nat := l.offset + l.text.length

/-- Whether the line has the character at an offset. -/
def has (l : Line) (offset : Nat) : Bool := l.offset ≤ offset && offset < l.stop

/-- The line without the blanks at its end. -/
def shown (l : Line) : Text := Text.trimEnd l.text

end Line

/-- The characters that end a line. -/
def endsLine (c : Char) : Bool :=
  c == '\n' || c == '\r' || c == '\x0b' || c == '\x0c' || c.toNat == 0x85 || c.toNat == 0x2028
    || c.toNat == 0x2029

/-- The first line of a text, with its end, and what follows it. -/
def cutLine : Text → Text × Text
  | [] => ([], [])
  | '\r' :: '\n' :: r => (['\r', '\n'], r)
  | c :: r => if endsLine c then ([c], r) else (c :: (cutLine r).1, (cutLine r).2)

theorem cutLine_append (s : Text) : (cutLine s).1 ++ (cutLine s).2 = s := by
  fun_induction cutLine s with
  | case1 => rfl
  | case2 => rfl
  | case3 => rfl
  | case4 c r _ _ ih => simp [ih]

theorem cutLine_rest_lt (c : Char) (r : Text) : (cutLine (c :: r)).2.length ≤ r.length := by
  have h := congrArg List.length (cutLine_append (c :: r))
  have hpos : 0 < (cutLine (c :: r)).1.length := by
    rw [cutLine.eq_def]
    repeat' split
    all_goals simp_all
  simp only [List.length_append, List.length_cons] at h
  omega

/-- The lines of a text whose first character has the given offset. -/
def linesFrom (offset : Nat) (s : Text) : List Line :=
  match s with
  | [] => []
  | c :: r =>
    ⟨offset, (cutLine (c :: r)).1⟩
      :: linesFrom (offset + (cutLine (c :: r)).1.length) (cutLine (c :: r)).2
termination_by s.length
decreasing_by
  have := cutLine_rest_lt c r
  simp only [List.length_cons]
  omega

/-- The lines of a source; an empty one has none. -/
def lines (s : Text) : List Line := linesFrom 0 s

/-- The line of a character and its index; the end of the source belongs to its last line. -/
def locate (s : Text) (offset : Nat) : Option (Nat × Line) :=
  if s.length < offset then none
  else
    let ls := lines s
    let n := (ls.takeWhile (·.offset ≤ offset)).length
    ls[n - 1]?.map (n - 1, ·)

/-- The last character that an issue concerns, or the place that it is at. -/
def lastOffset (i : Issue) : Nat := max (i.stop - 1) i.start

/-! ## Columns -/

/-- The columns of a character, the one with the given index in its line. A tab goes on to the
next multiple of four. -/
def columns (c : Char) (index : Nat) : Nat :=
  if c = '\t' then (index / 4 + 1) * 4 - index
  else if Text.isBlank c then 1
  else Text.width c

/-- A character as it is shown; of blanks only the columns are. -/
def showChar (c : Char) (index : Nat) : Text :=
  if Text.isBlank c then List.replicate (columns c index) ' ' else [c]

def showLine (l : Line) : Text := (l.shown.mapIdx fun i c => showChar c i).flatten

/-- One row of marks under a line: under each character its mark, continued by its tail over the
columns of the character; behind the line every mark has one column. -/
def markRow (l : Line) (count : Nat) (mark : Nat → Char × Char) : Text :=
  let widths := l.shown.mapIdx fun i c => columns c i
  let widths := widths.take count ++ List.replicate (count - widths.length) 1
  (widths.mapIdx fun i n =>
    match n with
    | 0 => []
    | n + 1 => (mark i).1 :: List.replicate n (mark i).2).flatten

/-! ## The box -/

def spaces (n : Nat) : Text := List.replicate n ' '

/-- The margin of a line with its number. -/
def numberMargin (width index : Nat) : Text :=
  let n := Decimal.digits (index + 1)
  ' ' :: spaces (width - n.length) ++ n ++ " │ ".toList

/-- The margin of a row without a number. -/
def margin (width : Nat) (bar : Char) : Text := spaces (width + 2) ++ [bar, ' ']

/-- What is written at the mark of an issue. -/
def labelText (i : Issue) : Text :=
  i.message ++ if i.expected.isEmpty then []
    else "\nExpected: ".toList ++ (", ".toList).intercalate i.expected

/-- A line with the mark of an issue within it. -/
def inlineRows (width index : Nat) (l : Line) (i : Issue) : Text :=
  let middle := max ((i.start + i.stop) / 2) i.start - l.offset
  let count := i.stop - l.offset + 2
  let under (k : Nat) : Bool := i.start ≤ l.offset + k && l.offset + k < i.stop
  let upper (k : Nat) : Char × Char :=
    if k = middle then if under k then ('┬', '─') else ('│', ' ')
    else if under k then ('─', '─') else (' ', ' ')
  let lower (k : Nat) : Char × Char :=
    if k = middle then ('╰', '─') else if middle < k then ('─', '─') else (' ', ' ')
  numberMargin width index ++ showLine l ++ ['\n']
    ++ margin width '│' ++ markRow l count upper ++ ['\n']
    ++ margin width '│' ++ markRow l count lower ++ ' ' :: labelText i ++ ['\n']

/-- The first line of an issue over several lines. -/
def firstRow (width index : Nat) (l : Line) : Text :=
  numberMargin width index ++ "╭─▶ ".toList ++ showLine l ++ ['\n']

/-- The last line of an issue over several lines. -/
def lastRows (width index : Nat) (l : Line) (i : Issue) : Text :=
  let count := l.text.length + 2
  numberMargin width index ++ "├─▶ ".toList ++ showLine l ++ ['\n']
    ++ margin width '│' ++ "│   ".toList ++ markRow l count (fun _ => (' ', ' ')) ++ ['\n']
    ++ margin width '│' ++ "╰───".toList ++ markRow l count (fun _ => ('─', '─'))
    ++ ' ' :: labelText i ++ ['\n']

/-- The rows of an issue over several lines, from the line with the given index on; all lines
between its first and its last are left out behind one row. -/
def multilineRows (width : Nat) (i : Issue) (leftOut : Bool) (index : Nat) : List Line → Text
  | [] => []
  | l :: ls =>
    if l.has i.start then firstRow width index l ++ multilineRows width i false (index + 1) ls
    else if l.has (lastOffset i) then
      lastRows width index l i ++ multilineRows width i false (index + 1) ls
    else if leftOut then multilineRows width i true (index + 1) ls
    else margin width '┆' ++ "┆   \n".toList ++ multilineRows width i true (index + 1) ls

/-- The rows of an issue that begins in line `first` and ends in line `last`. -/
def rows (width : Nat) (s : Text) (i : Issue) (first last : Nat × Line) : Text :=
  if first.1 = last.1 then
    if i.stop ≤ first.2.stop then inlineRows width first.1 first.2 i
    else margin width '│' ++ ['\n']
  else multilineRows width i false first.1 (((lines s).drop first.1).take (last.1 + 1 - first.1))

/-- The box of an issue that begins in line `first` and ends in line `last`. -/
def box (file s : Text) (i : Issue) (first last : Nat × Line) : Text :=
  let width := (Decimal.digits (last.1 + 1)).length
  spaces (width + 2) ++ "╭─[".toList ++ file ++ ':' :: Decimal.digits (first.1 + 1)
    ++ ':' :: Decimal.digits (i.start - first.2.offset + 1) ++ [']', '\n']
    ++ spaces (width + 2) ++ ['│', '\n']
    ++ rows width s i first last
    ++ List.replicate (width + 2) '─' ++ ['╯', '\n']

/-- The report of an issue in a source. -/
def ofIssue (file s : Text) (i : Issue) : Text :=
  "Error: ".toList ++ i.message ++ '\n' ::
    match locate s i.start, locate s (lastOffset i) with
    | some first, some last => box file s i first last
    | _, _ => []

end PromptTemplate.Report

namespace PromptTemplate.Diagnostic

/-- The reports of all issues of a diagnostic. -/
def report (file s : Text) (d : Diagnostic) : Text :=
  ['\n'].intercalate (d.issues.map (Report.ofIssue file s))

end PromptTemplate.Diagnostic
