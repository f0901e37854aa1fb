import PromptTemplate.Text.Basic

/-!
# Text/Place — lines and columns of a byte offset

Two ways of counting are in use. `Place.ofOffset` counts lines from one and, as the column, the
bytes since the last line feed: the place *after* the characters read so far. `Place.ofIndex`
names the character *at* an offset, and both numbers count from one.
-/

namespace PromptTemplate

structure Place where
  line : Nat
  column : Nat
deriving DecidableEq, Repr

namespace Place

/-- The place after one more character. -/
def next (p : Place) (c : Char) : Place :=
  if c = '\n' then ⟨p.line + 1, 0⟩ else ⟨p.line, p.column + c.utf8Size⟩

/-- The place reached from `p` after `offset` bytes; inside a character, its bytes so far count. -/
def advance (p : Place) : Text → (offset : Nat) → Place
  | [], _ => p
  | c :: t, offset =>
    if c.utf8Size ≤ offset then advance (p.next c) t (offset - c.utf8Size)
    else ⟨p.line, p.column + offset⟩

/-- Line from one, and bytes since the last line feed. -/
def ofOffset (t : Text) (offset : Nat) : Place := advance ⟨1, 0⟩ t offset

/-- The line feeds of a text and what follows the last of them. -/
def lastLine (t : Text) : Nat × Text :=
  (t.count '\n', (t.reverse.takeWhile (· != '\n')).reverse)

/-- The part of a text that lies before a byte offset, with the number of bytes left over where
the offset is inside a character or past the end. -/
def before : Text → (offset : Nat) → Text × Nat
  | [], offset => ([], offset)
  | c :: t, offset =>
    if c.utf8Size ≤ offset then
      let (s, k) := before t (offset - c.utf8Size)
      (c :: s, k)
    else ([], offset)

/-- Line and column, from one, of the character at a byte offset. The column counts characters up
to an ASCII character and bytes up to any other. The end of a text lies one column after its last
character, also where that is a line feed. -/
def ofIndex (t : Text) (offset : Nat) : Place :=
  match t with
  | [] => ⟨1, offset + 1⟩
  | _ =>
    if t.bytes ≤ offset then
      let (lines, s) := lastLine t.dropLast
      ⟨lines + 1, s.length + 2 + (offset - t.bytes)⟩
    else
      let (s, _) := before t offset
      let ahead := t.drop s.length
      let (lines, s) := lastLine s
      match ahead with
      | c :: _ => if c.utf8Size = 1 then ⟨lines + 1, s.length + 1⟩ else ⟨lines + 1, s.bytes + 1⟩
      | [] => ⟨lines + 1, s.length + 1⟩

end Place

end PromptTemplate
