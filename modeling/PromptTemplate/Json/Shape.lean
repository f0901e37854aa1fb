import PromptTemplate.Json.Skip

/-!
# Json/Shape — reading values of a known shape

A text, an optional value, a list, an object whose members are taken up one by one, and a record,
which is written as an object or as the list of its fields. A value of another shape is faulty
where it ends, or where it begins if it has brackets. What a record lacks or repeats is noticed
inside its brackets; the fault is placed where the reader stands **after it has tried to close
them**.
-/

namespace PromptTemplate.Json

/-- The fault of a value read from the text, where another shape was expected. -/
private def foundInstead (expected : String) : Except Fault (Found × Text) → Fault
  | .error f => f
  | .ok (found, r) => .here (.wrongShape found expected) r

/-- The fault of the value at the front of a text, which begins with no blank. -/
def mismatch (expected : String) : Text → Fault
  | [] => .placed .unfinishedValue 0
  | c :: r =>
    if c = 'n' then foundInstead expected ((word ['u', 'l', 'l'] r).map (.null, ·))
    else if c = 't' then foundInstead expected ((word ['r', 'u', 'e'] r).map (.bool true, ·))
    else if c = 'f' then
      foundInstead expected ((word ['a', 'l', 's', 'e'] r).map (.bool false, ·))
    else if c = '-' then
      foundInstead expected ((readNumber true r).map fun (n, t) => (.number n, t))
    else if Decimal.isDigit c then
      foundInstead expected ((readNumber false (c :: r)).map fun (n, t) => (.number n, t))
    else if c = '"' then
      foundInstead expected ((stringBody r).map fun (b, t) => (.string b, t))
    else if c = '[' then .here (.wrongShape .sequence expected) (c :: r)
    else if c = '\x7b' then .here (.wrongShape .map expected) (c :: r)
    else .peek .expectedValue (c :: r)

/-- Reads a string. -/
def readText (expected : String) (s : Text) : Except Fault (Text × Text) :=
  match blanks s with
  | [] => .error (.placed .unfinishedValue 0)
  | c :: r => if c = '"' then stringBody r else .error (mismatch expected (c :: r))

/-- Reads `null` as no value. -/
def readNull (expected : String) (s : Text) : Except Fault Text :=
  match blanks s with
  | [] => .error (.placed .unfinishedValue 0)
  | c :: r => if c = 'n' then word ['u', 'l', 'l'] r else .error (mismatch expected (c :: r))

/-- Reads a value or `null`. -/
def readOptional {α : Type} (read : Text → Except Fault (α × Text)) (s : Text) :
    Except Fault (Option α × Text) :=
  match blanks s with
  | 'n' :: r => (word ['u', 'l', 'l'] r).map (none, ·)
  | _ => (read s).map fun (x, r) => (some x, r)

/-- The text left after an attempt to close a list. -/
def afterList (s : Text) : Text :=
  match blanks s with
  | ']' :: r => r
  | ',' :: r => blanks r
  | r => r

/-- The text left after an attempt to close an object. -/
def afterObject (s : Text) : Text :=
  match blanks s with
  | '\x7d' :: r => r
  | r => r

/-- Reads the inside of a list and closes it. -/
def insideList {α : Type} (read : Text → Except Fault (α × Text)) (s : Text) :
    Except Fault (α × Text) :=
  match read s with
  | .error f => .error (f.settle afterList)
  | .ok (x, r) => (closeList r).map (x, ·)

/-- Reads the inside of an object and closes it. -/
def insideObject {α : Type} (read : Text → Except Fault (α × Text)) (s : Text) :
    Except Fault (α × Text) :=
  match read s with
  | .error f => .error (f.settle afterObject)
  | .ok (x, r) => (closeObject r).map (x, ·)

/-- Reads a list. -/
def readList {α : Type} (item : Reader α) (s : Text) : Except Fault (List α × Text) :=
  match blanks s with
  | [] => .error (.placed .unfinishedValue 0)
  | c :: r =>
    if c = '[' then insideList (items item true) r else .error (mismatch "a sequence" (c :: r))

/-- Reads an object by taking up its members. -/
def readMap {σ : Type} (v : Visitor σ) (start : σ) (s : Text) : Except Fault (σ × Text) :=
  match blanks s with
  | [] => .error (.placed .unfinishedValue 0)
  | c :: r =>
    if c = '\x7b' then insideObject (visitMembers v start true) r
    else .error (mismatch "a map" (c :: r))

/-- Reads a record from an object or from a list. -/
def readRecord {α : Type} (expected : String)
    (fromObject fromList : Text → Except Fault (α × Text)) (s : Text) : Except Fault (α × Text) :=
  match blanks s with
  | [] => .error (.placed .unfinishedValue 0)
  | c :: r =>
    if c = '\x7b' then insideObject fromObject r
    else if c = '[' then insideList fromList r
    else .error (mismatch expected (c :: r))

/-! ## What is read is shorter -/

section Lengths

variable {α σ : Type}

theorem readText_lt {e : String} {s t r : Text} (h : readText e s = .ok (t, r)) :
    r.length < s.length := by
  have hb := blanks_le s
  simp only [readText] at h
  split at h
  · simp at h
  · rename_i hs
    rw [hs, List.length_cons] at hb
    split at h
    · have := stringBody_lt h
      omega
    · simp at h

theorem readNull_lt {e : String} {s r : Text} (h : readNull e s = .ok r) :
    r.length < s.length := by
  have hb := blanks_le s
  simp only [readNull] at h
  split at h
  · simp at h
  · rename_i hs
    rw [hs, List.length_cons] at hb
    split at h
    · have := word_le h
      omega
    · simp at h

theorem readOptional_lt {read : Text → Except Fault (α × Text)}
    (hread : ∀ {s x r}, read s = .ok (x, r) → r.length < s.length)
    {s : Text} {x : Option α} {r : Text} (h : readOptional read s = .ok (x, r)) :
    r.length < s.length := by
  have hb := blanks_le s
  simp only [readOptional] at h
  split at h
  · rename_i hs
    rw [hs, List.length_cons] at hb
    obtain ⟨t, ht, hr⟩ := map_eq_ok h
    simp only [Prod.mk.injEq] at hr
    have := word_le ht
    rw [← hr.2]
    omega
  · obtain ⟨t, ht, hr⟩ := map_eq_ok h
    simp only [Prod.mk.injEq] at hr
    rw [← hr.2]
    exact hread (x := t.1) ht

theorem insideList_lt {read : Text → Except Fault (α × Text)}
    (hread : ∀ {s x r}, read s = .ok (x, r) → r.length ≤ s.length)
    {s : Text} {x : α} {r : Text} (h : insideList read s = .ok (x, r)) : r.length < s.length := by
  simp only [insideList] at h
  split at h
  · simp at h
  · obtain ⟨t, ht, hr⟩ := map_eq_ok h
    simp only [Prod.mk.injEq] at hr
    have := hread ‹_›
    have := closeList_lt ht
    rw [← hr.2]
    omega

theorem insideObject_lt {read : Text → Except Fault (α × Text)}
    (hread : ∀ {s x r}, read s = .ok (x, r) → r.length ≤ s.length)
    {s : Text} {x : α} {r : Text} (h : insideObject read s = .ok (x, r)) :
    r.length < s.length := by
  simp only [insideObject] at h
  split at h
  · simp at h
  · obtain ⟨t, ht, hr⟩ := map_eq_ok h
    simp only [Prod.mk.injEq] at hr
    have := hread ‹_›
    have := closeObject_lt ht
    rw [← hr.2]
    omega

theorem readList_lt {item : Reader α} {s : Text} {xs : List α} {r : Text}
    (h : readList item s = .ok (xs, r)) : r.length < s.length := by
  have hb := blanks_le s
  simp only [readList] at h
  split at h
  · simp at h
  · rename_i hs
    rw [hs, List.length_cons] at hb
    split at h
    · have := insideList_lt (fun h => items_le h) h
      omega
    · simp at h

theorem readRecord_lt {e : String} {fromObject fromList : Text → Except Fault (α × Text)}
    (hobject : ∀ {s x r}, fromObject s = .ok (x, r) → r.length ≤ s.length)
    (hlist : ∀ {s x r}, fromList s = .ok (x, r) → r.length ≤ s.length)
    {s : Text} {x : α} {r : Text} (h : readRecord e fromObject fromList s = .ok (x, r)) :
    r.length < s.length := by
  have hb := blanks_le s
  simp only [readRecord] at h
  split at h
  · simp at h
  · rename_i hs
    rw [hs, List.length_cons] at hb
    split at h
    · have := insideObject_lt hobject h
      omega
    · split at h
      · have := insideList_lt hlist h
        omega
      · simp at h

end Lengths

end PromptTemplate.Json
