import PromptTemplate.Json.Lexeme

/-!
# Json/Reader — reading values from a JSON text

A `Reader` reads one value from the front of a text and **always takes at least one character**,
so a loop over items or members ends. `items` and `visitMembers` are those loops, for any reader of
an item and any way to take up a member; `valueAt` ties the knot for `Json` itself, its brackets
nested at most as deep as its argument says. `parse` reads a whole text.
-/

namespace PromptTemplate.Json

/-- Reads a value from the front of a text and returns what follows it. -/
structure Reader (α : Type) where
  read : Text → Except Fault (α × Text)
  shrinks : ∀ {s : Text} {x : α} {r : Text}, read s = .ok (x, r) → r.length < s.length

/-- Takes up one member of an object: its key is read, its colon is not. -/
structure Visitor (σ : Type) where
  visit : σ → (key rest : Text) → Except Fault (σ × Text)
  shrinks : ∀ {st : σ} {k s : Text} {st' : σ} {r : Text},
    visit st k s = .ok (st', r) → r.length ≤ s.length

/-- The start of the next item of a list; none before the closing bracket. -/
def nextItem (first : Bool) (s : Text) : Except Fault (Option Text) :=
  match blanks s with
  | [] => .error (.placed .unfinishedList 0)
  | c :: r =>
    if c = ']' then .ok none
    else if first then .ok (some (c :: r))
    else if c = ',' then
      match blanks r with
      | [] => .error (.placed .unfinishedValue 0)
      | d :: t => if d = ']' then .error (.peek .trailingComma (d :: t)) else .ok (some (d :: t))
    else .error (.peek .expectedListEnd (c :: r))

/-- A key whose opening quote is the first character. -/
def keyAt : Text → Except Fault (Option (Text × Text))
  | [] => .error (.placed .unfinishedValue 0)
  | c :: r =>
    if c = '"' then (stringBody r).map some else .error (.peek .keyNotString (c :: r))

/-- The next key of an object and what follows it; none before the closing bracket. -/
def nextKey (first : Bool) (s : Text) : Except Fault (Option (Text × Text)) :=
  match blanks s with
  | [] => .error (.placed .unfinishedObject 0)
  | c :: r =>
    if c = '\x7d' then .ok none
    else if first then keyAt (c :: r)
    else if c = ',' then
      match blanks r with
      | [] => .error (.placed .unfinishedValue 0)
      | d :: t => if d = '\x7d' then .error (.peek .trailingComma (d :: t)) else keyAt (d :: t)
    else .error (.peek .expectedObjectEnd (c :: r))

/-- What follows the colon behind a key. -/
def colon (s : Text) : Except Fault Text :=
  match blanks s with
  | [] => .error (.placed .unfinishedObject 0)
  | c :: r => if c = ':' then .ok r else .error (.peek .expectedColon (c :: r))

theorem nextItem_le {first : Bool} {s r : Text} (h : nextItem first s = .ok (some r)) :
    r.length ≤ s.length := by
  have hb := blanks_le s
  simp only [nextItem] at h
  split at h
  · simp at h
  · rename_i c r' hs
    rw [hs] at hb
    split at h
    · simp at h
    · split at h
      · simp at h
        exact h ▸ hb
      · split at h
        · have hb' := blanks_le r'
          split at h
          · simp at h
          · rename_i d t ht
            rw [ht] at hb'
            split at h
            · simp at h
            · simp at h
              rw [← h]
              simp only [List.length_cons] at hb hb' ⊢
              omega
        · simp at h

theorem keyAt_lt {s k r : Text} (h : keyAt s = .ok (some (k, r))) : r.length < s.length := by
  cases s with
  | nil => simp [keyAt] at h
  | cons c s =>
    simp only [keyAt] at h
    split at h
    · cases hs : stringBody s with
      | error f => simp [hs, Except.map] at h
      | ok p =>
        simp [hs, Except.map] at h
        have := stringBody_lt (t := k) (r := r) (by rw [hs, h])
        exact Nat.lt_succ_of_lt this
    · simp at h

theorem nextKey_lt {first : Bool} {s k r : Text} (h : nextKey first s = .ok (some (k, r))) :
    r.length < s.length := by
  have hb := blanks_le s
  simp only [nextKey] at h
  split at h
  · simp at h
  · rename_i c r' hs
    rw [hs] at hb
    split at h
    · simp at h
    · split at h
      · exact Nat.lt_of_lt_of_le (keyAt_lt h) hb
      · split at h
        · have hb' := blanks_le r'
          split at h
          · simp at h
          · rename_i d t ht
            rw [ht] at hb'
            split at h
            · simp at h
            · have := keyAt_lt h
              simp only [List.length_cons] at hb hb' this
              omega
        · simp at h

theorem colon_lt {s r : Text} (h : colon s = .ok r) : r.length < s.length := by
  have hb := blanks_le s
  simp only [colon] at h
  split at h
  · simp at h
  · rename_i c r' hs
    rw [hs] at hb
    split at h
    · simp at h
      rw [← h]
      exact Nat.lt_of_lt_of_le (Nat.lt_succ_self _) hb
    · simp at h

section Loops

variable {α σ : Type}

/-- The items of a list up to its closing bracket, which is left to be read. -/
def items (item : Reader α) (first : Bool) (s : Text) : Except Fault (List α × Text) :=
  match _hn : nextItem first s with
  | .error f => .error f
  | .ok none => .ok ([], s)
  | .ok (some r) =>
    match _hr : item.read r with
    | .error f => .error f
    | .ok (x, t) =>
      match items item false t with
      | .error f => .error f
      | .ok (xs, u) => .ok (x :: xs, u)
termination_by s.length
decreasing_by exact Nat.lt_of_lt_of_le (item.shrinks _hr) (nextItem_le _hn)

/-- Takes up the members of an object, up to its closing bracket, which is left to be read. -/
def visitMembers (v : Visitor σ) (st : σ) (first : Bool) (s : Text) : Except Fault (σ × Text) :=
  match _hn : nextKey first s with
  | .error f => .error f
  | .ok none => .ok (st, s)
  | .ok (some (k, r)) =>
    match _hr : v.visit st k r with
    | .error f => .error f
    | .ok (st', t) => visitMembers v st' false t
termination_by s.length
decreasing_by exact Nat.lt_of_le_of_lt (v.shrinks _hr) (nextKey_lt _hn)

theorem items_le {item : Reader α} {first : Bool} {s : Text} {xs : List α} {r : Text}
    (h : items item first s = .ok (xs, r)) : r.length ≤ s.length := by
  fun_induction items item first s generalizing xs r with
  | case1 => simp at h
  | case2 => simp at h; simp [h]
  | case3 => simp at h
  | case4 => simp at h
  | case5 first s r' hn x t hr xs' u hi ih =>
    have := ih hi
    have := item.shrinks hr
    have := nextItem_le hn
    simp only [Except.ok.injEq, Prod.mk.injEq] at h
    rw [← h.2]
    omega

theorem visitMembers_le {v : Visitor σ} {st st' : σ} {first : Bool} {s r : Text}
    (h : visitMembers v st first s = .ok (st', r)) : r.length ≤ s.length := by
  fun_induction visitMembers v st first s with
  | case1 => simp at h
  | case2 => simp at h; simp [h]
  | case3 => simp at h
  | case4 st first s k r' hn st'' t hr ih =>
    have := ih h
    have := v.shrinks hr
    have := nextKey_lt hn
    omega

end Loops

/-- The rest after the bracket that closes a list. -/
def closeList (s : Text) : Except Fault Text :=
  match blanks s with
  | [] => .error (.placed .unfinishedList 0)
  | c :: r =>
    if c = ']' then .ok r
    else if c = ',' then
      match blanks r with
      | ']' :: t => .error (.peek .trailingComma (']' :: t))
      | t => .error (.peek .trailingText t)
    else .error (.peek .trailingText (c :: r))

/-- The rest after the bracket that closes an object. -/
def closeObject (s : Text) : Except Fault Text :=
  match blanks s with
  | [] => .error (.placed .unfinishedObject 0)
  | c :: r =>
    if c = '\x7d' then .ok r
    else if c = ',' then .error (.peek .trailingComma (c :: r))
    else .error (.peek .trailingText (c :: r))

theorem closeList_lt {s r : Text} (h : closeList s = .ok r) : r.length < s.length := by
  have hb := blanks_le s
  simp only [closeList] at h
  split at h
  · simp at h
  · rename_i c r' hs
    rw [hs] at hb
    split at h
    · simp at h
      rw [← h]
      exact Nat.lt_of_lt_of_le (Nat.lt_succ_self _) hb
    · split at h
      · split at h <;> simp at h
      · simp at h

theorem closeObject_lt {s r : Text} (h : closeObject s = .ok r) : r.length < s.length := by
  have hb := blanks_le s
  simp only [closeObject] at h
  split at h
  · simp at h
  · rename_i c r' hs
    rw [hs] at hb
    split at h
    · simp at h
      rw [← h]
      exact Nat.lt_of_lt_of_le (Nat.lt_succ_self _) hb
    · split at h <;> simp at h

/-- Takes up a member of any object by its value; a repeated key takes the last one. -/
def putMember (value : Reader Json) : Visitor Members where
  visit ms k s :=
    match colon s with
    | .error f => .error f
    | .ok r =>
      match value.read r with
      | .error f => .error f
      | .ok (v, t) => .ok (put ms k v, t)
  shrinks {ms k s ms' r} h := by
    split at h
    · simp at h
    · rename_i hc
      split at h
      · simp at h
      · rename_i hv
        have := colon_lt hc
        have := value.shrinks hv
        simp only [Except.ok.injEq, Prod.mk.injEq] at h
        rw [← h.2]
        omega

/-- Reads a value; what is inside its brackets is read by `inner`, or not at all. -/
def readValue (inner : Option (Reader Json)) (s : Text) : Except Fault (Json × Text) :=
  match blanks s with
  | [] => .error (.placed .unfinishedValue 0)
  | c :: r =>
    if c = 'n' then (word ['u', 'l', 'l'] r).map (.null, ·)
    else if c = 't' then (word ['r', 'u', 'e'] r).map (.bool true, ·)
    else if c = 'f' then (word ['a', 'l', 's', 'e'] r).map (.bool false, ·)
    else if c = '-' then (readNumber true r).map fun (n, t) => (.number n, t)
    else if Decimal.isDigit c then (readNumber false (c :: r)).map fun (n, t) => (.number n, t)
    else if c = '"' then (stringBody r).map fun (b, t) => (.string b, t)
    else if c = '[' then
      match inner with
      | none => .error (.peek .tooDeep (c :: r))
      | some inner =>
        match items inner true r with
        | .error f => .error f
        | .ok (vs, t) => (closeList t).map (.array vs, ·)
    else if c = '\x7b' then
      match inner with
      | none => .error (.peek .tooDeep (c :: r))
      | some inner =>
        match visitMembers (putMember inner) [] true r with
        | .error f => .error f
        | .ok (ms, t) => (closeObject t).map (.object ms, ·)
    else .error (.peek .expectedValue (c :: r))

theorem map_eq_ok {ε α β : Type} {f : α → β} {e : Except ε α} {y : β} (h : e.map f = .ok y) :
    ∃ x, e = .ok x ∧ f x = y := by
  cases e with
  | error _ => simp [Except.map] at h
  | ok x => exact ⟨x, rfl, by simpa [Except.map] using h⟩

theorem readValue_lt {inner : Option (Reader Json)} {s : Text} {v : Json} {r : Text}
    (h : readValue inner s = .ok (v, r)) : r.length < s.length := by
  have hb := blanks_le s
  simp only [readValue] at h
  split at h
  · simp at h
  · rename_i c s' hs
    rw [hs, List.length_cons] at hb
    repeat' split at h
    all_goals first
      | (obtain ⟨x, hx, hr⟩ := map_eq_ok h; simp only [Prod.mk.injEq] at hr; rw [← hr.2])
      | simp at h
    · have := word_le hx
      omega
    · have := word_le hx
      omega
    · have := word_le hx
      omega
    · have := readNumber_lt (x := x.1) (r := x.2) hx
      omega
    · have := readNumber_lt (x := x.1) (r := x.2) hx
      simp only [List.length_cons] at this
      omega
    · have := stringBody_lt (t := x.1) (r := x.2) hx
      omega
    · have := items_le ‹_›
      have := closeList_lt hx
      omega
    · have := visitMembers_le ‹_›
      have := closeObject_lt hx
      omega

/-- The reader of values whose brackets nest at most `depth` deep. -/
def valueAt : (depth : Nat) → Reader Json
  | 0 => ⟨readValue none, readValue_lt⟩
  | depth + 1 => ⟨readValue (some (valueAt depth)), readValue_lt⟩

/-- The deepest nesting of brackets that is read. -/
def maxDepth : Nat := 127

/-- Reads a whole text with a reader of its value; only blanks may follow. -/
def whole {α : Type} (read : Text → Except Fault (α × Text)) (s : Text) : Except Fault α :=
  match read s with
  | .error f => .error f
  | .ok (x, r) =>
    match blanks r with
    | [] => .ok x
    | c :: t => .error (.peek .trailingText (c :: t))

/-- The value of a JSON text. -/
def parse (s : Text) : Except Fault Json := whole (valueAt maxDepth).read s

end PromptTemplate.Json
