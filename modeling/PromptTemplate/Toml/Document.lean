import PromptTemplate.Toml.Lexeme

/-!
# Toml/Document — keys, values and tables of a TOML text

A form takes the numbers and texts of the top table; what other values hold is checked for its
form and then forgotten. Tables are kept as a tree, so that **no key is given a value twice and no
table is opened twice**; the tree remembers where each key and value begins.
-/

namespace PromptTemplate.Toml

/-- A key and where it begins: at the front of `place`. -/
structure Key where
  name : Text
  place : Text
deriving DecidableEq

/-- What a key stands for. -/
inductive Item
  /-- A value and where it begins; nothing is kept of one that no form takes. -/
  | value (v : Option Value) (place : Text)
  /-- A table and where its header begins. It is implicit if it only leads to another one, and
  dotted if dotted keys made it. -/
  | table (entries : List (Key × Item)) (implicit dotted : Bool) (place : Option Text)
  /-- The tables of one repeated header. -/
  | tables (elements : List Item)

namespace Item

/-- The table of no header. -/
def top : Item := table [] false false none

def find? (es : List (Key × Item)) (name : Text) : Option Item :=
  (es.find? (·.1.name = name)).map (·.2)

/-- The entries with another item for a key. -/
def replace (es : List (Key × Item)) (name : Text) (i : Item) : List (Key × Item) :=
  es.map fun e => if e.1.name = name then (e.1, i) else e

/-- Follows a path from a table, making implicit tables where it leads nowhere yet, and changes
the table at its end. A path of dotted keys does not lead into a table that has a header. -/
def descend {α : Type} (dottedPath : Bool) (change : Item → Option (Item × α)) :
    List Key → Item → Option (Item × α)
  | [], t => change t
  | k :: path, table es implicit dotted place =>
    match find? es k.name with
    | none =>
      (descend dottedPath change path (table [] true dottedPath none)).map fun (t, x) =>
        (table (es ++ [(k, t)]) implicit dotted place, x)
    | some (value _ _) => none
    | some (tables ts) =>
      match ts.getLast? with
      | none => none
      | some last =>
        (descend dottedPath change path last).map fun (t, x) =>
          (table (replace es k.name (tables (ts.dropLast ++ [t]))) implicit dotted place, x)
    | some (table es' implicit' dotted' place') =>
      if dottedPath && !implicit' then none
      else
        (descend dottedPath change path (table es' implicit' dotted' place')).map fun (t, x) =>
          (table (replace es k.name t) implicit dotted place, x)
  | _ :: _, _ => none

/-- Gives a key its value in the table that its path leads to. -/
def assign (t : Item) (path : List Key) (k : Key) (i : Item) : Option Item :=
  (descend true
    (fun t => match t with
      | table es implicit dotted place =>
        if dotted = path.isEmpty then none
        else if (find? es k.name).isSome then none
        else some (table (es ++ [(k, i)]) implicit dotted place, ())
      | _ => none)
    path t).map (·.1)

end Item

/-! ## Keys -/

def isBareChar (c : Char) : Bool :=
  ('a' ≤ c && c ≤ 'z') || ('A' ≤ c && c ≤ 'Z') || Decimal.isDigit c || c == '-' || c == '_'

/-- One key, in quotes or bare. -/
def simpleKey (s : Text) : Except Stop (Key × Text) :=
  match s with
  | [] => .error (.before [])
  | c :: _ =>
    if c = '"' ∨ c = '\'' then (shortString s).map fun (t, r) => (⟨t, s⟩, r)
    else if isBareChar c then
      .ok (⟨s.takeWhile isBareChar, s⟩, s.dropWhile isBareChar)
    else .error (.before s)

/-- The keys that go on a path, each behind a point. -/
def moreKeys (s : Text) : Except Stop (List Key × Text) :=
  match s with
  | '.' :: r =>
    match simpleKey (spaces r) with
    | .error e => if e.firm then .error e else .ok ([], s)
    | .ok (k, t) =>
      if _h : (spaces t).length < ('.' :: r).length then
        (moreKeys (spaces t)).map fun (ks, u) => (k :: ks, u)
      else .ok ([], s)
  | s => .ok ([], s)
termination_by s.length
decreasing_by assumption

/-- The most keys that a path has. -/
def maxPath : Nat := 79

/-- The path of keys at the front of a text, blanks around them dropped. -/
def keyPath (s : Text) : Except Stop (List Key × Key × Text) := do
  let (k, r) ← simpleKey (spaces s)
  let (ks, t) ← moreKeys (spaces r)
  let all := k :: ks
  if maxPath < all.length then .error (.before s)
  else .ok (all.dropLast, all.getLast (by simp [all]), t)

/-! ## Values -/

/-- Reads a value; nothing is kept of one that no form takes. -/
abbrev ValueReader := Text → Except Stop (Option Value × Text)

/-- A number, a date or a time. -/
def numeric (s : Text) : Except Stop (Option Value × Text) :=
  match dateTime s with
  | .ok r => .ok (none, r)
  | .error e =>
    if e.firm then .error e
    else
      match realNumber s with
      | .ok (x, r) => .ok (some (.real x), r)
      | .error e =>
        if e.firm then .error e
        else
          match specialNumber s with
          | .ok (x, r) => .ok (some (.real x), r)
          | .error _ => (integer s).map fun (n, r) => (some (.integer n), r)

/-- An item of a list, with the gaps around it. -/
def listItem (value : ValueReader) (s : Text) : Except Stop Text := do
  let (_, r) ← value (← gap s)
  gap r

/-- Passes over the items of a list that follow, each behind a comma. -/
def moreItems (value : ValueReader) (s : Text) : Except Stop Text :=
  match s with
  | ',' :: t =>
    match listItem value t with
    | .error e => if e.firm then .error e else .ok s
    | .ok u => if _h : u.length < (',' :: t).length then moreItems value u else .ok u
  | s => .ok s
termination_by s.length
decreasing_by assumption

/-- Passes over the rest of a list; a comma may follow the last item. -/
def list (value : ValueReader) (s : Text) : Except Stop Text := do
  let items ← match listItem value s with
    | .error e => if e.firm then .error e else .ok s
    | .ok r => do
      match ← moreItems value r with
      | ',' :: t => .ok t
      | t => .ok t
  match ← firmly (gap items) with
  | ']' :: r => .ok r
  | r => .error (.fault r)

/-- One key with its value, in braces. -/
def pair (value : ValueReader) (s : Text) : Except Stop ((List Key × Key) × Text) := do
  let (path, k, r) ← keyPath s
  match r with
  | '=' :: t => do
    let (_, u) ← firmly (value (spaces t))
    .ok ((path, k), spaces u)
  | r => .error (.fault r)

/-- The pairs that follow, each behind a comma. -/
def morePairs (value : ValueReader) (s : Text) : Except Stop (List (List Key × Key) × Text) :=
  match s with
  | ',' :: t =>
    match pair value t with
    | .error e => if e.firm then .error e else .ok ([], s)
    | .ok (p, u) =>
      if _h : u.length < (',' :: t).length then (morePairs value u).map fun (ps, v) => (p :: ps, v)
      else .ok ([p], u)
  | s => .ok ([], s)
termination_by s.length
decreasing_by assumption

/-- Passes over the rest of a table in braces. -/
def bracedTable (value : ValueReader) (s : Text) : Except Stop Text := do
  let (ps, r) ← match pair value s with
    | .error e => if e.firm then .error e else .ok ([], s)
    | .ok (p, r) => (morePairs value r).map fun (ps, t) => (p :: ps, t)
  match ps.foldlM (fun t p => t.assign p.1 p.2 (.value none [])) Item.top with
  | none => .error (.fault s)
  | some _ =>
    match spaces r with
    | '\x7d' :: t => .ok t
    | t => .error (.fault t)

/-- Reads a value; what is inside its brackets is read by `inner`, or not at all. -/
def readValue (inner : Option ValueReader) (s : Text) : Except Stop (Option Value × Text) :=
  match s with
  | [] => .error (.before [])
  | c :: r =>
    if c = '"' ∨ c = '\'' then (string s).map fun (t, u) => (some (.text t), u)
    else if c = '[' then
      match inner with
      | none => .error (.fault s)
      | some inner => (list inner r).map (none, ·)
    else if c = '\x7b' then
      match inner with
      | none => .error (.fault s)
      | some inner => (bracedTable inner r).map (none, ·)
    else if c = '+' ∨ c = '-' ∨ Decimal.isDigit c then numeric s
    else if c = '_' then (integer s).map fun (n, u) => (some (.integer n), u)
    else if c = 't' then
      if "true".toList.isPrefixOf s then .ok (none, s.drop 4) else .error (.fault s)
    else if c = 'f' then
      if "false".toList.isPrefixOf s then .ok (none, s.drop 5) else .error (.fault s)
    else if c = 'i' ∨ c = 'n' then (specialNumber s).map fun (x, u) => (some (.real x), u)
    else .error (.before s)

/-- Reads a value whose brackets nest at most `depth` deep. -/
def valueAt : (depth : Nat) → ValueReader
  | 0 => readValue none
  | depth + 1 => readValue (some (valueAt depth))

/-- The deepest nesting of brackets that is read. -/
def maxDepth : Nat := 79

/-! ## Lines -/

/-- What has been read: the tables that are complete, and the one that lines are added to, with
the path of its header and whether that header may be repeated. -/
structure State where
  root : Item
  current : Item
  header : Option (List Key × Key)
  repeated : Bool

namespace State

def start : State := ⟨.top, .top, none, false⟩

/-- Puts the current table into the tree. -/
def complete (st : State) : Option Item :=
  match st.header with
  | none => some st.current
  | some (path, k) =>
    (Item.descend false
      (fun t => match t with
        | .table es implicit dotted place =>
          match Item.find? es k.name, st.repeated with
          | none, false => some (.table (es ++ [(k, st.current)]) implicit dotted place, ())
          | none, true => some (.table (es ++ [(k, .tables [st.current])]) implicit dotted place, ())
          | some (.tables ts), true =>
            some (.table (Item.replace es k.name (.tables (ts ++ [st.current])))
              implicit dotted place, ())
          | _, _ => none
        | _ => none)
      path st.root).map (·.1)

/-- Opens the table of a header that begins at `place`. An implicit table may still get a header. -/
def openTable (st : State) (path : List Key) (k : Key) (place : Text) : Option State := do
  let root ← st.complete
  let (root, es) ← Item.descend false
    (fun t => match t with
      | .table es implicit dotted place =>
        match Item.find? es k.name with
        | none => some (.table es implicit dotted place, [])
        | some (.table es' true false _) =>
          some (.table (es.filter (·.1.name ≠ k.name)) implicit dotted place, es')
        | _ => none
      | _ => none)
    path root
  some ⟨root, .table es false false (some place), some (path, k), false⟩

/-- Opens one more table of a repeated header that begins at `place`. -/
def openElement (st : State) (path : List Key) (k : Key) (place : Text) : Option State := do
  let root ← st.complete
  let (root, _) ← Item.descend false
    (fun t => match t with
      | .table es implicit dotted place =>
        match Item.find? es k.name with
        | none => some (.table (es ++ [(k, .tables [])]) implicit dotted place, ())
        | some (.tables _) => some (t, ())
        | _ => none
      | _ => none)
    path root
  some ⟨root, .table [] false false (some place), some (path, k), true⟩

end State

/-- A stop at the start of a line, where what it says goes against the lines before it. -/
def orFault {α : Type} (s : Text) : Option α → Except Stop α
  | some x => .ok x
  | none => .error (.fault s)

/-- A key and its value, on a line. -/
def assignment (st : State) (s : Text) : Except Stop (State × Text) := do
  let (path, k, r) ← keyPath s
  match r with
  | '=' :: t => do
    let v := spaces t
    let (x, u) ← valueAt maxDepth v
    let rest ← restOfLine u
    let current ← orFault s (st.current.assign path k (.value x v))
    .ok ({ st with current := current }, rest)
  | r => .error (.before r)

/-- A header, on a line. -/
def headerLine (st : State) (s : Text) : Except Stop (State × Text) :=
  match s with
  | '[' :: '[' :: r => do
    let (path, k, t) ← keyPath r
    match t with
    | ']' :: ']' :: u => do
      let rest ← restOfLine u
      .ok (← orFault s (st.openElement path k s), rest)
    | t => .error (.before t)
  | '[' :: c :: r => do
    let (path, k, t) ← keyPath (c :: r)
    match t with
    | ']' :: u => do
      let rest ← restOfLine u
      .ok (← orFault s (st.openTable path k s), rest)
    | t => .error (.before t)
  | s => .error (.before s)

/-- One line, which begins with no blank. -/
def line (st : State) (s : Text) : Except Stop (State × Text) :=
  match s with
  | '#' :: _ => (restOfLine s).map (st, ·)
  | '[' :: _ => headerLine st s
  | '\n' :: r => .ok (st, r)
  | '\r' :: '\n' :: r => .ok (st, r)
  | '\r' :: _ => .error (.before s)
  | s => assignment st s

/-- The tree of the lines of a text. -/
def lines (st : State) (s : Text) : Except Stop Item :=
  match spaces s with
  | [] => orFault [] st.complete
  | c :: r =>
    match line st (c :: r) with
    | .error e => .error e
    | .ok (st', t) => if _h : t.length < s.length then lines st' t else .error (.before t)
termination_by s.length
decreasing_by assumption

/-- The tree of a text, which may begin with a byte order mark. -/
def parse (s : Text) : Except Stop Item :=
  match s with
  | '\ufeff' :: r => lines .start r
  | s => lines .start s

end PromptTemplate.Toml
