import PromptTemplate.Json.Shape

/-!
# Content/Model — the fields of a kind of content

A content model names the fields that content of some kind has. It is saved as a JSON object; it is
read from an object or from the list of its parts, in the same order. What a model does not know
it passes over, a kind that it does not know is `other`, and **a part that is written twice is a
fault**.
-/

namespace PromptTemplate

/-- The kind of data that a field holds. -/
inductive FieldKind
  | text
  | longText
  | number
  | boolean
  | date
  | enumeration
  | contentReference
  | image
  | json
  | other
deriving DecidableEq, Repr

namespace FieldKind

def name : FieldKind → String
  | text => "text"
  | longText => "long-text"
  | number => "number"
  | boolean => "boolean"
  | date => "date"
  | enumeration => "enumeration"
  | contentReference => "content-reference"
  | image => "image"
  | json => "json"
  | other => "other"

def all : List FieldKind :=
  [text, longText, number, boolean, date, enumeration, contentReference, image, json, other]

/-- The kind with a name; an unknown name is another kind. -/
def ofName (t : Text) : FieldKind := (all.find? (·.name.toList = t)).getD other

theorem ofName_name (k : FieldKind) : ofName k.name.toList = k := by
  cases k <;> decide

/-- The kinds that can be filled with text. -/
def isTextLike : FieldKind → Bool
  | text | longText | number | boolean | date | enumeration => true
  | contentReference | image | json | other => false

end FieldKind

structure ContentField where
  name : Text
  label : Option Text
  description : Option Text
  kind : FieldKind
deriving DecidableEq, Repr

structure ContentModel where
  name : Option Text
  fields : List ContentField
deriving DecidableEq, Repr

namespace ContentModel

open Json

/-! ## Saving -/

def optionalText : Option Text → Json
  | some t => .string t
  | none => .null

def fieldToJson (f : ContentField) : Json :=
  .object [("name".toList, .string f.name), ("label".toList, optionalText f.label),
    ("description".toList, optionalText f.description),
    ("type".toList, .string f.kind.name.toList)]

def toJson (m : ContentModel) : Json :=
  .object [("name".toList, optionalText m.name), ("fields".toList, .array (m.fields.map fieldToJson))]

/-! ## Reading -/

/-- Reads a kind from its name, or from an object whose one key is the name and whose value is
`null`. -/
def readKind (s : Text) : Except Fault (FieldKind × Text) :=
  match blanks s with
  | [] => .error (.placed .unfinishedValue 0)
  | c :: r =>
    if c = '"' then (stringBody r).map fun (t, u) => (.ofName t, u)
    else if c = '\x7b' then
      match nextKey true r with
      | .error f => .error f
      | .ok none => .error (.peek .expectedValue (blanks r))
      | .ok (some (t, u)) =>
        match colon u with
        | .error f => .error f
        | .ok u =>
          match readNull "unit" u with
          | .error f => .error f
          | .ok u =>
            match blanks u with
            | [] => .error (.placed .unfinishedObject 0)
            | d :: v =>
              if d = '\x7d' then .ok (.ofName t, v) else .error (.here .expectedValue (d :: v))
    else .error (.peek .expectedValue (c :: r))

/-- What has been read of a field. -/
structure PartialField where
  name : Option Text
  label : Option (Option Text)
  description : Option (Option Text)
  kind : Option FieldKind

/-- Reads the value of a member that has not been read yet. -/
def once {α σ : Type} (name : String) (old : Option α) (read : Text → Except Fault (α × Text))
    (set : α → σ) (s : Text) : Except Fault (σ × Text) :=
  match old with
  | some _ => .error (.floating (.repeatedMember name) s)
  | none =>
    match colon s with
    | .error f => .error f
    | .ok r => (read r).map fun (x, t) => (set x, t)

/-- Passes over the value of a member. -/
def ignore {σ : Type} (st : σ) (s : Text) : Except Fault (σ × Text) :=
  match colon s with
  | .error f => .error f
  | .ok r => (skipValue [] r).map (st, ·)

theorem once_le {α σ : Type} {name : String} {old : Option α}
    {read : Text → Except Fault (α × Text)} {set : α → σ}
    (hread : ∀ {s x r}, read s = .ok (x, r) → r.length < s.length)
    {s r : Text} {st : σ} (h : once name old read set s = .ok (st, r)) : r.length ≤ s.length := by
  simp only [once] at h
  split at h
  · simp at h
  · split at h
    · simp at h
    · rename_i hc
      obtain ⟨x, hx, hr⟩ := map_eq_ok h
      simp only [Prod.mk.injEq] at hr
      have := colon_lt hc
      have := hread (x := x.1) (r := x.2) hx
      rw [← hr.2]
      omega

theorem ignore_le {σ : Type} {s r : Text} {st st' : σ} (h : ignore st s = .ok (st', r)) :
    r.length ≤ s.length := by
  simp only [ignore] at h
  split at h
  · simp at h
  · rename_i hc
    obtain ⟨x, hx, hr⟩ := map_eq_ok h
    simp only [Prod.mk.injEq] at hr
    have := colon_lt hc
    have := skipValue_le hx
    rw [← hr.2]
    omega

theorem readKind_lt {s r : Text} {k : FieldKind} (h : readKind s = .ok (k, r)) :
    r.length < s.length := by
  have hb := blanks_le s
  simp only [readKind] at h
  split at h
  · simp at h
  · rename_i hs
    rw [hs, List.length_cons] at hb
    split at h
    · obtain ⟨x, hx, hr⟩ := map_eq_ok h
      simp only [Prod.mk.injEq] at hr
      have := stringBody_lt (t := x.1) (r := x.2) hx
      rw [← hr.2]
      omega
    · split at h
      · split at h
        · simp at h
        · simp at h
        · rename_i ht
          have := nextKey_lt ht
          split at h
          · simp at h
          · rename_i hc
            have := colon_lt hc
            split at h
            · simp at h
            · rename_i u hn
              have := readNull_lt hn
              have hu := blanks_le u
              split at h
              · simp at h
              · rename_i hv
                rw [hv, List.length_cons] at hu
                split at h
                · simp only [Except.ok.injEq, Prod.mk.injEq] at h
                  rw [← h.2]
                  omega
                · simp at h
      · simp at h

def readString : Text → Except Fault (Text × Text) := readText "a string"

theorem readString_lt {s t r : Text} (h : readString s = .ok (t, r)) : r.length < s.length :=
  readText_lt h

/-- Takes up one member of a field. -/
def fieldVisitor : Visitor PartialField where
  visit f k s :=
    if k = "name".toList then once "name" f.name readString (fun x => { f with name := some x }) s
    else if k = "label".toList then
      once "label" f.label (readOptional readString) (fun x => { f with label := some x }) s
    else if k = "description".toList then
      once "description" f.description (readOptional readString)
        (fun x => { f with description := some x }) s
    else if k = "type".toList then
      once "type" f.kind readKind (fun x => { f with kind := some x }) s
    else ignore f s
  shrinks {f k s f' r} h := by
    have ho := fun {s x r} => readOptional_lt (fun {s x r} => @readString_lt s x r) (s := s)
      (x := x) (r := r)
    split at h
    · exact once_le readString_lt h
    · split at h
      · exact once_le ho h
      · split at h
        · exact once_le ho h
        · split at h
          · exact once_le readKind_lt h
          · exact ignore_le h

/-- The field with the parts that were read; `rest` is where a missing part is noticed. -/
def completeField (f : PartialField) (rest : Text) : Except Fault (ContentField × Text) :=
  match f.name with
  | none => .error (.floating (.missingMember "name") rest)
  | some name =>
    match f.kind with
    | none => .error (.floating (.missingMember "type") rest)
    | some kind => .ok (⟨name, f.label.getD none, f.description.getD none, kind⟩, rest)

/-- A field from the inside of an object. -/
def fieldFromObject (s : Text) : Except Fault (ContentField × Text) :=
  match visitMembers fieldVisitor ⟨none, none, none, none⟩ true s with
  | .error f => .error f
  | .ok (f, r) => completeField f r

/-- Reads the next part of a record from the inside of a list; none where the list ends. -/
def nextPart {α : Type} (first : Bool) (read : Text → Except Fault (α × Text)) (s : Text) :
    Except Fault (Option α × Text) :=
  match nextItem first s with
  | .error f => .error f
  | .ok none => .ok (none, s)
  | .ok (some r) => (read r).map fun (x, t) => (some x, t)

/-- A field from the inside of a list. -/
def fieldFromList (s : Text) : Except Fault (ContentField × Text) :=
  match nextPart true readString s with
  | .error f => .error f
  | .ok (none, r) => .error (.floating (.tooShort 0 "struct ContentField with 4 elements") r)
  | .ok (some name, r) =>
    match nextPart false (readOptional readString) r with
    | .error f => .error f
    | .ok (label, r) =>
      match nextPart false (readOptional readString) r with
      | .error f => .error f
      | .ok (description, r) =>
        match nextPart false readKind r with
        | .error f => .error f
        | .ok (none, r) => .error (.floating (.tooShort 3 "struct ContentField with 4 elements") r)
        | .ok (some kind, r) => .ok (⟨name, label.getD none, description.getD none, kind⟩, r)

theorem nextPart_le {α : Type} {first : Bool} {read : Text → Except Fault (α × Text)}
    (hread : ∀ {s x r}, read s = .ok (x, r) → r.length < s.length)
    {s r : Text} {x : Option α} (h : nextPart first read s = .ok (x, r)) :
    r.length ≤ s.length := by
  simp only [nextPart] at h
  split at h
  · simp at h
  · simp at h
    simp [h]
  · rename_i hn
    obtain ⟨y, hy, hr⟩ := map_eq_ok h
    simp only [Prod.mk.injEq] at hr
    have := nextItem_le hn
    have := hread (x := y.1) (r := y.2) hy
    rw [← hr.2]
    omega

theorem fieldFromObject_le {s r : Text} {f : ContentField}
    (h : fieldFromObject s = .ok (f, r)) : r.length ≤ s.length := by
  simp only [fieldFromObject] at h
  split at h
  · simp at h
  · rename_i hv
    have := visitMembers_le hv
    simp only [completeField] at h
    split at h
    · simp at h
    · split at h
      · simp at h
      · simp only [Except.ok.injEq, Prod.mk.injEq] at h
        rw [← h.2]
        omega

theorem fieldFromList_le {s r : Text} {f : ContentField}
    (h : fieldFromList s = .ok (f, r)) : r.length ≤ s.length := by
  have ho := fun {s x r} => readOptional_lt (fun {s x r} => @readString_lt s x r) (s := s)
    (x := x) (r := r)
  simp only [fieldFromList] at h
  split at h
  · simp at h
  · simp at h
  · rename_i h₁
    have := nextPart_le readString_lt h₁
    split at h
    · simp at h
    · rename_i h₂
      have := nextPart_le ho h₂
      split at h
      · simp at h
      · rename_i h₃
        have := nextPart_le ho h₃
        split at h
        · simp at h
        · simp at h
        · rename_i h₄
          have := nextPart_le readKind_lt h₄
          simp only [Except.ok.injEq, Prod.mk.injEq] at h
          rw [← h.2]
          omega

/-- Reads a field. -/
def field : Reader ContentField where
  read := readRecord "struct ContentField" fieldFromObject fieldFromList
  shrinks h := readRecord_lt fieldFromObject_le fieldFromList_le h

/-- What has been read of a model. -/
structure PartialModel where
  name : Option (Option Text)
  fields : Option (List ContentField)

/-- Takes up one member of a model. -/
def modelVisitor : Visitor PartialModel where
  visit m k s :=
    if k = "name".toList then
      once "name" m.name (readOptional readString) (fun x => { m with name := some x }) s
    else if k = "fields".toList then
      once "fields" m.fields (readList field) (fun x => { m with fields := some x }) s
    else ignore m s
  shrinks {m k s m' r} h := by
    split at h
    · exact once_le
        (fun {s x r} => readOptional_lt (fun {s x r} => @readString_lt s x r) (s := s)) h
    · split at h
      · exact once_le readList_lt h
      · exact ignore_le h

/-- A model from the inside of an object. -/
def fromObject (s : Text) : Except Fault (ContentModel × Text) :=
  (visitMembers modelVisitor ⟨none, none⟩ true s).map fun (m, r) =>
    (⟨m.name.getD none, m.fields.getD []⟩, r)

/-- A model from the inside of a list. -/
def fromList (s : Text) : Except Fault (ContentModel × Text) :=
  match nextPart true (readOptional readString) s with
  | .error f => .error f
  | .ok (name, r) =>
    (nextPart false (readList field) r).map fun (fields, r) =>
      (⟨name.getD none, fields.getD []⟩, r)

/-- The model of a JSON text. -/
def ofJson (s : Text) : Except Fault ContentModel :=
  whole (readRecord "struct ContentModel" fromObject fromList) s

end ContentModel

/-- The values that the fields of some content have now, by name. -/
abbrev ExistingContent := Json.Members

/-- The existing content of a JSON text, which is an object. -/
def ExistingContent.ofJson (s : Text) : Except Json.Fault ExistingContent :=
  Json.whole (Json.readMap (Json.putMember (Json.valueAt (Json.maxDepth - 1))) []) s

end PromptTemplate
