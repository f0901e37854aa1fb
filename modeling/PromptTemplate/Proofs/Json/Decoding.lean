import PromptTemplate.Proofs.Json.Printing
import PromptTemplate.Proofs.Json.Shape

/-!
# Proofs/Json/Decoding — reading a text of a known shape decodes the value that it holds

    ["a", null]    →    the list of "a" and null    →    some "a", none

A reader of a known shape goes through a text without making a value of it. What it returns can
also be had from the value: an optional text from a string or `null`, a list from an array, a
record from the members of an object, one after the other. `Decodes` says that a reader takes the
texts of all values that can be decoded. Members count **as they are written** here (`Verbatim`),
because a record refuses the second of two with one key. **Lists and records decode what their
parts do** (`Decodes.readList`, `decodes_readRecord`).
-/

namespace PromptTemplate.Json

/-! ## Values as they are written -/

/-- A scalar, or brackets around texts that `P` describes. -/
inductive Unmerged (P : Text → Json → Prop) : Text → Json → Prop
  | scalar {e : Text} {v : Json} : Scalar e v → Unmerged P e v
  | array {e : Text} {vs : List Json} : ListText P e vs → Unmerged P e (.array vs)
  | object {e : Text} {ms : List (Text × Json)} : MembersText P e ms → Unmerged P e (.object ms)

/-- The texts of a value that has the members of an object as they are written, with brackets at
most `d` deep. -/
def Verbatim : (d : Nat) → Text → Json → Prop
  | 0 => Scalar
  | d + 1 => Unmerged (Verbatim d)

namespace Verbatim

variable {d : Nat} {e : Text} {v : Json}

theorem of_scalar (h : Scalar e v) : Verbatim d e v := by
  cases d with
  | zero => exact h
  | succ d => exact .scalar h

theorem cases (h : Verbatim d e v) : Scalar e v ∨
    (∃ i vs, v = .array vs ∧ ListText (Verbatim i) e vs) ∨
      ∃ i ms, v = .object ms ∧ MembersText (Verbatim i) e ms := by
  cases d with
  | zero => exact .inl h
  | succ d =>
    cases h with
    | scalar h => exact .inl h
    | array h => exact .inr (.inl ⟨d, _, rfl, h⟩)
    | object h => exact .inr (.inr ⟨d, _, rfl, h⟩)

theorem begins (h : Verbatim d e v) : Begins e := by
  obtain h | ⟨i, vs, rfl, t, -, rfl⟩ | ⟨i, ms, rfl, t, -, rfl⟩ := h.cases
  · exact h.begins
  · exact ⟨'[', _, rfl, by decide⟩
  · exact ⟨'\x7b', _, rfl, by decide⟩

theorem stringText {t : Text} (h : Verbatim d e (.string t)) :
    ∃ k, StringText k t ∧ e = '"' :: (k ++ ['"']) := by
  obtain h | ⟨i, vs, hv, -⟩ | ⟨i, ms, hv, -⟩ := h.cases
  · cases h with
    | string hk => exact ⟨_, hk, rfl⟩
  · exact absurd hv (by simp)
  · exact absurd hv (by simp)

theorem null (h : Verbatim d e .null) : e = ['n', 'u', 'l', 'l'] := by
  obtain h | ⟨i, vs, hv, -⟩ | ⟨i, ms, hv, -⟩ := h.cases
  · cases h with
    | null => rfl
  · exact absurd hv (by simp)
  · exact absurd hv (by simp)

theorem listText {vs : List Json} (h : Verbatim d e (.array vs)) :
    ∃ i, ListText (Verbatim i) e vs := by
  obtain h | ⟨i, ws, hv, ht⟩ | ⟨i, ms, hv, -⟩ := h.cases
  · cases h
  · obtain rfl := Json.array.inj hv
    exact ⟨i, ht⟩
  · exact absurd hv (by simp)

theorem membersText {ms : List (Text × Json)} (h : Verbatim d e (.object ms)) :
    ∃ i, MembersText (Verbatim i) e ms := by
  obtain h | ⟨i, vs, hv, -⟩ | ⟨i, ns, hv, ht⟩ := h.cases
  · cases h
  · exact absurd hv (by simp)
  · obtain rfl := Json.object.inj hv
    exact ⟨i, ht⟩

/-- Only `null` begins as `null` does. -/
theorem eq_null {t : Text} (h : Verbatim d ('n' :: t) v) : v = .null := by
  generalize he : 'n' :: t = e at h
  obtain h | ⟨i, vs, rfl, u, -, rfl⟩ | ⟨i, ms, rfl, u, -, rfl⟩ := h.cases
  · cases h with
    | null => rfl
    | number hn =>
      obtain ⟨c, u, rfl, hc⟩ := hn.begins
      exact absurd (List.cons.inj he).1.symm (digit_ne hc (by decide))
    | _ => exact absurd (List.cons.inj he).1 (by decide)
  · exact absurd (List.cons.inj he).1 (by decide)
  · exact absurd (List.cons.inj he).1 (by decide)

end Verbatim

/-- **The printed text holds the value as it is**, in one line or over several. -/
theorem Storable.verbatim {d : Nat} {v : Json} (h : Storable d v) :
    Verbatim d (print v) v ∧ ∀ level, Verbatim d (prettyAt level v) v :=
  h.print_induction (P := Verbatim) .of_scalar Unmerged.array fun hms _ => Unmerged.object hms

/-! ## Decoding -/

section

variable {α σ : Type}

/-- The reader takes the texts of the values that can be decoded, and returns what they decode to. -/
def Decodes (read : Text → Except Fault (α × Text)) (decode : Json → Option α) : Prop :=
  ∀ {d : Nat} {a e r : Text} {v : Json} {x : α}, Blank a → Verbatim d e v → decode v = some x →
    Follows r → read (a ++ (e ++ r)) = .ok (x, r)

def textOf? : Json → Option Text
  | .string t => some t
  | _ => none

/-- `null` is no value. -/
def optionOf? (decode : Json → Option α) : Json → Option (Option α)
  | .null => some none
  | v => (decode v).map some

def listOf? (decode : Json → Option α) : Json → Option (List α)
  | .array vs => vs.mapM decode
  | _ => none

/-- A record, complete after a step for each member. -/
def recordOf? (step : σ → Text × Json → Option σ) (start : σ) (complete : σ → Option α) :
    Json → Option α
  | .object ms => (ms.foldlM step start).bind complete
  | _ => none

theorem textOf?_eq_some {v : Json} {t : Text} : textOf? v = some t ↔ v = .string t := by
  cases v <;> simp [textOf?]

theorem mapM_eq_some_iff {decode : Json → Option α} {vs : List Json} {xs : List α} :
    vs.mapM decode = some xs ↔ List.Forall₂ (fun v x => decode v = some x) vs xs := by
  induction vs generalizing xs with
  | nil => simp [eq_comm]
  | cons v vs ih =>
    simp only [List.mapM_cons, Option.bind_eq_bind, Option.bind_eq_some_iff, Option.pure_def,
      Option.some.injEq, ih, List.forall₂_cons_left_iff]
    constructor
    · rintro ⟨x, hx, xs, hxs, rfl⟩
      exact ⟨x, xs, hx, hxs, rfl⟩
    · rintro ⟨x, xs, hx, hxs, rfl⟩
      exact ⟨x, hx, xs, hxs, rfl⟩

theorem Decodes.takes {read : Text → Except Fault (α × Text)} {decode : Json → Option α}
    (h : Decodes read decode) (d : Nat) :
    Takes read fun e x => ∃ v, Verbatim d e v ∧ decode v = some x where
  complete := by
    rintro a e r x ha ⟨v, hv, hx⟩ hr
    exact h ha hv hx hr
  begins := by
    rintro e x ⟨v, hv, -⟩
    exact hv.begins

theorem Decodes.whole {read : Text → Except Fault (α × Text)} {decode : Json → Option α}
    (h : Decodes read decode) {d : Nat} {e : Text} {v : Json} {x : α} (hv : Verbatim d e v)
    (hx : decode v = some x) : whole read e = .ok x := by
  have hread := h blank_nil hv hx follows_nil
  rw [List.nil_append, List.append_nil] at hread
  rw [Json.whole, hread]
  rfl

theorem decodes_readText (expected : String) : Decodes (readText expected) textOf? := by
  intro d a e r v t ha hv ht hr
  obtain rfl := textOf?_eq_some.mp ht
  obtain ⟨k, hk, rfl⟩ := hv.stringText
  rw [readText, blanks_item ha hv.begins]
  exact stringBody_eq_ok.mpr ⟨k, hk, by simp⟩

theorem Decodes.readOptional {read : Text → Except Fault (α × Text)} {decode : Json → Option α}
    (h : Decodes read decode) : Decodes (readOptional read) (optionOf? decode) := by
  intro d a e r v x ha hv hx hr
  by_cases hnull : v = .null
  · subst hnull
    obtain rfl := hv.null
    obtain rfl := Option.some.inj hx
    rw [Json.readOptional, blanks_item ha hv.begins]
    rfl
  · have hx' : (decode v).map some = some x := by
      cases v with
      | null => exact absurd rfl hnull
      | _ => exact hx
    obtain ⟨y, hy, rfl⟩ := Option.map_eq_some_iff.mp hx'
    rw [Json.readOptional, blanks_item ha hv.begins, h ha hv hy hr]
    split
    · rename_i t he
      obtain ⟨c, u, rfl, -⟩ := hv.begins
      obtain ⟨rfl, -⟩ := List.cons.inj he
      exact absurd hv.eq_null hnull
    · rfl

theorem Decodes.readList {item : Reader α} {decode : Json → Option α}
    (h : Decodes item.read decode) : Decodes (readList item) (listOf? decode) := by
  intro d a e r v xs ha hv hx hr
  cases v with
  | array vs =>
    obtain ⟨i, t, ht, rfl⟩ := hv.listText
    have hlisted : Listed (fun e x => ∃ v, Verbatim i e v ∧ decode v = some x) t xs :=
      (listed_iff_of_forall fun _ _ => Iff.rfl).mpr ⟨vs, ht, mapM_eq_some_iff.mp hx⟩
    obtain ⟨u, hu, hclose⟩ := items_listed (h.takes i) hlisted r
    rw [Json.readList, blanks_item ha hv.begins]
    simp only [List.cons_append, List.append_assoc, List.nil_append, insideList, hu, hclose,
      Except.map, if_true]
  | _ => exact absurd hx (by simp [listOf?])

theorem decodes_readRecord {v : Visitor σ} {step : σ → Text × Json → Option σ} {start : σ}
    {complete : σ → Option α} (hv : ∀ d, TakesUp v (Verbatim d) step) (expected : String)
    {fromObject fromList : Text → Except Fault (α × Text)}
    (hfrom : ∀ {s u : Text} {st : σ} {x : α}, visitMembers v start true s = .ok (st, u) →
      complete st = some x → fromObject s = .ok (x, u)) :
    Decodes (readRecord expected fromObject fromList) (recordOf? step start complete) := by
  intro d a e r w x ha hw hx hr
  cases w with
  | object ms =>
    obtain ⟨i, t, ht, rfl⟩ := hw.membersText
    obtain ⟨st, hrun, hst⟩ := Option.bind_eq_some_iff.mp hx
    obtain ⟨u, hu, hclose⟩ := members_listed (hv i) ht hrun r
    have hinside := insideObject_eq_ok.mpr ⟨u, hfrom hu hst, hclose⟩
    rw [readRecord, blanks_item ha hw.begins]
    simpa using hinside
  | _ => exact absurd hx (by simp [recordOf?])

end

end PromptTemplate.Json
