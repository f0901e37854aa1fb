import PromptTemplate.Proofs.Json.Integer
import PromptTemplate.Proofs.Json.Shape
import PromptTemplate.Proofs.Values.Map
import PromptTemplate.Values.Json

/-!
# Proofs/Values/Json — which JSON texts hold values

    {"a": true, "a": 1}                       none
    {"a": 1, "b": -0, "c": "x", "a": null}    a ↦ null, b ↦ the double -0, c ↦ x

A text holds values just if it is an object and **each of its members, also one that is written
over, is a number, a string or `null`**. What kind of value it is shows in how it is written: a
`Literal` is an integer if it is written as one and fits in 64 signed bits. Of the members with one
key the last one counts (`ofJson_iff`).
-/

namespace PromptTemplate

open Json

/-- The double that is nearest to a number. -/
def Json.Number.nearest : Json.Number → Binary64
  | .integer n => .ofRatio (n < 0) n.natAbs 1
  | .real x => x

namespace Values

/-- Numbers, strings and `null`. -/
inductive Flat : Json → Prop
  | number (x : Json.Number) : Flat (.number x)
  | string (t : Text) : Flat (.string t)
  | null : Flat .null

/-- How a value is written. An integer in the range of the signed ones is that integer, but for
minus zero; all other numbers are doubles. -/
inductive Literal : Text → Value → Prop
  | integer {e : Text} {n : Int64} : IntegerText e n.toInt → e ≠ ['-', '0'] →
      Literal e (.integer n)
  | real {e : Text} {x : Json.Number} : Scalar e (.number x) →
      (∀ n : Int64, IntegerText e n.toInt → e = ['-', '0']) → Literal e (.real x.nearest)
  | text {k t : Text} : StringText k t → Literal ('"' :: (k ++ ['"'])) (.text t)
  | null : Literal ['n', 'u', 'l', 'l'] .null

/-- A key, a colon and a value. -/
inductive FlatMember : Text → Text × Value → Prop
  | mk {k key b c e : Text} {v : Value} : StringText k key → Blank b → Blank c → Literal e v →
      FlatMember ('"' :: (k ++ '"' :: (b ++ ':' :: (c ++ e)))) (key, v)

/-- The texts of an object whose members are, as they are written, the values `es`. -/
def FlatText (s : Text) (es : List (Text × Value)) : Prop :=
  ∃ a t b, Blank a ∧ Listed FlatMember t es ∧ Blank b ∧ s = a ++ '\x7b' :: (t ++ '\x7d' :: b)

/-! ## One value -/

theorem flat_iff {v : Json} : Flat v ↔ ∃ w, Value.ofJson? v = some w := by
  constructor
  · rintro ⟨⟩ <;> exact ⟨_, rfl⟩
  · rintro ⟨w, h⟩
    cases v with
    | null => exact .null
    | number x => exact .number x
    | string t => exact .string t
    | _ => exact absurd h (by simp [Value.ofJson?])

theorem scalar_of_flat {d : Nat} {e : Text} {v : Json} (hv : Flat v) (h : Written d e v) :
    Scalar e v := by
  cases d with
  | zero => exact h
  | succ d =>
    cases h with
    | scalar h => exact h
    | _ => nomatch hv

theorem mem_int64_iff {n : Int} :
    Int64.minValue.toInt ≤ n ∧ n ≤ Int64.maxValue.toInt ↔ ∃ m : Int64, m.toInt = n := by
  constructor
  · rintro ⟨hlow, hhigh⟩
    exact ⟨Int64.ofInt n, Int64.toInt_ofInt_of_le hlow (Int.lt_add_one_of_le hhigh)⟩
  · rintro ⟨m, rfl⟩
    exact ⟨m.minValue_le_toInt, m.toInt_le⟩

theorem ofNumber_of_int64 (n : Int64) : Value.ofNumber (.integer n.toInt) = .integer n := by
  rw [Value.ofNumber, if_pos (mem_int64_iff.mpr ⟨n, rfl⟩), Int64.ofInt_toInt]

/-- A number that no integer of 64 signed bits is read as has a double as its value. -/
theorem ofNumber_of_ne {x : Json.Number} (h : ∀ n : Int64, x ≠ .integer n.toInt) :
    Value.ofNumber x = .real x.nearest := by
  cases x with
  | integer n =>
    rw [Value.ofNumber, if_neg]
    · rfl
    · intro hn
      obtain ⟨m, rfl⟩ := mem_int64_iff.mp hn
      exact h m rfl
  | real x => rfl

theorem scalar_int64_iff {e : Text} {n : Int64} :
    Scalar e (.number (.integer n.toInt)) ↔ IntegerText e n.toInt ∧ e ≠ ['-', '0'] := by
  have hhigh := n.toInt_lt
  have hsize : UInt64.size = 18446744073709551616 := rfl
  rw [scalar_integer_iff]
  exact ⟨fun h => ⟨h.1, h.2.1⟩, fun h => ⟨h.1, h.2, n.minValue_le_toInt, by omega⟩⟩

/-- **A value is read from its literals.** -/
theorem literal_iff (d : Nat) {e : Text} {w : Value} :
    Literal e w ↔ ∃ v, Written d e v ∧ Value.ofJson? v = some w := by
  constructor
  · rintro ⟨⟩
    case integer n hn hne =>
      exact ⟨_, .of_scalar (scalar_int64_iff.mpr ⟨hn, hne⟩), congrArg some (ofNumber_of_int64 n)⟩
    case real x hx hnone =>
      refine ⟨_, .of_scalar hx, congrArg some (ofNumber_of_ne ?_)⟩
      rintro n rfl
      obtain ⟨hn, hne⟩ := scalar_int64_iff.mp hx
      exact hne (hnone n hn)
    case text k t hk => exact ⟨_, .of_scalar (.string hk), rfl⟩
    case null => exact ⟨_, .of_scalar .null, rfl⟩
  · rintro ⟨v, hwritten, hw⟩
    have hflat : Flat v := flat_iff.mpr ⟨w, hw⟩
    have hv : Scalar e v := scalar_of_flat hflat hwritten
    cases hflat with
    | number x =>
      obtain rfl : Value.ofNumber x = w := Option.some.inj hw
      by_cases hint : ∃ n : Int64, x = .integer n.toInt
      · obtain ⟨n, rfl⟩ := hint
        obtain ⟨hn, hne⟩ := scalar_int64_iff.mp hv
        rw [ofNumber_of_int64]
        exact .integer hn hne
      · rw [ofNumber_of_ne (fun n hn => hint ⟨n, hn⟩)]
        refine .real hv fun n hn => ?_
        by_contra hne
        have hunique := hv.unique (scalar_int64_iff.mpr ⟨hn, hne⟩)
        exact hint ⟨n, Json.number.inj hunique⟩
    | string t =>
      obtain rfl : Value.text t = w := Option.some.inj hw
      cases hv with
      | string hk => exact .text hk
    | null =>
      obtain rfl : Value.null = w := Option.some.inj hw
      cases hv with
      | null => exact .null

/-! ## All members -/

/-- A member that is written as `m` is the entry `e`. -/
def Holds (m : Text × Json) (e : Text × Value) : Prop :=
  e.1 = m.1 ∧ Value.ofJson? m.2 = some e.2

/-- Takes up a member unless its value is of another kind. -/
def putFlat? (vs : Values) (m : Text × Json) : Option Values :=
  (Value.ofJson? m.2).map (vs.insert m.1)

theorem visits_putScalar {value : Reader Json} {P : Text → Json → Prop}
    (hv : Reads value.read P) : Visits (putScalar value) P putFlat? := by
  refine .of_value hv fun {st st' key z r} => ⟨fun h => ?_, ?_⟩
  · simp only [putScalar] at h
    split at h
    · exact absurd h (by simp)
    rename_i t ht
    split at h
    · exact absurd h (by simp)
    rename_i x u hx
    split at h
    · rename_i w hw
      obtain ⟨rfl, rfl⟩ := Prod.mk.inj (Except.ok.inj h)
      exact ⟨t, x, ht, hx, congrArg (Option.map (st.insert key)) hw⟩
    · exact absurd h (by simp)
  · rintro ⟨t, x, ht, hx, hst⟩
    obtain ⟨w, hw, rfl⟩ := Option.map_eq_some_iff.mp hst
    simp [putScalar, ht, hx, hw]

theorem foldlM_putFlat? {ms : List (Text × Json)} {vs ws : Values} :
    ms.foldlM putFlat? vs = some ws ↔ ∃ es, List.Forall₂ Holds ms es ∧
      es.foldl (fun vs e => vs.insert e.1 e.2) vs = ws := by
  induction ms generalizing vs with
  | nil => simp
  | cons m ms ih =>
    rw [List.foldlM_cons, Option.bind_eq_bind, Option.bind_eq_some_iff]
    constructor
    · rintro ⟨us, hput, hrun⟩
      obtain ⟨w, hw, rfl⟩ := Option.map_eq_some_iff.mp hput
      obtain ⟨es, hes, hfold⟩ := ih.mp hrun
      exact ⟨(m.1, w) :: es, .cons ⟨rfl, hw⟩ hes, hfold⟩
    · rintro ⟨es, hes, hfold⟩
      obtain ⟨⟨k, w⟩, es, ⟨rfl, hw⟩, hrest, rfl⟩ := List.forall₂_cons_left_iff.mp hes
      exact ⟨_, congrArg (Option.map (vs.insert m.1)) hw, ih.mpr ⟨es, hrest, hfold⟩⟩

theorem flatMember_iff (d : Nat) (t : Text) (e : Text × Value) :
    FlatMember t e ↔ ∃ m, Member (Written d) t m ∧ Holds m e := by
  constructor
  · rintro ⟨hk, hb, hc, he⟩
    obtain ⟨v, hv, hw⟩ := (literal_iff d).mp he
    exact ⟨_, .mk hk hb hc hv, rfl, hw⟩
  · rintro ⟨m, ⟨hk, hb, hc, hv⟩, rfl, hw⟩
    exact .mk hk hb hc ((literal_iff d).mpr ⟨_, hv, hw⟩)

theorem flatText_iff {s : Text} {es : List (Text × Value)} :
    FlatText s es ↔ ∃ ms, ObjectText s ms ∧ List.Forall₂ Holds ms es := by
  have hlisted {t : Text} : Listed FlatMember t es ↔ _ :=
    listed_iff_of_forall (flatMember_iff (maxDepth - 1))
  constructor
  · rintro ⟨a, t, b, ha, ht, hb, rfl⟩
    obtain ⟨ms, hms, hes⟩ := hlisted.mp ht
    exact ⟨ms, ⟨a, t, b, ha, hms, hb, rfl⟩, hes⟩
  · rintro ⟨ms, ⟨a, t, b, ha, hms, hb, rfl⟩, hes⟩
    exact ⟨a, t, b, ha, hlisted.mpr ⟨ms, hms, hes⟩, hb, rfl⟩

theorem ofJson_eq_ok {s : Text} {vs : Values} :
    ofJson s = .ok vs ↔ ∃ es, FlatText s es ∧ ofList es = vs := by
  rw [ofJson, whole_readMap_eq_ok_iff (visits_putScalar (reads_valueAt (maxDepth - 1)))]
  simp only [foldlM_putFlat?, flatText_iff]
  constructor
  · rintro ⟨ms, hms, es, hes, hfold⟩
    exact ⟨es, ⟨ms, hms, hes⟩, hfold⟩
  · rintro ⟨es, ⟨ms, hms, hes⟩, hfold⟩
    exact ⟨ms, hms, es, hes, hfold⟩

end Values

end PromptTemplate
