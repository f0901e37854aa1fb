import PromptTemplate.Json.Shape
import PromptTemplate.Values.Basic

/-!
# Values/Json — reading values from a JSON object

The object is flat: every member is a number, a string or `null`. An integer of 64 signed bits
stays one, any other number becomes a double. A key that is written again takes its last value,
but **every value must be of the right shape, also one that is written over**.
-/

namespace PromptTemplate

namespace Value

/-- The value of a number. -/
def ofNumber : Json.Number → Value
  | .integer n =>
    if Int64.minValue.toInt ≤ n ∧ n ≤ Int64.maxValue.toInt then .integer (Int64.ofInt n)
    else .real (.ofRatio (n < 0) n.natAbs 1)
  | .real x => .real x

/-- The value of a scalar other than a boolean. -/
def ofJson? : Json → Option Value
  | .number n => some (ofNumber n)
  | .string t => some (.text t)
  | .null => some .null
  | _ => none

end Value

namespace Values

open Json

/-- Takes up a member by its value. -/
def putScalar (value : Reader Json) : Visitor Values where
  visit vs k s :=
    match colon s with
    | .error f => .error f
    | .ok r =>
      match value.read r with
      | .error f => .error f
      | .ok (v, t) =>
        match Value.ofJson? v with
        | some v => .ok (vs.insert k v, t)
        | none => .error (.floating (.noShape "ParameterValue") t)
  shrinks {vs k s vs' r} h := by
    split at h
    · simp at h
    · rename_i hc
      split at h
      · simp at h
      · rename_i hv
        have := colon_lt hc
        have := value.shrinks hv
        split at h
        · simp only [Except.ok.injEq, Prod.mk.injEq] at h
          rw [← h.2]
          omega
        · simp at h

/-- The values of a JSON text. -/
def ofJson (s : Text) : Except Fault Values :=
  whole (readMap (putScalar (valueAt (maxDepth - 1))) empty) s

end Values

end PromptTemplate
