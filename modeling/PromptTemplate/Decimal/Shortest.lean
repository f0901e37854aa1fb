import PromptTemplate.Decimal.Binary64
import PromptTemplate.Decimal.Digits

/-!
# Decimal/Shortest — the fewest digits that read back

The reals that round to a double form an interval around it. `shortest` looks at the grids of the
decimals with 1, 2, … 17 digits and takes, from **the first grid that meets the interval**, the
point nearest to the double. Only the two neighbours of the double on a grid need a look: if any
point of the grid lies in the interval, one of them does.
-/

namespace PromptTemplate.Decimal

/-- The decimal number `digits * 10 ^ exponent`. -/
structure Numeral where
  digits : Nat
  exponent : Int
deriving DecidableEq, Repr

/-- Which of two decimals at the same distance is taken. -/
inductive Tie
  | toEven
  | up
deriving DecidableEq, Repr

/-- The exponent of the leading decimal digit of `num / den`, both positive. -/
def magnitude (num den : Nat) : Int :=
  if den ≤ num then (digits (num / den)).length - 1
  else
    let k := (digits (den / num)).length
    if den ≤ num * Nat.pow 10 (k - 1) then 1 - (k : Int) else -(k : Int)

/-- The lower end of the interval of the double `m * 2 ^ e`, in quarters of `2 ^ e`. The gap below
a power of two is half as wide. -/
def quarterLow (m : Nat) (e : Int) : Nat :=
  if m = Binary64.leastNormal ∧ -1074 < e then 4 * m - 1 else 4 * m - 2

/-- The upper end of the interval, in quarters of `2 ^ e`. -/
def quarterHigh (m : Nat) : Nat := 4 * m + 2

/-- The point of the grid of the multiples of `10 ^ p` that is nearest to `m * 2 ^ e`, if it reads
back as that double. The ends of the interval belong to it if the mantissa is even. -/
def nearestOn (tie : Tie) (m : Nat) (e p : Int) : Option Nat :=
  let step := Nat.pow 10 p.toNat <<< (2 - e).toNat
  let quarter := Nat.pow 10 (-p).toNat <<< (e - 2).toNat
  let v := 4 * m * quarter
  let low := quarterLow m e * quarter
  let high := quarterHigh m * quarter
  let readsBack (x : Nat) : Bool :=
    if m % 2 = 0 then low ≤ x && x ≤ high else low < x && x < high
  let d := v / step
  match readsBack (d * step), readsBack ((d + 1) * step) with
  | false, false => none
  | true, false => some d
  | false, true => some (d + 1)
  | true, true =>
    let r := v % step
    if 2 * r < step then some d
    else if step < 2 * r then some (d + 1)
    else match tie with
      | .up => some (d + 1)
      | .toEven => some (d + d % 2)

/-- The shortest decimal that reads back as the positive double `m * 2 ^ e`. -/
def shortest (tie : Tie) (m : Nat) (e : Int) : Numeral :=
  let (num, den) := Binary64.ratio m e
  let top := magnitude num den
  let hit (n : Nat) : Option Numeral :=
    (nearestOn tie m e (top - n)).map fun d =>
      if d = Nat.pow 10 (n + 1) then ⟨1, top + 1⟩ else ⟨d, top - n⟩
  ((List.range 17).findSome? hit).getD ⟨0, 0⟩

/-- How a finite double is laid out: which of two equally near decimals is taken, which exponents
of the leading digit are written without an exponent, and whether a whole number ends in `.0`. -/
structure Layout where
  tie : Tie
  positional : Int → Bool
  wholeMark : Bool

/-- The digits with the point placed, without an exponent. -/
def pointText (wholeMark : Bool) (x : Numeral) : Text :=
  let ds := digits x.digits
  if 0 ≤ x.exponent then
    ds ++ List.replicate x.exponent.toNat '0' ++ if wholeMark then ['.', '0'] else []
  else
    let places := (-x.exponent).toNat
    if places < ds.length then
      ds.take (ds.length - places) ++ '.' :: ds.drop (ds.length - places)
    else '0' :: '.' :: List.replicate (places - ds.length) '0' ++ ds

/-- The leading digit, the others behind a point, and the signed exponent. -/
def scientificText (x : Numeral) : Text :=
  let ds := digits x.digits
  let e := x.exponent + ds.length - 1
  let fraction := if ds.length = 1 then [] else '.' :: ds.drop 1
  ds.take 1 ++ fraction ++ 'e' :: (if e < 0 then '-' else '+') :: digits e.natAbs

/-- The text of the magnitude `m * 2 ^ e`. -/
def Layout.magnitudeText (l : Layout) (m : Nat) (e : Int) : Text :=
  if m = 0 then pointText l.wholeMark ⟨0, 0⟩
  else
    let x := shortest l.tie m e
    if l.positional (x.exponent + (digits x.digits).length - 1) then pointText l.wholeMark x
    else scientificText x

/-- The text of a finite double. -/
def Layout.finiteText (l : Layout) (negative : Bool) (m : Nat) (e : Int) : Text :=
  if negative then '-' :: l.magnitudeText m e else l.magnitudeText m e

end PromptTemplate.Decimal
