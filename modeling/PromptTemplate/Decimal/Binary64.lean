/-!
# Decimal/Binary64 — doubles and rounding to the nearest of them

A finite double is a sign and a magnitude `mantissa * 2 ^ exponent`, the mantissa below `2 ^ 53`
and the exponent at least `-1074`; **the mantissa is at least `2 ^ 52` unless the exponent is the
least one**, so each double has one form. `ofRatio` rounds a quotient of natural numbers to the
nearest double, a half to the even mantissa, in exact arithmetic; products, quotients and
decimal numerals are rounded by it.
-/

namespace PromptTemplate

inductive Binary64
  | finite (negative : Bool) (mantissa : Nat) (exponent : Int)
  | infinite (negative : Bool)
  | nan
deriving DecidableEq, Repr

namespace Binary64

/-- The least mantissa of a double that is not small, `2 ^ 52`. -/
def leastNormal : Nat := 0x10000000000000

/-- The bound of the mantissas, `2 ^ 53`. -/
def mantissaBound : Nat := 0x20000000000000

/-- The natural number nearest to `num / den`, a half going to the even neighbour. -/
def roundQuotient (num den : Nat) : Nat :=
  let q := num / den
  let r := num % den
  if 2 * r < den then q else if den < 2 * r then q + 1 else q + q % 2

/-- The quotient `num / den` divided by `2 ^ e`, as numerator and denominator. -/
def unscale (num den : Nat) (e : Int) : Nat × Nat :=
  if 0 ≤ e then (num, den <<< e.toNat) else (num <<< (-e).toNat, den)

/-- The exponent of the last binary digit that a double near `num / den` keeps. -/
def lastExponent (num den : Nat) : Int :=
  let e : Int := (num.log2 : Int) - den.log2 - 53
  let (n, d) := unscale num den e
  max (if n / d < mantissaBound then e else e + 1) (-1074)

def zero (negative : Bool) : Binary64 := finite negative 0 (-1074)

/-- The double nearest to `num / den`, infinite from half a step past the largest one on. -/
def ofRatio (negative : Bool) (num den : Nat) : Binary64 :=
  if num = 0 then zero negative
  else
    let e := lastExponent num den
    let (n, d) := unscale num den e
    let m := roundQuotient n d
    let (m, e) := if m = mantissaBound then (leastNormal, e + 1) else (m, e)
    if 971 < e then infinite negative else finite negative m e

def ofNat (n : Nat) : Binary64 := ofRatio false n 1

/-- The magnitude `m * 2 ^ e` as a quotient. -/
def ratio (m : Nat) (e : Int) : Nat × Nat :=
  if 0 ≤ e then (m <<< e.toNat, 1) else (m, 1 <<< (-e).toNat)

def neg : Binary64 → Binary64
  | finite s m e => finite (!s) m e
  | infinite s => infinite (!s)
  | nan => nan

/-- The double nearest to `digits * 10 ^ exponent`. Exponents that no double reaches are cut
short, so that no large power is formed. -/
def ofDecimal (negative : Bool) (digits : Nat) (exponent : Int) : Binary64 :=
  if digits = 0 then zero negative
  else if 400 < exponent then infinite negative
  else if exponent + digits.log2 < -1100 then zero negative
  else if 0 ≤ exponent then ofRatio negative (digits * Nat.pow 10 exponent.toNat) 1
  else ofRatio negative digits (Nat.pow 10 (-exponent).toNat)

end Binary64

end PromptTemplate
