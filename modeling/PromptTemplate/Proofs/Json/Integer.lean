import PromptTemplate.Proofs.Decimal.Digits
import PromptTemplate.Proofs.Json.Printing

/-!
# Proofs/Json/Integer — which numbers are read as integers

    -12    18446744073709551615     integers
    -0     12.0    1e3              doubles

An integer is written as a numeral without a fraction and without an exponent. It is read as one
if it fits in 64 bits, signed or not, and is no minus zero; **every other number is a double**
(`scalar_integer_iff`). But for minus zero, an integer is written in one way only
(`IntegerText.eq_integerText`).
-/

namespace PromptTemplate.Json

/-- An integer as it is written: digits with no zero in front, behind a minus or not. -/
inductive IntegerText : Text → Int → Prop
  | whole {d : Char} {ds : Text} : Decimal.isDigit d = true → Digits ds → (d = '0' → ds = []) →
      IntegerText (d :: ds) (Decimal.value (d :: ds))
  | minus {d : Char} {ds : Text} : Decimal.isDigit d = true → Digits ds → (d = '0' → ds = []) →
      IntegerText ('-' :: d :: ds) (-(Decimal.value (d :: ds) : Int))

/-! ## Integers and their text -/

theorem IntegerText.eq_integerText {e : Text} {n : Int} (h : IntegerText e n)
    (hne : e ≠ ['-', '0']) : e = Decimal.integerText n := by
  cases h with
  | whole hd hds hzero =>
    rw [Decimal.integerText, if_neg (by omega), Int.natAbs_natCast,
      Decimal.digits_value hd hds hzero]
  | @minus d ds hd hds hzero =>
    have hdigits := Decimal.digits_value hd hds hzero
    have hpos : 0 < Decimal.value (d :: ds) := by
      refine Nat.pos_of_ne_zero fun hvalue => hne ?_
      rw [hvalue] at hdigits
      exact congrArg ('-' :: ·) (hdigits.symm.trans (by decide +kernel))
    rw [Decimal.integerText, if_pos (by omega), Int.natAbs_neg, Int.natAbs_natCast, hdigits]

theorem integerText_integerText (n : Int) : IntegerText (Decimal.integerText n) n := by
  obtain ⟨d, ds, hdigits, hd, hds, hzero⟩ := digits_eq_cons n.natAbs
  have hvalue : Decimal.value (d :: ds) = n.natAbs := by rw [← hdigits, Decimal.value_digits]
  rw [Decimal.integerText, hdigits]
  split
  · have hminus := IntegerText.minus hd hds hzero
    rwa [hvalue, Int.ofNat_natAbs_of_nonpos (by omega), neg_neg] at hminus
  · have hwhole := IntegerText.whole hd hds hzero
    rwa [hvalue, Int.natAbs_of_nonneg (by omega)] at hwhole

/-! ## Which numbers are integers -/

section

variable {neg down : Bool} {n k : Nat} {e i : Int} {s r : Text}

theorem realNumber_ne_integer : realNumber neg n e s ≠ .ok (.integer i, r) := by
  rw [realNumber]
  split <;> simp

theorem exponentDigits_ne_integer : exponentDigits neg n e down s ≠ .ok (.integer i, r) := by
  cases s with
  | nil => simp [exponentDigits]
  | cons c s =>
    rw [exponentDigits]
    split
    · split
      · exact realNumber_ne_integer
      · split <;> simp
    · simp

theorem exponentPart_ne_integer : exponentPart neg n e s ≠ .ok (.integer i, r) :=
  exponentDigits_ne_integer

theorem fractionPart_ne_integer : fractionPart neg n e s ≠ .ok (.integer i, r) := by
  simp only [fractionPart]
  split
  · split <;> simp
  · split
    · exact exponentPart_ne_integer
    · exact exponentPart_ne_integer
    · exact realNumber_ne_integer

/-- Digits of which none is dropped have a value that fits. -/
theorem absorb_of_snd_eq_zero {ds : Text} (hn : n ≤ maxWhole) (h : (absorb n ds).2 = 0) :
    (absorb n ds).1 = Decimal.continueValue n ds ∧ Decimal.continueValue n ds ≤ maxWhole := by
  induction ds generalizing n with
  | nil => exact ⟨rfl, hn⟩
  | cons d ds ih =>
    rw [absorb] at h ⊢
    split at h
    · rename_i hfits
      rw [if_pos hfits]
      exact ih hfits h
    · exact absurd h (Nat.succ_ne_zero _)

theorem wholeNumber_integer (h : wholeNumber neg n s = .ok (.integer i, r)) :
    (neg = false ∧ i = n) ∨ (neg = true ∧ 0 < n ∧ Int64.minValue.toInt ≤ i ∧ i = -n) := by
  cases neg with
  | false =>
    obtain ⟨h, -⟩ := Prod.mk.inj (Except.ok.inj h)
    exact .inl ⟨rfl, (Number.integer.inj h).symm⟩
  | true =>
    rw [wholeNumber, if_pos rfl] at h
    split at h
    · rename_i hfits
      obtain ⟨h, -⟩ := Prod.mk.inj (Except.ok.inj h)
      obtain rfl := Number.integer.inj h
      exact .inr ⟨rfl, hfits.1, hfits.2, rfl⟩
    · exact absurd h realNumber_ne_integer

/-- A numeral that is read as an integer has digits only, and their value fits. -/
theorem readNumber_integer {t : Text} (ht : Numeral t)
    (h : readNumber neg t = .ok (.integer i, [])) :
    ∃ d ds, t = d :: ds ∧ Decimal.isDigit d = true ∧ Digits ds ∧ (d = '0' → ds = []) ∧
      Decimal.value t ≤ maxWhole ∧ wholeNumber neg (Decimal.value t) [] = .ok (.integer i, []) := by
  obtain @⟨d, ds, f, x, hd, hds, hzero, hf, hx⟩ := ht
  have hfollows : NoDigit (f ++ x) := by simpa using hf.noDigit hx follows_nil
  rw [readNumber_append neg hd hds hzero hfollows] at h
  have hempty : f ++ x = [] ∧ digitsEnd neg (absorb (Decimal.digitValue d) ds).1
      (absorb (Decimal.digitValue d) ds).2 [] = .ok (.integer i, []) := by
    cases hf with
    | some => exact absurd h fractionPart_ne_integer
    | none =>
      cases hx with
      | none => exact ⟨rfl, h⟩
      | some he =>
        obtain rfl | rfl := he
        · exact absurd h exponentPart_ne_integer
        · exact absurd h exponentPart_ne_integer
  obtain ⟨hempty, hend⟩ := hempty
  rw [digitsEnd] at hend
  split at hend
  · rename_i hdropped
    have hdigit : Decimal.digitValue d ≤ maxWhole :=
      Nat.le_trans (Nat.le_of_lt (Decimal.digitValue_lt hd)) (by decide)
    obtain ⟨hvalue, hfits⟩ := absorb_of_snd_eq_zero hdigit hdropped
    rw [hvalue] at hend
    have hcontinue : Decimal.value (d :: ds) = Decimal.continueValue (Decimal.digitValue d) ds := by
      rw [Decimal.value, Decimal.continueValue, List.foldl_cons, Nat.mul_zero, Nat.zero_add,
        Decimal.continueValue]
    rw [hempty, List.append_nil]
    exact ⟨d, ds, rfl, hd, hds, hzero, hcontinue ▸ hfits, hcontinue ▸ hend⟩
  · exact absurd hend realNumber_ne_integer

end

/-- **An integer is what is written as one and fits in 64 bits**, be it signed or not, but for
minus zero. -/
theorem scalar_integer_iff {e : Text} {n : Int} : Scalar e (.number (.integer n)) ↔
    IntegerText e n ∧ e ≠ ['-', '0'] ∧ Int64.minValue.toInt ≤ n ∧ n < UInt64.size := by
  have hmin : Int64.minValue.toInt = -9223372036854775808 := rfl
  have hsize : UInt64.size = 18446744073709551616 := rfl
  constructor
  · intro h
    cases h with
    | number he hread =>
      obtain ⟨d, ds, rfl, hd, hds, hzero, hfits, hwhole⟩ := readNumber_integer he hread
      rw [maxWhole] at hfits
      obtain ⟨-, rfl⟩ | ⟨h, -⟩ := wholeNumber_integer hwhole
      · refine ⟨.whole hd hds hzero, ?_, by omega, by omega⟩
        rintro ⟨⟩
        exact absurd hd (by decide)
      · exact absurd h (by decide)
    | negative he hread =>
      obtain ⟨d, ds, rfl, hd, hds, hzero, hfits, hwhole⟩ := readNumber_integer he hread
      obtain ⟨h, -⟩ | ⟨-, hpos, hlow, rfl⟩ := wholeNumber_integer hwhole
      · exact absurd h (by decide)
      · refine ⟨.minus hd hds hzero, ?_, hlow, by omega⟩
        rintro ⟨⟩
        exact absurd hpos (by decide)
  · rintro ⟨h, hne, hlow, hhigh⟩
    rw [h.eq_integerText hne]
    exact scalar_integerText hlow hhigh

end PromptTemplate.Json
