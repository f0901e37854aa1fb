import Mathlib.Tactic.Ring
import PromptTemplate.Decimal.Shortest

/-!
# Proofs/Decimal/Rounding — which whole numbers round to a double

    ····|··········(··········|··········)··········|····
      m - 1                   m                   m + 1        in steps of 2 ^ e

A double `m * 2 ^ e` with `2 ≤ e` is a whole number, and so are the quarters of the gap behind it.
**The numbers that round to it are those between its ends**, the ends included if `m` is even
(`ofNat_eq_iff`), and every number that is large, but not too large, rounds to such a double
(`exists_coarse`).
-/

namespace PromptTemplate.Binary64

/-! ## The nearest quotient -/

/-- The nearest quotient is less than half a divisor off, or just half of one if it is even. -/
theorem roundQuotient_eq_iff {num den m : Nat} (hden : 0 < den) :
    roundQuotient num den = m ↔
      if m % 2 = 0 then 2 * (m * den) ≤ 2 * num + den ∧ 2 * num ≤ 2 * (m * den) + den
      else 2 * (m * den) < 2 * num + den ∧ 2 * num < 2 * (m * den) + den := by
  have hsplit := Nat.div_add_mod' num den
  have hrest : num % den < den := Nat.mod_lt num hden
  rw [roundQuotient]
  generalize num / den = q at *
  generalize num % den = r at *
  -- away from the two neighbours of the quotient both sides are false
  have hcases : m + 1 ≤ q ∨ m = q ∨ m = q + 1 ∨ q + 2 ≤ m := by omega
  obtain h | rfl | rfl | h := hcases
  · have hmul : (m + 1) * den ≤ q * den := Nat.mul_le_mul_right den h
    rw [Nat.add_mul, Nat.one_mul] at hmul
    refine iff_of_false ?_ ?_ <;> split_ifs <;> omega
  · split_ifs <;> omega
  · have hmul : (q + 1) * den = q * den + den := by ring
    split_ifs <;> omega
  · have hmul : (q + 2) * den ≤ m * den := Nat.mul_le_mul_right den h
    have hmul' : (q + 2) * den = q * den + 2 * den := by ring
    refine iff_of_false ?_ ?_ <;> split_ifs <;> omega

/-! ## The last digit that is kept -/

/-- A number keeps 53 binary digits. -/
theorem lastExponent_one {y : Nat} (hy : y ≠ 0) : lastExponent y 1 = (y.log2 : Int) - 52 := by
  have hone : (1 : Nat).log2 = 0 := rfl
  have hbound : mantissaBound = 2 ^ 53 := rfl
  have hlow := Nat.log2_self_le hy
  have hunscaled : ¬(unscale y 1 ((y.log2 : Int) - 53)).1 / (unscale y 1 ((y.log2 : Int) - 53)).2 <
      mantissaBound := by
    rw [unscale]
    split
    · obtain ⟨k, hk⟩ : ∃ k, y.log2 = 53 + k := ⟨y.log2 - 53, by omega⟩
      have hshift : ((y.log2 : Int) - 53).toNat = k := by omega
      rw [hk, Nat.pow_add] at hlow
      rw [hshift, Nat.one_shiftLeft, Nat.not_lt, hbound,
        Nat.le_div_iff_mul_le (Nat.two_pow_pos k)]
      exact hlow
    · obtain ⟨k, hk⟩ : ∃ k, 53 = y.log2 + k := ⟨53 - y.log2, by omega⟩
      have hshift : (-((y.log2 : Int) - 53)).toNat = k := by omega
      rw [hshift, Nat.shiftLeft_eq, Nat.div_one, Nat.not_lt, hbound, hk, Nat.pow_add]
      exact Nat.mul_le_mul_right _ hlow
  simp only [lastExponent, hone, Int.natCast_zero, Int.sub_zero, if_neg hunscaled]
  omega

theorem ofNat_zero : ofNat 0 = zero false := rfl

/-- A number of at least 53 binary digits is rounded to a multiple of a power of two. -/
theorem ofNat_eq {y k : Nat} (hy : y.log2 = 52 + k) :
    ofNat y =
      if roundQuotient y (2 ^ k) = mantissaBound then
        if 971 < (k : Int) + 1 then infinite false else finite false leastNormal (k + 1)
      else if 971 < (k : Int) then infinite false
      else finite false (roundQuotient y (2 ^ k)) k := by
  have hne : y ≠ 0 := by
    rintro rfl
    rw [Nat.log2_zero] at hy
    omega
  have hlast : lastExponent y 1 = k := by
    rw [lastExponent_one hne, hy]
    omega
  rw [ofNat, ofRatio, if_neg hne]
  simp only [hlast, unscale, Int.natCast_nonneg, if_true, Int.toNat_natCast, Nat.one_shiftLeft]
  split_ifs <;> rfl

/-- A smaller one is a double of a small exponent. -/
theorem exponent_le_of_log2_lt {y m : Nat} {e : Int} (hy : y.log2 < 52)
    (h : ofNat y = finite false m e) : e ≤ 0 := by
  by_cases hne : y = 0
  · obtain rfl := hne
    rw [ofNat_zero] at h
    obtain ⟨-, -, rfl⟩ := Binary64.finite.inj h
    decide
  · rw [ofNat, ofRatio, if_neg hne] at h
    simp only [lastExponent_one hne] at h
    split_ifs at h
    · obtain ⟨-, -, rfl⟩ := Binary64.finite.inj h
      omega
    · obtain ⟨-, -, rfl⟩ := Binary64.finite.inj h
      omega

/-! ## The numbers that round to a double -/

/-- A double of full mantissa whose gap has whole quarters. -/
structure Coarse (m e : Nat) : Prop where
  low : leastNormal ≤ m
  high : m < mantissaBound
  quarters : 2 ≤ e
  finite : e ≤ 971

/-- How many quarters of the gap a number may be below a double and still round to it. The gap
below a power of two is half as wide. -/
def quartersBelow (m : Nat) : Nat := if m = leastNormal then 1 else 2

/-- The number is between the ends of the interval of a double. -/
def Between (m e y : Nat) : Prop :=
  if m % 2 = 0 then
    m * 2 ^ e ≤ y + quartersBelow m * 2 ^ (e - 2) ∧ y ≤ m * 2 ^ e + 2 * 2 ^ (e - 2)
  else m * 2 ^ e < y + quartersBelow m * 2 ^ (e - 2) ∧ y < m * 2 ^ e + 2 * 2 ^ (e - 2)

/-- A number is rounded with the gap of the double, or up to a power of two from the narrower gap
below it. -/
theorem ofNat_eq_finite_iff {y m e : Nat} (hm : m < mantissaBound) (hpos : 1 ≤ e) (he : e ≤ 971) :
    ofNat y = finite false m e ↔
      (y.log2 = 52 + e ∧ roundQuotient y (2 ^ e) = m) ∨
      (m = leastNormal ∧ y.log2 = 51 + e ∧ roundQuotient y (2 ^ (e - 1)) = mantissaBound) := by
  constructor
  · intro h
    have hlog : 52 ≤ y.log2 := by
      by_contra hlog
      have := exponent_le_of_log2_lt (by omega) h
      omega
    obtain ⟨k, hk⟩ := Nat.exists_eq_add_of_le hlog
    rw [ofNat_eq hk] at h
    split_ifs at h with hcarry
    · obtain ⟨-, rfl, hexponent⟩ := Binary64.finite.inj h
      have hprev : e - 1 = k := by omega
      exact .inr ⟨rfl, by omega, hprev.symm ▸ hcarry⟩
    · obtain ⟨-, rfl, hexponent⟩ := Binary64.finite.inj h
      obtain rfl : k = e := by omega
      exact .inl ⟨hk, rfl⟩
  · rintro (⟨hlog, rfl⟩ | ⟨rfl, hlog, hcarry⟩)
    · rw [ofNat_eq hlog, if_neg (by omega), if_neg (by omega)]
    · obtain ⟨k, rfl⟩ : ∃ k, e = k + 1 := ⟨e - 1, by omega⟩
      rw [Nat.add_sub_cancel] at hcarry
      rw [ofNat_eq (k := k) (by omega), if_pos hcarry, if_neg (by omega), Int.natCast_add]
      rfl

theorem log2_eq_iff_of_pos {y j : Nat} (hj : 0 < j) :
    y.log2 = j ↔ 2 ^ j ≤ y ∧ y < 2 ^ (j + 1) := by
  by_cases hy : y = 0
  · obtain rfl := hy
    have hpow := Nat.two_pow_pos j
    rw [Nat.log2_zero]
    omega
  · exact Nat.log2_eq_iff hy

/-- The same with all bounds in quarters of the gap, `2 ^ k`. -/
theorem ofNat_eq_finite_iff_quarters {y m k : Nat} (hm : m < mantissaBound) (hk : k + 2 ≤ 971) :
    ofNat y = finite false m (k + 2 : Nat) ↔
      ((2 ^ 54 * 2 ^ k ≤ y ∧ y < 2 ^ 55 * 2 ^ k) ∧
        if m % 2 = 0 then 4 * (m * 2 ^ k) ≤ y + 2 * 2 ^ k ∧ y ≤ 4 * (m * 2 ^ k) + 2 * 2 ^ k
        else 4 * (m * 2 ^ k) < y + 2 * 2 ^ k ∧ y < 4 * (m * 2 ^ k) + 2 * 2 ^ k) ∨
      (m = leastNormal ∧ y < 2 ^ 54 * 2 ^ k ∧ 2 ^ 54 * 2 ^ k ≤ y + 2 ^ k) := by
  have hpos : 0 < 2 ^ k := Nat.two_pow_pos k
  have hgap : 2 ^ (k + 2) = 4 * 2 ^ k := by ring
  have hhalf : 2 ^ (k + 2 - 1) = 2 * 2 ^ k := Nat.pow_succ'
  have hmul : m * 2 ^ (k + 2) = 4 * (m * 2 ^ k) := by ring
  have hcarry : mantissaBound * 2 ^ (k + 2 - 1) = 2 ^ 54 * 2 ^ k := by
    have hbound : mantissaBound = 2 ^ 53 := rfl
    rw [hbound, hhalf]
    ring
  have heven : mantissaBound % 2 = 0 := rfl
  have hfloor : 2 ^ (51 + (k + 2)) = 2 ^ 53 * 2 ^ k := by ring
  have hpow : 2 ^ (52 + (k + 2)) = 2 ^ 54 * 2 ^ k := by ring
  have hceil : 2 ^ (52 + (k + 2) + 1) = 2 ^ 55 * 2 ^ k := by ring
  have hprev : 51 + (k + 2) + 1 = 52 + (k + 2) := by omega
  rw [ofNat_eq_finite_iff hm (by omega) hk, log2_eq_iff_of_pos (by omega),
    log2_eq_iff_of_pos (by omega), hprev, hfloor, hpow, hceil,
    roundQuotient_eq_iff (Nat.two_pow_pos _), roundQuotient_eq_iff (Nat.two_pow_pos _),
    if_pos heven, hcarry, hmul, hgap, hhalf]
  refine or_congr (and_congr_right fun _ => ?_) (and_congr_right fun _ => ?_)
  · split_ifs <;> omega
  · omega

/-- **The numbers that round to a double are those between the ends of its interval.** -/
theorem ofNat_eq_iff {m e : Nat} (h : Coarse m e) {y : Nat} :
    ofNat y = finite false m e ↔ Between m e y := by
  obtain ⟨hlow, hhigh, hquarters, hfinite⟩ := h
  obtain ⟨k, rfl⟩ := Nat.exists_eq_add_of_le' hquarters
  have hleast : leastNormal = 2 ^ 52 := rfl
  have hbound : mantissaBound = 2 ^ 53 := rfl
  have hpos : 0 < 2 ^ k := Nat.two_pow_pos k
  have hmul : m * 2 ^ (k + 2) = 4 * (m * 2 ^ k) := by ring
  have hfull := Nat.mul_le_mul_right (2 ^ k) (Nat.succ_le_of_lt hhigh)
  rw [Nat.succ_mul, hbound] at hfull
  rw [ofNat_eq_finite_iff_quarters hhigh hfinite, Between, Nat.add_sub_cancel, hmul]
  by_cases hm : m = leastNormal
  · have hq : m * 2 ^ k = 2 ^ 52 * 2 ^ k := by rw [hm, hleast]
    have heven : m % 2 = 0 := by rw [hm]; rfl
    rw [quartersBelow, if_pos hm, if_pos heven, if_pos heven, hq]
    omega
  · have hq := Nat.mul_le_mul_right (2 ^ k)
      (Nat.succ_le_of_lt (Nat.lt_of_le_of_ne hlow (Ne.symm hm)))
    rw [Nat.succ_mul, hleast] at hq
    rw [quartersBelow, if_neg hm]
    split_ifs <;> omega

theorem ofNat_self {m e : Nat} (h : Coarse m e) : ofNat (m * 2 ^ e) = finite false m e := by
  have hpos := Nat.two_pow_pos (e - 2)
  have hbelow : 0 < quartersBelow m * 2 ^ (e - 2) := by
    refine Nat.mul_pos ?_ hpos
    rw [quartersBelow]
    split <;> decide
  rw [ofNat_eq_iff h, Between]
  split <;> omega

/-- What lies between two numbers that round to a double rounds to it as well. -/
theorem ofNat_eq_of_le_of_le {m e : Nat} (h : Coarse m e) {a y b : Nat}
    (ha : ofNat a = finite false m e) (hb : ofNat b = finite false m e) (hay : a ≤ y)
    (hyb : y ≤ b) : ofNat y = finite false m e := by
  rw [ofNat_eq_iff h, Between] at *
  split_ifs at * <;> omega

/-! ## Large numbers -/

theorem le_roundQuotient {num den a : Nat} (hden : 0 < den) (h : a * den ≤ num) :
    a ≤ roundQuotient num den := by
  by_contra hlt
  have hmul := Nat.mul_le_mul_right den (Nat.succ_le_of_lt (Nat.lt_of_not_le hlt))
  rw [Nat.succ_mul] at hmul
  have hbounds := (roundQuotient_eq_iff hden).mp (rfl : roundQuotient num den = _)
  split_ifs at hbounds <;> omega

theorem roundQuotient_le {num den b : Nat} (hden : 0 < den) (h : num ≤ b * den) :
    roundQuotient num den ≤ b := by
  by_contra hlt
  have hmul := Nat.mul_le_mul_right den (Nat.succ_le_of_lt (Nat.lt_of_not_le hlt))
  rw [Nat.succ_mul] at hmul
  have hbounds := (roundQuotient_eq_iff hden).mp (rfl : roundQuotient num den = _)
  split_ifs at hbounds <;> omega

/-- **Large numbers round to a double of full mantissa.** -/
theorem exists_coarse {y : Nat} (hlow : 54 ≤ y.log2) (hhigh : y.log2 < 1023) :
    ∃ m e, Coarse m e ∧ ofNat y = finite false m e := by
  have hne : y ≠ 0 := by
    rintro rfl
    exact absurd hlow (by rw [Nat.log2_zero]; decide)
  have hleast : leastNormal = 2 ^ 52 := rfl
  have hbound : mantissaBound = 2 ^ 53 := rfl
  obtain ⟨k, hk⟩ : ∃ k, y.log2 = 52 + k := ⟨y.log2 - 52, by omega⟩
  have hself := Nat.log2_self_le hne
  have hself' := Nat.lt_log2_self (n := y)
  rw [hk, Nat.pow_add] at hself
  have hpow : 2 ^ (52 + k + 1) = 2 ^ 53 * 2 ^ k := by ring
  rw [hk, hpow] at hself'
  have hmantissa := le_roundQuotient (Nat.two_pow_pos k) hself
  have hmantissa' := roundQuotient_le (Nat.two_pow_pos k) (Nat.le_of_lt hself')
  by_cases hcarry : roundQuotient y (2 ^ k) = mantissaBound
  · refine ⟨leastNormal, k + 1, ⟨Nat.le_refl _, by decide, by omega, by omega⟩, ?_⟩
    rw [ofNat_eq hk, if_pos hcarry, if_neg (by omega), Int.natCast_add]
    rfl
  · refine ⟨_, k, ⟨hleast ▸ hmantissa, by omega, by omega, by omega⟩, ?_⟩
    rw [ofNat_eq hk, if_neg hcarry, if_neg (by omega)]

end PromptTemplate.Binary64
