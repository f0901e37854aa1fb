import PromptTemplate.Proofs.Decimal.Digits
import PromptTemplate.Proofs.Decimal.Rounding

/-!
# Proofs/Decimal/Shortest — the number that a large double is displayed as

    18446744073709551615   reads as   2 ^ 64   displayed as   18446744073709552000

Of all numbers that round to a double the displayed one **ends in the most zeros, and of those that
do it is the nearest to the double**.
-/

namespace PromptTemplate.Decimal

open Binary64

/-- A number is nearer to `x` than another one, or as near and not smaller. -/
def Nearer (x a b : Nat) : Prop :=
  ((a : Int) - x).natAbs < ((b : Int) - x).natAbs ∨
    ((a : Int) - x).natAbs = ((b : Int) - x).natAbs ∧ b ≤ a

/-- The number reads back as the double `m * 2 ^ e`, has as many zeros at its end as any that does,
and is the nearest to the double that has as many. -/
structure Displayed (m e x : Nat) : Prop where
  readsBack : ofNat x = .finite false m e
  zeros : ∀ y p, ofNat y = .finite false m e → 10 ^ p ∣ y → 10 ^ p ∣ x
  nearest : ∀ y, ofNat y = .finite false m e → (∀ p, 10 ^ p ∣ x → 10 ^ p ∣ y) →
    Nearer (m * 2 ^ e) x y

theorem Nearer.antisymm {x a b : Nat} (hab : Nearer x a b) (hba : Nearer x b a) : a = b := by
  rw [Nearer] at hab hba
  omega

/-- **There is only one number to display.** -/
theorem Displayed.unique {m e x y : Nat} (hx : Displayed m e x) (hy : Displayed m e y) : x = y :=
  (hx.nearest y hy.readsBack fun p => hy.zeros x p hx.readsBack).antisymm
    (hy.nearest x hx.readsBack fun p => hx.zeros y p hy.readsBack)

section

variable {m e : Nat}

/-! ## One grid -/

theorem readsBack_iff (h : Coarse m e) {y : Nat} :
    ofNat y = .finite false m e ↔
      if m % 2 = 0 then quarterLow m e * 2 ^ (e - 2) ≤ y ∧ y ≤ quarterHigh m * 2 ^ (e - 2)
      else quarterLow m e * 2 ^ (e - 2) < y ∧ y < quarterHigh m * 2 ^ (e - 2) := by
  obtain ⟨k, hk⟩ := Nat.exists_eq_add_of_le' h.quarters
  have hself : m * 2 ^ e = 4 * m * 2 ^ (e - 2) := by
    rw [hk, Nat.add_sub_cancel]
    ring
  have hhigh : quarterHigh m * 2 ^ (e - 2) = m * 2 ^ e + 2 * 2 ^ (e - 2) := by
    rw [quarterHigh, hself]
    ring
  have hlow : quarterLow m e * 2 ^ (e - 2) + quartersBelow m * 2 ^ (e - 2) = m * 2 ^ e := by
    have hm : leastNormal ≤ m := h.low
    have hleast : leastNormal = 2 ^ 52 := rfl
    rw [← Nat.add_mul, hself, quarterLow, quartersBelow]
    congr 1
    split_ifs <;> omega
  rw [ofNat_eq_iff h, Between]
  split_ifs <;> omega

theorem le_or_le_of_dvd {s y : Nat} (d : Nat) (h : s ∣ y) : y ≤ d * s ∨ (d + 1) * s ≤ y := by
  obtain ⟨k, rfl⟩ := h
  rw [Nat.mul_comm s k]
  obtain hk | hk := Nat.lt_or_ge d k
  · exact .inr (Nat.mul_le_mul_right s hk)
  · exact .inl (Nat.mul_le_mul_right s hk)

/-- On a grid of whole numbers the two neighbours of the double are looked at. The upper one is
taken if it reads back and is not farther away, or if the lower one does not. -/
theorem nearestOn_natCast (h : Coarse m e) (p : Nat) {d r : Nat} (hd : m * 2 ^ e / 10 ^ p = d)
    (hr : m * 2 ^ e % 10 ^ p = r) :
    nearestOn .up m e p =
      if ofNat ((d + 1) * 10 ^ p) = .finite false m e ∧
          (ofNat (d * 10 ^ p) = .finite false m e → 10 ^ p ≤ 2 * r) then some (d + 1)
      else if ofNat (d * 10 ^ p) = .finite false m e then some d
      else none := by
  obtain ⟨k, rfl⟩ := Nat.exists_eq_add_of_le' h.quarters
  have hstep : Nat.pow 10 (p : Int).toNat <<< (2 - ((k + 2 : Nat) : Int)).toNat = 10 ^ p := by
    have hzero : (2 - ((k + 2 : Nat) : Int)).toNat = 0 := by omega
    rw [hzero, Nat.shiftLeft_zero, Int.toNat_natCast]
    rfl
  have hquarter : Nat.pow 10 (-(p : Int)).toNat <<< (((k + 2 : Nat) : Int) - 2).toNat = 2 ^ k := by
    have hzero : (-(p : Int)).toNat = 0 := by omega
    have hk : (((k + 2 : Nat) : Int) - 2).toNat = k := by omega
    rw [hzero, hk, Nat.shiftLeft_eq]
    exact Nat.one_mul _
  have hself : 4 * m * 2 ^ k = m * 2 ^ (k + 2) := by ring
  have hreads (y : Nat) :
      (if m % 2 = 0 then decide (quarterLow m ((k + 2 : Nat) : Int) * 2 ^ k ≤ y) &&
          decide (y ≤ quarterHigh m * 2 ^ k)
        else decide (quarterLow m ((k + 2 : Nat) : Int) * 2 ^ k < y) &&
          decide (y < quarterHigh m * 2 ^ k)) =
        decide (ofNat y = .finite false m ((k + 2 : Nat) : Int)) := by
    rw [Bool.eq_iff_iff, decide_eq_true_iff, readsBack_iff h, Nat.add_sub_cancel]
    split_ifs <;> simp
  simp only [nearestOn, hstep, hquarter, hself, hreads, hd, hr]
  by_cases hfloor : ofNat (d * 10 ^ p) = .finite false m ((k + 2 : Nat) : Int)
  · by_cases hceil : ofNat ((d + 1) * 10 ^ p) = .finite false m ((k + 2 : Nat) : Int)
    · simp only [hfloor, hceil, decide_true, true_and, forall_true_left, if_true]
      split_ifs <;> first | rfl | omega
    · simp only [hfloor, hceil, decide_true, decide_false, false_and, if_true, if_false]
  · by_cases hceil : ofNat ((d + 1) * 10 ^ p) = .finite false m ((k + 2 : Nat) : Int)
    · simp only [hfloor, hceil, decide_true, decide_false, false_implies, and_true, if_true]
    · simp only [hfloor, hceil, decide_false, false_and, if_false]

/-- **What is found on a grid of whole numbers is the point nearest to the double**, and where
nothing is found no point reads back. -/
theorem nearestOn_cases (h : Coarse m e) (p : Nat) :
    (nearestOn .up m e p = none ∧ ∀ y, ofNat y = .finite false m e → ¬10 ^ p ∣ y) ∨
    ∃ d, nearestOn .up m e p = some d ∧ ofNat (d * 10 ^ p) = .finite false m e ∧
      ∀ y, ofNat y = .finite false m e → 10 ^ p ∣ y → Nearer (m * 2 ^ e) (d * 10 ^ p) y := by
  rw [nearestOn_natCast h p rfl rfl]
  have hself := ofNat_self h
  have hsplit := Nat.div_add_mod' (m * 2 ^ e) (10 ^ p)
  have hrest := Nat.mod_lt (m * 2 ^ e) (Nat.pow_pos (n := p) (show 0 < 10 by decide))
  generalize m * 2 ^ e = x at *
  generalize x % 10 ^ p = r at *
  generalize x / 10 ^ p = d at *
  have hnext : (d + 1) * 10 ^ p = d * 10 ^ p + 10 ^ p := Nat.succ_mul _ _
  -- a point of the grid that reads back has a neighbour of the double between it and the double
  have hside (y : Nat) (hy : ofNat y = .finite false m e) (hdvd : 10 ^ p ∣ y) :
      (y ≤ d * 10 ^ p ∧ ofNat (d * 10 ^ p) = .finite false m e) ∨
      ((d + 1) * 10 ^ p ≤ y ∧ ofNat ((d + 1) * 10 ^ p) = .finite false m e) := by
    obtain hle | hle := le_or_le_of_dvd d hdvd
    · exact .inl ⟨hle, ofNat_eq_of_le_of_le h hy hself hle (by omega)⟩
    · exact .inr ⟨hle, ofNat_eq_of_le_of_le h hself hy (by omega) hle⟩
  split_ifs with hceil hfloor
  · refine .inr ⟨d + 1, rfl, hceil.1, fun y hy hdvd => ?_⟩
    obtain ⟨hle, hfloor⟩ | ⟨hle, -⟩ := hside y hy hdvd
    · have hhalf := hceil.2 hfloor
      rw [Nearer]
      omega
    · rw [Nearer]
      omega
  · refine .inr ⟨d, rfl, hfloor, fun y hy hdvd => ?_⟩
    obtain ⟨hle, -⟩ | ⟨hle, hy'⟩ := hside y hy hdvd
    · rw [Nearer]
      omega
    · have hhalf : ¬10 ^ p ≤ 2 * r := fun hhalf => hceil ⟨hy', fun _ => hhalf⟩
      rw [Nearer]
      omega
  · refine .inl ⟨rfl, fun y hy hdvd => ?_⟩
    obtain ⟨-, hfloor'⟩ | ⟨-, hceil'⟩ := hside y hy hdvd
    · exact hfloor hfloor'
    · exact hceil ⟨hceil', fun hfloor' => absurd hfloor' hfloor⟩

/-! ## All grids -/

/-- Whatever rounds to a double is within half a gap of it. -/
theorem near_of_ofNat_eq (h : Coarse m e) {y : Nat} (hy : ofNat y = .finite false m e) :
    y ≤ m * 2 ^ e + 2 * 2 ^ (e - 2) ∧ m * 2 ^ e ≤ y + 2 * 2 ^ (e - 2) := by
  have hbelow : quartersBelow m * 2 ^ (e - 2) ≤ 2 * 2 ^ (e - 2) := by
    refine Nat.mul_le_mul_right _ ?_
    rw [quartersBelow]
    split <;> decide
  rw [ofNat_eq_iff h, Between] at hy
  split_ifs at hy <;> omega

/-- A double in quarters of its gap. -/
theorem bounds_of_coarse (h : Coarse m e) :
    2 ^ 54 * 2 ^ (e - 2) ≤ m * 2 ^ e ∧ m * 2 ^ e + 4 * 2 ^ (e - 2) ≤ 2 ^ 55 * 2 ^ (e - 2) := by
  have hlow := Nat.mul_le_mul_right (4 * 2 ^ (e - 2)) h.low
  have hhigh := Nat.mul_le_mul_right (4 * 2 ^ (e - 2)) (Nat.succ_le_of_lt h.high)
  have hgap : 2 ^ e = 4 * 2 ^ (e - 2) := by
    obtain ⟨k, rfl⟩ := Nat.exists_eq_add_of_le' h.quarters
    rw [Nat.add_sub_cancel]
    ring
  have hleast : leastNormal = 2 ^ 52 := rfl
  have hbound : mantissaBound = 2 ^ 53 := rfl
  rw [hleast] at hlow
  rw [Nat.succ_mul, hbound] at hhigh
  rw [hgap]
  omega

/-- **Seventeen digits are enough**: a grid that is this fine has a point that reads back. -/
theorem exists_dvd_of_seventeen (h : Coarse m e) {s : Nat} (hs : 0 < s)
    (hfine : 10 ^ 16 * s ≤ m * 2 ^ e) : ∃ y, ofNat y = .finite false m e ∧ s ∣ y := by
  have hpos : 0 < 2 ^ (e - 2) := Nat.two_pow_pos _
  obtain ⟨hlow, hhigh⟩ := bounds_of_coarse h
  have hsplit := Nat.div_add_mod' (m * 2 ^ e) s
  have hrest := Nat.mod_lt (m * 2 ^ e) hs
  have hnext : (m * 2 ^ e / s + 1) * s = m * 2 ^ e / s * s + s := Nat.succ_mul _ _
  by_cases hbelow : m * 2 ^ e % s < quartersBelow m * 2 ^ (e - 2)
  · refine ⟨m * 2 ^ e / s * s, ?_, Nat.dvd_mul_left s _⟩
    rw [ofNat_eq_iff h, Between]
    split_ifs <;> omega
  · refine ⟨(m * 2 ^ e / s + 1) * s, ?_, Nat.dvd_mul_left s _⟩
    have habove : s < m * 2 ^ e % s + 2 * 2 ^ (e - 2) := by
      by_cases hm : m = leastNormal
      · have hself : m * 2 ^ e = 2 ^ 54 * 2 ^ (e - 2) := by
          obtain ⟨k, rfl⟩ := Nat.exists_eq_add_of_le' h.quarters
          have hleast : leastNormal = 2 ^ 52 := rfl
          rw [hm, hleast, Nat.add_sub_cancel]
          ring
        rw [quartersBelow, if_pos hm] at hbelow
        omega
      · rw [quartersBelow, if_neg hm] at hbelow
        omega
    rw [ofNat_eq_iff h, Between]
    split_ifs <;> omega

/-- On the coarsest grid at most one point reads back. -/
theorem eq_of_dvd_of_dvd (h : Coarse m e) {s y z : Nat} (hs : m * 2 ^ e < 10 * s)
    (hy : ofNat y = .finite false m e) (hz : ofNat z = .finite false m e) (hsy : s ∣ y)
    (hsz : s ∣ z) : y = z := by
  wlog hle : y ≤ z generalizing y z
  · exact (this hz hy hsz hsy (Nat.le_of_not_le hle)).symm
  have hpos : 0 < 2 ^ (e - 2) := Nat.two_pow_pos _
  have hlow := (bounds_of_coarse h).1
  have hyNear := near_of_ofNat_eq h hy
  have hzNear := near_of_ofNat_eq h hz
  have hzero : z - y = 0 := Nat.eq_zero_of_dvd_of_lt (Nat.dvd_sub hsz hsy) (by omega)
  omega

/-! ## The first grid -/

theorem exists_of_findSome?_range {α : Type} {f : Nat → Option α} {N : Nat} {a : α}
    (h : (List.range N).findSome? f = some a) : ∃ n < N, f n = some a ∧ ∀ j < n, f j = none := by
  obtain ⟨front, n, back, hsplit, hn, hfront⟩ := List.findSome?_eq_some_iff.mp h
  have hsorted := hsplit ▸ List.pairwise_lt_range (n := N)
  have hmem {j : Nat} : j < N ↔ j ∈ front ++ n :: back := by rw [← hsplit, List.mem_range]
  have hlt : n < N := hmem.mpr (by simp)
  refine ⟨n, hlt, hn, fun j hj => hfront j ?_⟩
  have hback := (List.pairwise_cons.mp (List.pairwise_append.mp hsorted).2.1).1
  obtain hj' | hj' := List.mem_append.mp (hmem.mp (Nat.lt_trans hj hlt))
  · exact hj'
  · obtain rfl | hj' := List.mem_cons.mp hj'
    · exact absurd hj (Nat.lt_irrefl j)
    · exact absurd (hback j hj') (Nat.lt_asymm hj)

/-- The decimal of a point on the grid of `10 ^ (top - n)`, a power of ten in its lowest terms. -/
def onGrid (top n d : Nat) : Numeral :=
  if d = Nat.pow 10 (n + 1) then ⟨1, (top : Int) + 1⟩ else ⟨d, (top : Int) - n⟩

theorem onGrid_eq {top n d : Nat} (hn : n ≤ top) (hd : 0 < d) :
    0 < (onGrid top n d).digits ∧ 0 ≤ (onGrid top n d).exponent ∧
      (onGrid top n d).digits * 10 ^ (onGrid top n d).exponent.toNat = d * 10 ^ (top - n) := by
  rw [onGrid]
  split
  · rename_i hpow
    have hexponent : ((top : Int) + 1).toNat = n + 1 + (top - n) := by omega
    refine ⟨Nat.one_pos, Int.le_add_one (Int.natCast_nonneg top), ?_⟩
    rw [hexponent, Nat.one_mul, Nat.pow_add, hpow]
    rfl
  · have hexponent : ((top : Int) - n).toNat = top - n := by omega
    refine ⟨hd, Int.sub_nonneg_of_le (Int.ofNat_le.mpr hn), ?_⟩
    rw [hexponent]

theorem shortest_eq (h : Coarse m e) {top : Nat} (htop : (digits (m * 2 ^ e)).length = top + 1) :
    shortest .up m e = ((List.range 17).findSome? fun n : Nat =>
      (nearestOn .up m e ((top : Int) - n)).map (onGrid top n)).getD ⟨0, 0⟩ := by
  have hratio : ratio m (e : Int) = (m * 2 ^ e, 1) := by
    rw [ratio, if_pos (Int.natCast_nonneg e), Int.toNat_natCast, Nat.shiftLeft_eq]
  have hpos : 1 ≤ m * 2 ^ e := by
    have hlow := (bounds_of_coarse h).1
    have := Nat.two_pow_pos (e - 2)
    omega
  have hmagnitude : magnitude (m * 2 ^ e) 1 = (top : Int) := by
    rw [magnitude, if_pos hpos, Nat.div_one, htop]
    omega
  simp only [shortest, hratio, hmagnitude]
  rfl

/-- **A point of the first grid that has one is the number to display.** -/
theorem displayed_of_first (h : Coarse m e) {top n d : Nat} (hn : n ≤ top)
    (htop : m * 2 ^ e < 10 * 10 ^ top) (hd : nearestOn .up m e ((top : Int) - n) = some d)
    (hfirst : ∀ j : Nat, j < n → nearestOn .up m e ((top : Int) - j) = none) :
    Displayed m e (d * 10 ^ (top - n)) := by
  rw [← Int.ofNat_sub hn] at hd
  obtain ⟨hnone, -⟩ | ⟨d, hd', hreads, hnearest⟩ := nearestOn_cases h (top - n)
  · rw [hnone] at hd
    exact absurd hd (by simp)
  obtain rfl := Option.some.inj (hd'.symm.trans hd)
  have hdvd : 10 ^ (top - n) ∣ d * 10 ^ (top - n) := Nat.dvd_mul_left _ d
  refine ⟨hreads, fun y p hy hp => ?_, fun y hy hzeros => hnearest y hy (hzeros _ hdvd)⟩
  by_cases hle : p ≤ top - n
  · exact (Nat.pow_dvd_pow 10 hle).trans hdvd
  have hcoarser : 10 ^ (top - n + 1) ∣ y := (Nat.pow_dvd_pow 10 (by omega)).trans hp
  cases n with
  | zero =>
    have hy' : 10 ^ (top - 0) ∣ y := (Nat.pow_dvd_pow 10 (Nat.le_succ _)).trans hcoarser
    rwa [← eq_of_dvd_of_dvd h htop hy hreads hy' hdvd]
  | succ n =>
    have hnone := hfirst n (Nat.lt_succ_self n)
    rw [← Int.ofNat_sub (Nat.le_of_succ_le hn)] at hnone
    have hprev : top - (n + 1) + 1 = top - n := by omega
    rw [hprev] at hcoarser
    obtain ⟨-, hnothing⟩ | ⟨d', hd', -⟩ := nearestOn_cases h (top - n)
    · exact absurd hcoarser (hnothing y hy)
    · rw [hnone] at hd'
      exact absurd hd' (by simp)

/-- The double has at least seventeen digits. -/
theorem exists_top (h : Coarse m e) :
    ∃ top, (digits (m * 2 ^ e)).length = top + 1 ∧ 16 ≤ top ∧ 10 ^ top ≤ m * 2 ^ e ∧
      m * 2 ^ e < 10 * 10 ^ top := by
  have hquarter := Nat.two_pow_pos (e - 2)
  have hlow := (bounds_of_coarse h).1
  obtain ⟨top, htop⟩ : ∃ top, (digits (m * 2 ^ e)).length = top + 1 :=
    ⟨_, (Nat.succ_pred (by simp [digits_ne_nil])).symm⟩
  have hfloor := pow_length_le (n := m * 2 ^ e) (by omega)
  have hceil := lt_pow_length (m * 2 ^ e)
  rw [htop, Nat.add_sub_cancel] at hfloor
  rw [htop, Nat.pow_succ'] at hceil
  refine ⟨top, htop, ?_, hfloor, hceil⟩
  by_contra hlt
  have hpow : 10 ^ top ≤ 10 ^ 15 := Nat.pow_le_pow_right (by decide) (by omega)
  omega

/-- The shortest decimal is a point of the first grid that has one. -/
theorem exists_shortest_eq (h : Coarse m e) :
    ∃ top n d : Nat, n ≤ top ∧ m * 2 ^ e < 10 * 10 ^ top ∧
      nearestOn .up m e ((top : Int) - n) = some d ∧
      (∀ j : Nat, j < n → nearestOn .up m e ((top : Int) - j) = none) ∧
      shortest .up m e = onGrid top n d := by
  obtain ⟨top, htop, hsixteen, hfloor, hceil⟩ := exists_top h
  have hfine : 10 ^ 16 * 10 ^ (top - 16) ≤ m * 2 ^ e := by
    rwa [← Nat.pow_add, Nat.add_sub_cancel' hsixteen]
  rw [shortest_eq h htop]
  cases hfound : (List.range 17).findSome? fun n : Nat =>
      (nearestOn .up m e ((top : Int) - n)).map (onGrid top n) with
  | none =>
    have hnone := List.findSome?_eq_none_iff.mp hfound 16 (by simp)
    rw [Option.map_eq_none_iff, ← Int.ofNat_sub hsixteen] at hnone
    obtain ⟨y, hy, hdvd⟩ := exists_dvd_of_seventeen h (Nat.pow_pos (by decide)) hfine
    obtain ⟨-, hnothing⟩ | ⟨d, hd, -⟩ := nearestOn_cases h (top - 16)
    · exact absurd hdvd (hnothing y hy)
    · rw [hnone] at hd
      exact absurd hd (by simp)
  | some v =>
    obtain ⟨n, hn, hv, hfirst⟩ := exists_of_findSome?_range hfound
    obtain ⟨d, hd, rfl⟩ := Option.map_eq_some_iff.mp hv
    exact ⟨top, n, d, by omega, hceil, hd, fun j hj => Option.map_eq_none_iff.mp (hfirst j hj), rfl⟩

/-- **The shortest decimal of a large double is the number that the double is displayed as.** -/
theorem displayed_shortest (h : Coarse m e) :
    0 < (shortest .up m e).digits ∧ 0 ≤ (shortest .up m e).exponent ∧
      Displayed m e ((shortest .up m e).digits * 10 ^ (shortest .up m e).exponent.toNat) := by
  obtain ⟨top, n, d, hn, htop, hd, hfirst, hshortest⟩ := exists_shortest_eq h
  have hdisplayed := displayed_of_first h hn htop hd hfirst
  have hpos : 0 < d := by
    refine Nat.pos_of_ne_zero ?_
    rintro rfl
    have hquarter := Nat.two_pow_pos (e - 2)
    have hlow := (bounds_of_coarse h).1
    have hnear := (near_of_ofNat_eq h hdisplayed.readsBack).2
    omega
  obtain ⟨hdigits, hexponent, hvalue⟩ := onGrid_eq hn hpos
  rw [hshortest, hvalue]
  exact ⟨hdigits, hexponent, hdisplayed⟩

theorem Layout.magnitudeText_eq {l : Layout} (htie : l.tie = .up)
    (hpositional : ∀ x, l.positional x = true) (hmark : l.wholeMark = false) (h : Coarse m e) :
    ∃ x, Displayed m e x ∧ l.magnitudeText m e = digits x := by
  obtain ⟨hdigits, hexponent, hdisplayed⟩ := displayed_shortest h
  have hne : m ≠ 0 := by
    have hlow := h.low
    have hleast : leastNormal = 2 ^ 52 := rfl
    omega
  refine ⟨_, hdisplayed, ?_⟩
  rw [Layout.magnitudeText, if_neg hne, htie, hmark]
  simp only [hpositional, if_true]
  rw [pointText, if_pos hexponent, digits_mul_pow hdigits]
  exact List.append_nil _

end

end PromptTemplate.Decimal
