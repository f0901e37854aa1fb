import Mathlib.Data.List.Induction
import Mathlib.Tactic.Ring
import PromptTemplate.Decimal.Digits

/-!
# Proofs/Decimal/Digits — the digits of a number, and the number of its digits

    4096 · 10²   written as   4096 00

`value_digits` says that written digits are read back. Here is the other direction: **a run of
digits without a zero in front is what is written for its value** (`digits_value`). The digits of
a multiple of a power of ten end in zeros, and how many digits there are bounds the number.
-/

namespace PromptTemplate.Decimal

theorem isDigit_iff {c : Char} : isDigit c = true ↔ 48 ≤ c.toNat ∧ c.toNat ≤ 57 := by
  simp only [isDigit, Bool.and_eq_true, decide_eq_true_eq, Char.le_def, UInt32.le_iff_toNat_le]
  rfl

theorem digitValue_lt {c : Char} (h : isDigit c = true) : digitValue c < 10 := by
  have hzero : '0'.toNat = 48 := rfl
  obtain ⟨hlow, hhigh⟩ := isDigit_iff.mp h
  rw [digitValue]
  omega

theorem digitChar_digitValue {c : Char} (h : isDigit c = true) : digitChar (digitValue c) = c := by
  have hzero : '0'.toNat = 48 := rfl
  have hsum : '0'.toNat + (c.toNat - '0'.toNat) = c.toNat := by
    have hlow := (isDigit_iff.mp h).1
    omega
  rw [digitChar, digitValue, hsum, Char.ofNat_toNat]

/-- A digit more. -/
theorem digits_concat {n d : Nat} (hn : 0 < n) (hd : d < 10) :
    digits (10 * n + d) = digits n ++ [digitChar d] := by
  have hfront : (10 * n + d) / 10 = n := by omega
  have hlast : (10 * n + d) % 10 = d := by omega
  rw [digits, if_neg (by omega), hfront, hlast]

/-- **A run of digits without a zero in front is what is written for its value.** -/
theorem digits_value {d : Char} {ds : Text} (hd : isDigit d = true)
    (hds : ∀ c ∈ ds, isDigit c = true) (hzero : d = '0' → ds = []) :
    digits (value (d :: ds)) = d :: ds := by
  induction ds using List.reverseRecOn with
  | nil =>
    have hvalue : value [d] = digitValue d := by simp [value, continueValue]
    rw [hvalue, digits, if_pos (digitValue_lt hd), digitChar_digitValue hd]
  | append_singleton ds c ih =>
    obtain ⟨hfront, hc⟩ := List.forall_mem_append.mp hds
    have hne : d ≠ '0' := fun h => by simpa using hzero h
    have hdigits := ih hfront fun h => absurd h hne
    have hpos : 0 < value (d :: ds) := by
      refine Nat.pos_of_ne_zero fun hvalue => hne ?_
      rw [hvalue, digits] at hdigits
      exact (List.cons.inj hdigits).1.symm
    have hc := List.forall_mem_singleton.mp hc
    rw [← List.cons_append, value_append, digits_concat hpos (digitValue_lt hc), hdigits,
      digitChar_digitValue hc]

theorem digits_injective : Function.Injective digits :=
  Function.LeftInverse.injective value_digits

theorem digits_ne_nil (n : Nat) : digits n ≠ [] := by
  rw [digits]
  split <;> simp

/-- The digits of a multiple of a power of ten. -/
theorem digits_mul_pow {n : Nat} (hn : 0 < n) (p : Nat) :
    digits (n * 10 ^ p) = digits n ++ List.replicate p '0' := by
  induction p with
  | zero => simp
  | succ p ih =>
    have hmul : n * 10 ^ (p + 1) = 10 * (n * 10 ^ p) + 0 := by ring
    have hpos : 0 < n * 10 ^ p := Nat.mul_pos hn (Nat.pow_pos (by decide))
    rw [hmul, digits_concat hpos (by decide), ih, List.append_assoc, List.replicate_succ']
    rfl

/-! ## Digits are no blanks -/

theorem isBlank_of_isDigit {c : Char} (h : isDigit c = true) : Text.isBlank c = false := by
  obtain ⟨hlow, hhigh⟩ := isDigit_iff.mp h
  simp [Text.isBlank]
  omega

theorem isBlank_of_mem_digits {n : Nat} : ∀ c ∈ digits n, Text.isBlank c = false :=
  fun _ hc => isBlank_of_isDigit (isDigit_of_mem_digits hc)

theorem isBlank_of_mem_integerText {n : Int} : ∀ c ∈ integerText n, Text.isBlank c = false := by
  rw [integerText]
  split
  · exact List.forall_mem_cons.mpr ⟨by decide, isBlank_of_mem_digits⟩
  · exact isBlank_of_mem_digits

/-! ## How many digits there are -/

theorem lt_pow_length (n : Nat) : n < 10 ^ (digits n).length := by
  fun_induction digits n with
  | case1 n hn => simpa using hn
  | case2 n hn ih =>
    rw [List.length_append, List.length_singleton, Nat.pow_succ]
    omega

theorem pow_length_le {n : Nat} (h : 0 < n) : 10 ^ ((digits n).length - 1) ≤ n := by
  fun_induction digits n with
  | case1 n hn => exact h
  | case2 n hn ih =>
    have hlength := List.length_pos_iff.mpr (digits_ne_nil (n / 10))
    have hsplit : (digits (n / 10)).length - 1 + 1 = (digits (n / 10)).length := by omega
    have hle := ih (by omega)
    rw [List.length_append, List.length_singleton, Nat.add_sub_cancel, ← hsplit, Nat.pow_succ]
    omega

end PromptTemplate.Decimal
