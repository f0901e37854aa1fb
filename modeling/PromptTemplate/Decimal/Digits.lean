import PromptTemplate.Text.Basic

/-!
# Decimal/Digits — natural numbers as runs of decimal digits

`digits` writes a number without leading zeros and `value` reads a run of digits, leading zeros
or not. **Reading what was written gives the number back.**
-/

namespace PromptTemplate.Decimal

def isDigit (c : Char) : Bool := '0' ≤ c && c ≤ '9'

def digitValue (c : Char) : Nat := c.toNat - '0'.toNat

/-- The character of a digit below ten. -/
def digitChar (d : Nat) : Char := Char.ofNat ('0'.toNat + d)

/-- The decimal digits of a number, the most significant first. -/
def digits (n : Nat) : Text :=
  if n < 10 then [digitChar n] else digits (n / 10) ++ [digitChar (n % 10)]
termination_by n
decreasing_by omega

/-- The number that a run of digits continues `n` to. -/
def continueValue (n : Nat) (ds : Text) : Nat := ds.foldl (fun n d => 10 * n + digitValue d) n

/-- The number a run of digits stands for. -/
def value (ds : Text) : Nat := continueValue 0 ds

theorem digitValue_digitChar {d : Nat} (h : d < 10) : digitValue (digitChar d) = d := by
  have : ∀ d : Fin 10, digitValue (digitChar d) = d := by decide
  exact this ⟨d, h⟩

theorem isDigit_digitChar {d : Nat} (h : d < 10) : isDigit (digitChar d) = true := by
  have : ∀ d : Fin 10, isDigit (digitChar d) = true := by decide
  exact this ⟨d, h⟩

theorem isDigit_of_mem_digits {n : Nat} {c : Char} (h : c ∈ digits n) : isDigit c = true := by
  fun_induction digits n with
  | case1 n hn => simp at h; exact h ▸ isDigit_digitChar hn
  | case2 n hn ih =>
    rcases List.mem_append.mp h with h | h
    · exact ih h
    · simp at h; exact h ▸ isDigit_digitChar (Nat.mod_lt _ (by decide))

theorem value_append (s : Text) (c : Char) : value (s ++ [c]) = 10 * value s + digitValue c := by
  simp [value, continueValue]

/-- **Reading what was written gives the number back.** -/
theorem value_digits (n : Nat) : value (digits n) = n := by
  fun_induction digits n with
  | case1 n hn => simp [value, continueValue, digitValue_digitChar hn]
  | case2 n hn ih =>
    rw [value_append, ih, digitValue_digitChar (Nat.mod_lt _ (by decide))]
    omega

/-- The digits of an integer behind its sign. -/
def integerText (i : Int) : Text :=
  if i < 0 then '-' :: digits i.natAbs else digits i.natAbs

end PromptTemplate.Decimal
