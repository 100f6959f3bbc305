import TexSymbols.Text

/-!
# Decimal numerals

* `Decimal.digits` — the decimal digits of a number, without leading zeros.
* `Decimal.value` — the number that a row of digits stands for.
* `value_digits` — reading what was written gives the number back.
-/

namespace TexSymbols.Decimal

/-- The character of a digit below ten. -/
def digit (n : Nat) : Char := Char.ofNat ('0'.toNat + n)

/-- The decimal digits of `n`. -/
def digits (n : Nat) : Text :=
  if n < 10 then [digit n] else digits (n / 10) ++ [digit (n % 10)]
termination_by n

/-- The number a row of digits stands for. -/
def value (t : Text) : Nat := t.foldl (fun v c => 10 * v + (c.toNat - '0'.toNat)) 0

theorem value_append_singleton (t : Text) (c : Char) :
    value (t ++ [c]) = 10 * value t + (c.toNat - '0'.toNat) := by
  simp [value]

theorem toNat_digit : ∀ n < 10, (digit n).toNat - '0'.toNat = n := by decide

theorem isDigit_digit : ∀ n < 10, (digit n).isDigit = true := by decide

theorem value_digits (n : Nat) : value (digits n) = n := by
  fun_induction digits n with
  | case1 n h => simpa [value] using toNat_digit n h
  | case2 n h ih =>
    rw [value_append_singleton, ih, toNat_digit _ (Nat.mod_lt _ (by decide))]
    omega

/-- A numeral holds digits only. -/
theorem isDigit_of_mem_digits (n : Nat) : ∀ c ∈ digits n, c.isDigit = true := by
  fun_induction digits n with
  | case1 n h => simpa using isDigit_digit n h
  | case2 n h ih =>
    intro c hc
    rcases List.mem_append.1 hc with hc | hc
    · exact ih c hc
    · rw [List.mem_singleton.1 hc]
      exact isDigit_digit _ (Nat.mod_lt _ (by decide))

theorem digits_ne_nil (n : Nat) : digits n ≠ [] := by
  unfold digits
  split <;> simp

end TexSymbols.Decimal
