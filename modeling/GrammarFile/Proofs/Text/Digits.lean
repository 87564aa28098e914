import GrammarFile.Text.Digits

/-!
# Numerals read back

The digits of a number write that number (`numeral_toDigits`) and are digits of its base
(`isDigitIn_of_mem_toDigits`), in every base up to sixteen. In base ten they are what `toString` writes.
-/

namespace GrammarFile.Text

/-- The value of a digit. -/
theorem digitValue?_digitChar : ∀ d < 16, digitValue? (Nat.digitChar d) = some d := by
  decide

/-- A digit more behind a numeral multiplies it by the base and adds the digit. -/
theorem numeral_concat (base : Nat) (digits : List Char) (c : Char) :
    numeral base (digits ++ [c]) = numeral base digits * base + (digitValue? c).getD 0 := by
  simp [numeral]

section Bases

variable {base : Nat} (hbase : 1 < base) (hle : base ≤ 16)
include hbase hle

/-- **The digits of a number write that number.** -/
theorem numeral_toDigits (n : Nat) : numeral base (Nat.toDigits base n) = n := by
  induction n using Nat.strongRecOn with
  | ind n ih =>
    rw [Nat.toDigits_eq_if hbase]
    split
    · rename_i hlt
      have hdigit := digitValue?_digitChar n (by omega)
      simp [numeral, hdigit]
    · rename_i hge
      have hless : n / base < n := Nat.div_lt_self (by omega) hbase
      have hmod : n % base < 16 := Nat.lt_of_lt_of_le (Nat.mod_lt n (by omega)) hle
      rw [numeral_concat, ih _ hless, digitValue?_digitChar _ hmod, Option.getD_some, Nat.mul_comm]
      exact Nat.div_add_mod n base

/-- The digits of a number are digits of the base. -/
theorem isDigitIn_of_mem_toDigits (n : Nat) : ∀ c ∈ Nat.toDigits base n, isDigitIn base c := by
  have hdigit : ∀ d < base, isDigitIn base (Nat.digitChar d) := by
    intro d hd
    simp [isDigitIn, digitValue?_digitChar d (by omega), hd]
  induction n using Nat.strongRecOn with
  | ind n ih =>
    rw [Nat.toDigits_eq_if hbase]
    split
    · rename_i hlt
      simpa using hdigit n hlt
    · have hless : n / base < n := Nat.div_lt_self (by omega) hbase
      exact List.forall_mem_append.mpr ⟨ih _ hless, by simpa using hdigit _ (Nat.mod_lt n (by omega))⟩

end Bases

/-! ### Decimal numerals -/

/-- A number is written as its digits. -/
theorem toList_toString (n : Nat) : (toString n).toList = Nat.toDigits 10 n := by
  rw [Nat.toString_eq_ofList_toDigits, String.toList_ofList]

/-- The digits of a number stand for it. -/
@[simp]
theorem numeral_ten_toDigits (n : Nat) : numeral 10 (Nat.toDigits 10 n) = n :=
  numeral_toDigits (by omega) (by omega) n

/-- A number is written with digits only. -/
theorem isDigit_of_mem_toString (n : Nat) : ∀ c ∈ (toString n).toList, c.isDigit := by
  intro c hc
  rw [toList_toString] at hc
  exact Nat.isDigit_of_mem_toDigits (by omega) (by omega) hc

/-- A number below ten is written with one digit. -/
theorem length_toString_lt_two (n : Nat) : (toString n).length < 2 ↔ n < 10 := by
  rw [← String.length_toList, toList_toString, Nat.toDigits_eq_if (by omega)]
  split
  · simpa
  · have hpos := Nat.length_toDigits_pos (b := 10) (n := n / 10)
    rw [List.length_append, List.length_singleton]
    omega

/-- A number is written without a leading zero, if it is not zero. -/
theorem head?_toDigits_ne_zero {n : Nat} (hn : n ≠ 0) : (Nat.toDigits 10 n).head? ≠ some '0' := by
  have hdigit : ∀ d < 10, d ≠ 0 → Nat.digitChar d ≠ '0' := by decide
  induction n using Nat.strongRecOn with
  | ind n ih =>
    rw [Nat.toDigits_eq_if (by omega)]
    split
    · rename_i hlt
      simpa using hdigit n hlt hn
    · have hfirst := ih (n / 10) (by omega) (by omega)
      obtain ⟨c, cs, hdigits⟩ := List.exists_cons_of_ne_nil (Nat.toDigits_ne_nil (n := n / 10) (b := 10))
      rw [hdigits] at hfirst ⊢
      exact hfirst

end GrammarFile.Text
