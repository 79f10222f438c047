import Mathlib.Data.List.Basic
import Mathlib.Data.List.Induction
import Mathlib.Data.Nat.Digits.Defs
import Mathlib.Tactic.IntervalCases
import ModelWorkspace.Text.Digits

/-! Decimal digits. A number is read back from its digits, and digits without a zero in front of
others are those of the number that they are read as. -/
namespace ModelWorkspace.Text

theorem valueOf_decimal (n : Nat) : valueOf (decimal n) = n :=
  Nat.ofDigitChars_toDigits (by decide) (by decide)

theorem isDigit_of_mem_decimal {n : Nat} {c : Char} (mem : c ∈ decimal n) : isDigit c = true :=
  Nat.isDigit_of_mem_toDigits (by decide) (by decide) mem

theorem digitChar_ne_zero {n : Nat} (pos : 0 < n) (small : n < 10) : n.digitChar ≠ '0' := by
  interval_cases n <;> decide

/-- No number but zero begins with a zero. -/
theorem decimal_eq_cons {n : Nat} (pos : 0 < n) :
    ∃ first rest, decimal n = first :: rest ∧ first ≠ '0' := by
  induction n using Nat.strong_induction_on with
  | _ n ih =>
    by_cases small : n < 10
    · exact ⟨n.digitChar, [], Nat.toDigits_of_lt_base small, digitChar_ne_zero pos small⟩
    · obtain ⟨first, rest, digits, nonzero⟩ := ih (n / 10) (by omega) (by omega)
      refine ⟨first, rest ++ [(n % 10).digitChar], ?_, nonzero⟩
      rw [decimal, Nat.toDigits_of_base_le (by decide) (by omega)]
      change decimal (n / 10) ++ _ = _
      rw [digits, List.cons_append]

theorem decimal_ne_nil (n : Nat) : decimal n ≠ [] := by
  by_cases zero : n = 0
  · subst zero
    decide
  · obtain ⟨first, rest, digits, -⟩ := decimal_eq_cons (Nat.pos_of_ne_zero zero)
    simp [digits]

theorem toNat_of_isDigit {c : Char} (digit : isDigit c = true) : 48 ≤ c.toNat ∧ c.toNat ≤ 57 := by
  simp only [isDigit, Bool.and_eq_true, decide_eq_true_eq, Char.le_def, UInt32.le_iff_toNat_le]
    at digit
  exact digit

theorem digitValue_lt {c : Char} (digit : isDigit c = true) : digitValue c < 10 := by
  obtain ⟨low, high⟩ := toNat_of_isDigit digit
  change c.toNat - 48 < 10
  omega

theorem decimal_digitValue {c : Char} (digit : isDigit c = true) : decimal (digitValue c) = [c] := by
  obtain ⟨low, high⟩ := toNat_of_isDigit digit
  rw [decimal, Nat.toDigits_of_lt_base (digitValue_lt digit)]
  congr 1
  apply Char.toNat_inj.1
  rw [Nat.toNat_digitChar_of_lt_ten (digitValue_lt digit)]
  change 48 + (c.toNat - 48) = c.toNat
  omega

/-- Digits without a zero in front of others are the decimal form of their value. -/
theorem decimal_valueOf {digits : List Char} (some : digits ≠ [])
    (all : ∀ c ∈ digits, isDigit c = true) (front : digits.head? = .some '0' → digits = ['0']) :
    decimal (valueOf digits) = digits := by
  induction digits using List.reverseRecOn with
  | nil => contradiction
  | append_singleton digits c ih =>
    have last : isDigit c = true := all c (by simp)
    rw [valueOf_append_singleton]
    by_cases alone : digits = []
    · subst alone
      simpa using decimal_digitValue last
    · -- With more digits behind it, the first one is not zero.
      have nonzero : digits.head? ≠ .some '0' := by
        intro zero
        have whole := front (by rw [List.head?_append_of_ne_nil _ alone, zero])
        have length := congrArg List.length whole
        rw [List.length_append, List.length_singleton, List.length_singleton] at length
        exact alone (List.length_eq_zero_iff.1 (by omega))
      have before := ih alone (fun d mem => all d (List.mem_append_left _ mem))
        fun zero => absurd zero nonzero
      have pos : 0 < valueOf digits := by
        apply Nat.pos_of_ne_zero
        intro zero
        rw [zero] at before
        rw [← before] at nonzero
        exact nonzero (by decide)
      calc decimal (10 * valueOf digits + digitValue c)
          = decimal (valueOf digits) ++ decimal (digitValue c) :=
            (Nat.toDigits_append_toDigits (by decide) pos (digitValue_lt last)).symm
        _ = digits ++ [c] := by rw [before, decimal_digitValue last]

end ModelWorkspace.Text
