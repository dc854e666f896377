import ReversePolish.Numeral
import ReversePolish.Proofs.Binary64.Decimal

/-! # The value of a numeral

A decimal numeral stands for a rational (`toRat?`), whichever way it is spelt, and it is read as the
double nearest to that rational (`isNearest_toDouble`).  Its digits count by their places
(`valueOf_append`), so zeros in front do not count, and zeros at the end are powers of ten. -/

namespace ReversePolish.Numeral

attribute [local instance (high)] instPowNat

/-! ### Digits -/

theorem valueOf_append (ds es : List Char) :
    valueOf (ds ++ es) = valueOf ds * 10 ^ es.length + valueOf es := by
  rw [valueOf, Nat.ofDigitChars_append, Nat.ofDigitChars_eq_ofDigitChars_zero, Nat.mul_comm]
  rfl

theorem valueOf_replicate_zero (k : Nat) : valueOf (List.replicate k '0') = 0 := by
  rw [valueOf, Nat.ofDigitChars_replicate_zero, Nat.mul_zero]

theorem valueOf_zeros (k : Nat) (digits : List Char) :
    valueOf (List.replicate k '0' ++ digits) = valueOf digits := by
  rw [valueOf_append, valueOf_replicate_zero, Nat.zero_mul, Nat.zero_add]

@[simp] theorem valueOf_zero_cons (digits : List Char) : valueOf ('0' :: digits) = valueOf digits :=
  valueOf_zeros 1 digits

theorem valueOf_append_zeros (digits : List Char) (k : Nat) (e : Int) :
    (valueOf (digits ++ List.replicate k '0') : ℚ) * 10 ^ e = valueOf digits * 10 ^ (k + e) := by
  rw [valueOf_append, valueOf_replicate_zero, List.length_replicate, Nat.add_zero,
    zpow_add₀ (by norm_num), zpow_natCast]
  push_cast
  rw [mul_assoc]

theorem valueOf_toDigits (n : Nat) : valueOf (Nat.toDigits 10 n) = n :=
  Nat.ofDigitChars_toDigits (by decide) (by decide)

theorem signedValue_zeros (negative : Bool) (k : Nat) (digits : List Char) :
    signedValue negative (List.replicate k '0' ++ digits) = signedValue negative digits := by
  rw [signedValue, signedValue, valueOf_zeros]

/-- **Reading undoes writing.** -/
theorem signedValue_toDigits (i : Int) : signedValue (i < 0) (Nat.toDigits 10 i.natAbs) = i := by
  rw [signedValue, valueOf_toDigits]
  by_cases h : i < 0
  · rw [decide_eq_true h, if_pos rfl]
    omega
  · rw [decide_eq_false h, if_neg Bool.false_ne_true]
    omega

/-! ### Values -/

/-- The rational that a decimal numeral stands for; infinities and no number have none. -/
def toRat? : Numeral → Option ℚ
  | whole negative digits => some (signedValue negative digits)
  | fraction negative digits exponent => some (signedValue negative digits * 10 ^ exponent)
  | infinity _ | nan => none

variable {numeral : Numeral} {v : ℚ}

/-- **A decimal numeral is read as the double nearest to its value.** -/
theorem isNearest_toDouble (h : numeral.toRat? = some v) :
    Binary64.IsNearest v numeral.toDouble := by
  cases numeral with
  | whole negative digits =>
      have hnearest := Binary64.isNearest_ofDecimal negative (valueOf digits) 0
      rw [zpow_zero, mul_one] at hnearest
      exact Option.some.inj h ▸ hnearest
  | fraction negative digits exponent =>
      exact Option.some.inj h ▸ Binary64.isNearest_ofDecimal negative (valueOf digits) exponent
  | infinity => cases h
  | nan => cases h

end ReversePolish.Numeral
