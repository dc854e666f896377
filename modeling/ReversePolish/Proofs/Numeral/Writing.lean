import ReversePolish.Proofs.Numeral.Figures
import ReversePolish.Proofs.Numeral.Value

/-! # Doubles written as numerals

`Writes q cs` says that characters are those of a fraction without a sign, and what its value is.
Every form that a double is written in is one, whatever its digits are and wherever the point
stands: with a fixed number of places (`writes_places`), positional (`writes_positional`) and with
an exponent (`writes_scientific`).  Zeros at the end of the digits that are left out, or put there,
are made up for by the power of ten (`Decimal.writes_chars`). -/

namespace ReversePolish

attribute [local instance (high)] instPowNat

namespace Numeral

variable {q : ℚ} {before places digits cs : List Char}

/-- The characters of a fraction without a sign, and its value. -/
inductive Writes : ℚ → List Char → Prop
  | fraction {before places coefficient power : List Char} {exponent : Int}
      (hcoefficient : Coefficient before places coefficient) (hexponent : Exponent exponent power)
      (hwhole : ¬ IsRun (coefficient ++ power)) :
      Writes (valueOf (before ++ places) * 10 ^ (exponent - places.length)) (coefficient ++ power)

theorem Writes.of_eq {q' : ℚ} (h : Writes q' cs) (hq : q' = q) : Writes q cs := hq ▸ h

theorem sign_minus (negative : Bool) : Sign negative (Binary64.minus negative) := by
  cases negative with
  | false => exact .none
  | true => exact .minus

/-- A minus sign in front changes the sign of the value. -/
theorem Writes.exists_spells {n : Nat} {r : ℚ} (h : Writes (n * r) cs) (negative : Bool) :
    ∃ numeral, Spells numeral (Binary64.minus negative ++ cs) ∧
      (∀ negative' digits, numeral ≠ whole negative' digits) ∧
        numeral.toRat? = some (Binary64.signed negative n * r) := by
  generalize hvalue : (n * r : ℚ) = value at h
  cases h with
  | fraction hcoefficient hexponent hwhole =>
      refine ⟨_, .fraction (sign_minus negative) hcoefficient hexponent hwhole, nofun, ?_⟩
      rw [toRat?, Option.some.injEq]
      cases negative with
      | false => simpa [signedValue] using hvalue.symm
      | true => simpa [signedValue] using hvalue.symm

/-! ### The forms -/

theorem not_isRun_of_mem {c : Char} (hc : c ∈ cs) (hdigit : ¬ IsDigit c) : ¬ IsRun cs :=
  fun h => hdigit (h c hc)

/-- Digits with a point among them. -/
theorem writes_pointed (hne : before ≠ []) (hbefore : IsRun before) (hplaces : IsRun places) :
    Writes (valueOf (before ++ places) * 10 ^ (-places.length : Int))
      (before ++ '.' :: places) := by
  have hwhole : ¬ IsRun (before ++ '.' :: places ++ []) :=
    not_isRun_of_mem (c := '.') (by simp) (by decide)
  have h := Writes.fraction (.pointed hne hbefore hplaces) .none hwhole
  rwa [List.append_nil, Int.zero_sub] at h

theorem isRun_replicate_zero (k : Nat) : IsRun (List.replicate k '0') := by
  intro c hc
  rw [List.eq_of_mem_replicate hc]
  decide

theorem IsRun.append {ds es : List Char} (hds : IsRun ds) (hes : IsRun es) : IsRun (ds ++ es) :=
  List.forall_mem_append.2 ⟨hds, hes⟩

theorem IsRun.leftpad (h : IsRun digits) (k : Nat) : IsRun (digits.leftpad k '0') :=
  (isRun_replicate_zero _).append h

theorem valueOf_leftpad (k : Nat) (digits : List Char) :
    valueOf (digits.leftpad k '0') = valueOf digits := valueOf_zeros _ _

/-- A count of the last of some places, with all of them behind the point. -/
theorem writes_places (count k : Nat) (hk : 0 < k) :
    Writes (count * 10 ^ (-k : Int)) (Nat.toDigits 10 (count / 10 ^ k) ++
      '.' :: (Nat.toDigits 10 (count % 10 ^ k)).leftpad k '0') := by
  have hlength : ((Nat.toDigits 10 (count % 10 ^ k)).leftpad k '0').length = k := by
    rw [List.length_leftpad, Nat.max_eq_left]
    exact (Nat.length_toDigits_le_iff (by decide) hk).2 (Nat.mod_lt _ (Nat.pow_pos (by decide)))
  have h := writes_pointed (Nat.toDigits_ne_nil (b := 10) (n := count / 10 ^ k)) (isRun_toDigits _)
    ((isRun_toDigits (count % 10 ^ k)).leftpad k)
  rwa [valueOf_append, valueOf_leftpad, valueOf_toDigits, valueOf_toDigits, hlength,
    Nat.div_add_mod'] at h

theorem IsRun.mono {ds es : List Char} (hes : IsRun es) (h : ds ⊆ es) : IsRun ds :=
  fun c hc => hes c (h hc)

/-- Digits in positional notation, with the point where it may be. -/
theorem writes_positional (hne : digits ≠ []) (hdigits : IsRun digits) (point : Int) :
    Writes (valueOf digits * 10 ^ (point - digits.length)) (Binary64.positional digits point) := by
  have hzero : IsRun ['0'] := isRun_replicate_zero 1
  cases point with
  | ofNat before =>
      simp only [Binary64.positional]
      split
      next hbefore =>
        refine (writes_pointed (List.cons_ne_nil _ []) hzero hdigits).of_eq ?_
        simp [hbefore]
      split
      next hlong =>
        have hall := hdigits.append (isRun_replicate_zero (before - digits.length))
        have hvalue := valueOf_append_zeros digits (before - digits.length + 1) (-1)
        rw [List.replicate_succ', ← List.append_assoc] at hvalue
        refine (writes_pointed (List.append_ne_nil_of_left_ne_nil hne _) hall hzero).of_eq ?_
        refine hvalue.trans ?_
        congr 2
        simp
        omega
      next hshort =>
        have htake : digits.take before ≠ [] := by
          rw [ne_eq, List.take_eq_nil_iff]
          tauto
        have h := writes_pointed htake (hdigits.mono (List.take_subset _ _))
          (hdigits.mono (List.drop_subset before _))
        rw [List.take_append_drop, List.length_drop] at h
        refine h.of_eq ?_
        rw [Nat.cast_sub (by omega)]
        simp
  | negSucc gap =>
      have hplaces := (isRun_replicate_zero (gap + 1)).append hdigits
      refine (writes_pointed (List.cons_ne_nil _ []) hzero hplaces).of_eq ?_
      rw [List.singleton_append, valueOf_zero_cons, valueOf_zeros, List.length_append,
        List.length_replicate]
      congr 2
      omega

theorem exponent_exponentChars (exponent : Int) :
    Exponent exponent (Binary64.exponentChars exponent) := by
  have hsign : Sign (exponent < 0) [if exponent < 0 then '-' else '+'] := by
    by_cases h : exponent < 0
    · rw [if_pos h, decide_eq_true h]
      exact .minus
    · rw [if_neg h, decide_eq_false h]
      exact .plus
  have hne : (Nat.toDigits 10 exponent.natAbs).leftpad 2 '0' ≠ [] :=
    List.append_ne_nil_of_right_ne_nil _ Nat.toDigits_ne_nil
  have hvalue : signedValue (exponent < 0) ((Nat.toDigits 10 exponent.natAbs).leftpad 2 '0') =
      exponent := (signedValue_zeros _ _ _).trans (signedValue_toDigits exponent)
  have hpower := Exponent.power (.inl rfl) hsign hne ((isRun_toDigits exponent.natAbs).leftpad 2)
  rwa [hvalue] at hpower

/-- Digits with an exponent count from behind the first of them. -/
theorem writes_scientific (hne : digits ≠ []) (hdigits : IsRun digits) (exponent : Int) :
    Writes (valueOf digits * 10 ^ (exponent + 1 - digits.length))
      (Binary64.scientific digits exponent) := by
  have hpower := exponent_exponentChars exponent
  have hwhole (coefficient : List Char) :
      ¬ IsRun (coefficient ++ Binary64.exponentChars exponent) :=
    not_isRun_of_mem (c := 'e') (by simp [Binary64.exponentChars]) (by decide)
  obtain ⟨d, ds, rfl⟩ := List.exists_cons_of_ne_nil hne
  cases ds with
  | nil =>
      refine (Writes.fraction (.whole hne hdigits) hpower (hwhole _)).of_eq ?_
      simp
  | cons e ds =>
      obtain ⟨hd, hds⟩ := List.forall_mem_cons.1 hdigits
      have hfirst : IsRun [d] := List.forall_mem_singleton.2 hd
      refine (Writes.fraction (.pointed (List.cons_ne_nil d []) hfirst hds) hpower
        (hwhole _)).of_eq ?_
      simp

/-! ### Decimal fractions -/

/-- Digits end with zeros, or with none. -/
theorem exists_zeros (ds : List Char) :
    ∃ k, ds = (ds.reverse.dropWhile (· = '0')).reverse ++ List.replicate k '0' := by
  have hzeros : ∀ c ∈ ds.reverse.takeWhile (· = '0'), c = '0' := by
    intro c hc
    simpa using List.mem_takeWhile_imp hc
  refine ⟨(ds.reverse.takeWhile (· = '0')).length, ?_⟩
  rw [← List.reverse_inj, List.reverse_append, List.reverse_reverse, List.reverse_replicate,
    ← List.eq_replicate_of_mem hzeros, List.takeWhile_append_dropWhile]

section Coefficient

variable {c k : Nat} (hall : Nat.toDigits 10 c = digits ++ List.replicate k '0')

include hall

theorem isRun_of_toDigits : IsRun digits := by
  refine (isRun_toDigits c).mono ?_
  rw [hall]
  exact List.subset_append_left _ _

theorem ne_nil_of_toDigits (hc : c ≠ 0) : digits ≠ [] := by
  rintro rfl
  have hzero := congrArg valueOf hall
  rw [valueOf_toDigits, List.nil_append, valueOf_replicate_zero] at hzero
  exact hc hzero

/-- The point stays where it is when zeros at the end are not written. -/
theorem valueOf_of_toDigits (e : Int) :
    (valueOf digits : ℚ) * 10 ^ (((Nat.toDigits 10 c).length : Int) + e - digits.length) =
      c * 10 ^ e := by
  have hlength := congrArg List.length hall
  rw [List.length_append, List.length_replicate] at hlength
  have hexponent : ((Nat.toDigits 10 c).length : Int) + e - digits.length = k + e := by omega
  rw [hexponent, ← valueOf_append_zeros, ← hall, valueOf_toDigits]

end Coefficient

end Numeral

namespace Binary64

open Numeral (Writes valueOf)

/-- **A decimal fraction is written as a numeral of its value.** -/
theorem Decimal.writes_chars (d : Decimal) : Writes (d.coefficient * 10 ^ d.exponent) d.chars := by
  unfold chars
  split
  next hzero =>
    have hrun : Numeral.IsRun ['0'] := Numeral.isRun_replicate_zero 1
    have hvalue : valueOf (['0'] ++ ['0']) = 0 := Numeral.valueOf_replicate_zero 2
    refine (Numeral.writes_pointed (List.cons_ne_nil '0' []) hrun hrun).of_eq ?_
    rw [hvalue, hzero, Nat.cast_zero, zero_mul, zero_mul]
  next hcoefficient =>
    obtain ⟨k, hall⟩ := Numeral.exists_zeros (Nat.toDigits 10 d.coefficient)
    dsimp only
    generalize ((Nat.toDigits 10 d.coefficient).reverse.dropWhile (· = '0')).reverse = digits at *
    have hne := Numeral.ne_nil_of_toDigits hall hcoefficient
    have hdigits := Numeral.isRun_of_toDigits hall
    have hvalue := Numeral.valueOf_of_toDigits hall d.exponent
    split
    · exact (Numeral.writes_positional hne hdigits _).of_eq hvalue
    · refine (Numeral.writes_scientific hne hdigits _).of_eq ?_
      rw [sub_add_cancel]
      exact hvalue

end Binary64

end ReversePolish
