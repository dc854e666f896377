import ReversePolish.Binary64.Basic

/-! # The interchange encoding

A double in 64 bits: the sign bit above a magnitude of 63 bits.  Below `2^53` the magnitude bits
are the count of units itself; above, each `2^52` of them doubles the spacing.  All NaNs are one
here, and encode as the quiet one. -/

namespace ReversePolish

attribute [local instance (high)] instPowNat

namespace Binary64

/-- Magnitude bits from which on a pattern is no finite number. -/
def infinityBits : Nat := 0x7ff0000000000000

/-- The sign bit. -/
def signBit : Nat := 0x8000000000000000

/-- The significand of a magnitude pattern, and the number of places it is shifted up. -/
def unpack (magnitude : Nat) : Nat × Nat :=
  let step := 2 ^ fractionDigits
  if magnitude < 2 * step then (magnitude, 0)
  else (step + magnitude % step, magnitude / step - 1)

theorem unpack_le (magnitude : Nat) : (unpack magnitude).1 ≤ 2 ^ (fractionDigits + 1) := by
  rw [Nat.pow_succ]
  unfold unpack
  dsimp only
  split
  · omega
  · have := Nat.mod_lt magnitude (Nat.two_pow_pos fractionDigits)
    dsimp only
    omega

/-- Decodes 64 bits. -/
def ofBits (bits : Nat) : Binary64 :=
  let negative := signBit ≤ bits
  let magnitude := bits % signBit
  let scaled := unpack magnitude
  if magnitude = infinityBits then infinite negative
  else if limit : scaled.1 * 2 ^ scaled.2 < unitsLimit then
    finite negative (scaled.1 * 2 ^ scaled.2) ⟨limit, spacing_dvd_mul _ (unpack_le magnitude)⟩
  else nan

/-- The magnitude bits of a count of units. -/
def pack (units : Nat) : Nat :=
  let shift := units.log2 - fractionDigits
  shift * 2 ^ fractionDigits + units / 2 ^ shift

/-- Encodes a double in 64 bits. -/
def toBits : Binary64 → Nat
  | finite negative units _ => (if negative then signBit else 0) + pack units
  | infinite negative => (if negative then signBit else 0) + infinityBits
  | nan => 0x7ff8000000000000

end Binary64

end ReversePolish
