import ReversePolish.Binary64.Arithmetic

/-! # Enclosures

An enclosure at `p` binary places holds the reals between `lo / 2^p` and `hi / 2^p`.  Every
operation moves the lower end down and the upper end up to the next multiple of `2^-p`, so that it
holds every value the operation takes on the operands.

`ends` reads two doubles off an enclosure, and if they are one, every number of the enclosure
rounds to it.  `settle` repeats a computation at more and more places until the ends agree.  Every
double is a multiple of `2^-1074`, so the first attempt, at 1280 places, has more than two hundred
places left below the finest grid.  The last attempt is taken as it is, so that there is always a
result, and `settle_of_forall` carries over to it what all attempts have in common. -/

namespace ReversePolish

attribute [local instance (high)] instPowNat

structure Enclosure where
  lo : Int
  hi : Int
deriving DecidableEq, Repr

namespace Enclosure

/-! ### Exact values and quotients -/

/-- The quotient rounded up. -/
def ceilDiv (a : Int) (d : Nat) : Int := -(-a / d)

/-- The integer `i`. -/
def whole (p : Nat) (i : Int) : Enclosure := ⟨i * 2 ^ p, i * 2 ^ p⟩

/-- The fraction `n / d`. -/
def ratio (p : Nat) (n : Int) (d : Nat) : Enclosure := ⟨n * 2 ^ p / d, ceilDiv (n * 2 ^ p) d⟩

/-- All numbers from `-k` to `k`. -/
def symmetric (p k : Nat) : Enclosure := ⟨-(k * 2 ^ p), k * 2 ^ p⟩

/-! ### Operations -/

def neg (a : Enclosure) : Enclosure := ⟨-a.hi, -a.lo⟩

def add (a b : Enclosure) : Enclosure := ⟨a.lo + b.lo, a.hi + b.hi⟩

def sub (a b : Enclosure) : Enclosure := ⟨a.lo - b.hi, a.hi - b.lo⟩

/-- The product with an integer. -/
def scale (a : Enclosure) (k : Int) : Enclosure :=
  if 0 ≤ k then ⟨k * a.lo, k * a.hi⟩ else ⟨k * a.hi, k * a.lo⟩

/-- The quotient by a positive integer. -/
def divide (a : Enclosure) (d : Nat) : Enclosure := ⟨a.lo / d, ceilDiv a.hi d⟩

/-- The product; the extremes lie at corners. -/
def mul (p : Nat) (a b : Enclosure) : Enclosure :=
  let c := a.lo * b.lo
  let d := a.lo * b.hi
  let e := a.hi * b.lo
  let f := a.hi * b.hi
  ⟨min (min c d) (min e f) / 2 ^ p, ceilDiv (max (max c d) (max e f)) (2 ^ p)⟩

/-- The quotient by an enclosure of positive numbers. -/
def overPositive (p : Nat) (a b : Enclosure) : Enclosure :=
  let c := a.lo * 2 ^ p
  let d := a.hi * 2 ^ p
  ⟨min (c / b.lo) (c / b.hi),
    max (ceilDiv d b.lo.toNat) (ceilDiv d b.hi.toNat)⟩

/-- The quotient, if the divisor keeps clear of zero. -/
def over? (p : Nat) (a b : Enclosure) : Option Enclosure :=
  if 0 < b.lo then some (overPositive p a b)
  else if b.hi < 0 then some (overPositive p a.neg b.neg)
  else none

/-- The square root of the fraction `n / d`. -/
def rootOfRatio (p n d : Nat) : Enclosure :=
  let root := (n * 4 ^ p / d).sqrt
  ⟨root, root + 1⟩

/-- The square, repeated. -/
def squares (p : Nat) : Nat → Enclosure → Enclosure
  | 0, a => a
  | n + 1, a => squares p n (mul p a a)

/-- The part of an enclosure from zero on. -/
def fromZero (a : Enclosure) : Enclosure := ⟨max 0 a.lo, max 0 a.hi⟩

/-! ### Reading off a double -/

/-- The double nearest to `n / 2^p`. -/
def endpoint (p : Nat) (n : Int) : Binary64 := .ofRatio (n < 0) n.natAbs (2 ^ p)

/-- The doubles nearest to the two ends. -/
def ends (p : Nat) (a : Enclosure) : Binary64 × Binary64 := (endpoint p a.lo, endpoint p a.hi)

/-- The part of an enclosure between `-k` and `k`. -/
def within (p k : Nat) (a : Enclosure) : Enclosure :=
  let bound : Int := k * 2 ^ p
  ⟨max (-bound) (min bound a.lo), max (-bound) (min bound a.hi)⟩

/-- The doubles nearest to the two ends, for a number known to lie between `-k` and `k`. -/
def endsWithin (p k : Nat) (a : Enclosure) : Binary64 × Binary64 := ends p (within p k a)

/-- The double that both ends are. -/
def agreed? (ends : Binary64 × Binary64) : Option Binary64 :=
  if ends.1 = ends.2 then some ends.1 else none

/-- The numbers of places of all attempts but the last. -/
def attempts : List Nat := [1280, 2560, 5120]

/-- The number of places of the last attempt. -/
def lastAttempt : Nat := 10240

/-- The double of the first attempt whose ends agree. -/
def settled? (attempt : Nat → Binary64 × Binary64) : Option Binary64 :=
  attempts.findSome? fun p => agreed? (attempt p)

/-- The double of the first attempt whose ends agree; the last attempt is taken at its lower
end. -/
def settle (attempt : Nat → Binary64 × Binary64) : Binary64 :=
  (settled? attempt).getD (attempt lastAttempt).1

/-- A double that is settled on is both ends of an attempt. -/
theorem exists_of_settled? {attempt : Nat → Binary64 × Binary64} {x : Binary64}
    (h : settled? attempt = some x) : ∃ p ∈ attempts, attempt p = (x, x) := by
  obtain ⟨p, hp, hagreed⟩ := List.exists_of_findSome?_eq_some h
  unfold agreed? at hagreed
  split at hagreed
  next hends =>
    have hx : (attempt p).1 = x := Option.some.inj hagreed
    exact ⟨p, hp, Prod.ext hx (hends.symm.trans hx)⟩
  · cases hagreed

/-- What the lower ends of all attempts have, the result has. -/
theorem settle_of_forall {P : Binary64 → Prop} {attempt : Nat → Binary64 × Binary64}
    (h : ∀ p, P (attempt p).1) : P (settle attempt) := by
  unfold settle
  cases found : settled? attempt with
  | none => exact h lastAttempt
  | some x =>
      obtain ⟨p, -, hp⟩ := exists_of_settled? found
      have hend := h p
      rwa [hp] at hend

theorem natAbs_within_le (p k : Nat) (a : Enclosure) : (within p k a).lo.natAbs ≤ k * 2 ^ p := by
  have hcast : (k : Int) * 2 ^ p = ((k * 2 ^ p : Nat) : Int) := by simp
  simp only [within, hcast]
  omega

/-- A number between bounds that are doubles rounds to a finite double. -/
theorem isFinite_endsWithin {p k : Nat} (a : Enclosure) (hk : k ≤ 2 ^ (126 : Nat)) :
    (endsWithin p k a).1.isFinite := by
  simp only [endsWithin, ends, endpoint, Binary64.ofRatio]
  refine Binary64.isFinite_ofUnits ?_
  refine Nat.lt_of_le_of_lt (Nat.add_le_add_right (Nat.mul_le_mul_left 2 ?_) 1)
    (Binary64.two_mul_units_lt_unitsLimit hk)
  refine Nat.div_le_of_le_mul ?_
  calc (within p k a).lo.natAbs * Binary64.unitsPerOne
      ≤ k * 2 ^ p * Binary64.unitsPerOne := Nat.mul_le_mul_right _ (natAbs_within_le p k a)
    _ = 2 ^ p * (k * Binary64.unitsPerOne) := by rw [Nat.mul_comm k, Nat.mul_assoc]

/-- What is read off bounded enclosures is finite. -/
theorem isFinite_settle (k : Nat) (hk : k ≤ 2 ^ (126 : Nat)) (places : Nat → Nat)
    (a : Nat → Enclosure) :
    (settle fun p => endsWithin (places p) k (a p)).isFinite :=
  settle_of_forall (P := fun x => x.isFinite = true) fun _ => isFinite_endsWithin _ hk

end Enclosure

end ReversePolish
