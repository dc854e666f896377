import ReversePolish.Enclosure.Basic

/-! # Series in nested form

A power series is summed from the inside out: `nested` takes an enclosure for the tail and
applies the steps of the first `n` terms to it, the last one first.  Truncation needs no estimate
of its own, because the enclosure of the tail already holds what is left out:

* `exp x = 1 + x/1 (1 + x/2 (1 + x/3 (⋯)))`, the tail in `[0, 2]` for `|x| ≤ 1`;
* `sin x = x (1 - x²/(2·3) (1 - x²/(4·5) (⋯)))`, the tail in `[0, 1]` for `|x| ≤ 2`;
* `cos x = 1 - x²/(1·2) (1 - x²/(3·4) (⋯))`, likewise;
* `arctan x = x (1/1 - x² (1/3 - x² (1/5 - ⋯)))`, the tail in `[0, 1]` for `|x| ≤ 1`;
* `artanh x = x (1/1 + x² (1/3 + x² (1/5 + ⋯)))`, the tail in `[0, 2]` for `x² ≤ 1/2`. -/

namespace ReversePolish.Enclosure

attribute [local instance (high)] instPowNat

/-- The steps `0` to `n - 1` around a tail, step `0` outermost. -/
def nested (n : Nat) (step : Nat → Enclosure → Enclosure) (tail : Enclosure) : Enclosure :=
  (List.range n).foldr step tail

/-- All numbers from `0` to `k`. -/
def upTo (p k : Nat) : Enclosure := ⟨0, k * 2 ^ p⟩

/-- The exponential function on `|x| ≤ 1`. -/
def expSeries (p : Nat) (x : Enclosure) : Enclosure :=
  nested (p / 4) (fun k tail => add (whole p 1) (divide (mul p x tail) (k + 1))) (upTo p 2)

/-- The sine on `|x| ≤ 2`. -/
def sinSeries (p : Nat) (x : Enclosure) : Enclosure :=
  let square := mul p x x
  let step (k : Nat) (tail : Enclosure) :=
    sub (whole p 1) (divide (mul p square tail) ((2 * k + 2) * (2 * k + 3)))
  mul p x (nested (p / 8) step (upTo p 1))

/-- The cosine on `|x| ≤ 2`. -/
def cosSeries (p : Nat) (x : Enclosure) : Enclosure :=
  let square := mul p x x
  let step (k : Nat) (tail : Enclosure) :=
    sub (whole p 1) (divide (mul p square tail) ((2 * k + 1) * (2 * k + 2)))
  nested (p / 8) step (upTo p 1)

/-- The arc tangent on `|x| ≤ 1`, quick for small `x`. -/
def arctanSeries (p : Nat) (x : Enclosure) : Enclosure :=
  let square := mul p x x
  let step (k : Nat) (tail : Enclosure) := sub (ratio p 1 (2 * k + 1)) (mul p square tail)
  mul p x (nested (p / 3) step (upTo p 1))

/-- The area hyperbolic tangent on `|x| ≤ 1/3`. -/
def artanhSeries (p : Nat) (x : Enclosure) : Enclosure :=
  let square := mul p x x
  let step (k : Nat) (tail : Enclosure) := add (ratio p 1 (2 * k + 1)) (mul p square tail)
  mul p x (nested (p / 3) step (upTo p 2))

/-! ### Constants -/

/-- A quarter of the circle constant: four times the arc tangent of `1/5` less that of
`1/239`. -/
def quarterPi (p : Nat) : Enclosure :=
  ((arctanSeries p (ratio p 1 5)).scale 4).sub (arctanSeries p (ratio p 1 239))

def halfPi (p : Nat) : Enclosure := (quarterPi p).scale 2

/-- The natural logarithm of two: `2 artanh (1/3)`. -/
def ln2 (p : Nat) : Enclosure := (artanhSeries p (ratio p 1 3)).scale 2

end ReversePolish.Enclosure
