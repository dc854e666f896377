import ReversePolish.Binary64.Exponential
import ReversePolish.Proofs.Enclosure.Basic

/-! # Lower ends of magnitudes

On enclosures of magnitudes, which do not reach below zero, the lower end of a result is computed
from the lower ends of the operands, and it rises with them (`Rises`).  So the lower end of the
exponential rises with its argument, and with the number of terms (`expPartial_lo_le`). -/

namespace ReversePolish.Enclosure

attribute [local instance (high)] instPowNat

/-- Two enclosures of magnitudes, the lower end of the second not below that of the first. -/
structure Rises (a b : Enclosure) : Prop where
  nonneg : 0 ≤ a.lo
  first : a.lo ≤ a.hi
  second : b.lo ≤ b.hi
  lo_le : a.lo ≤ b.lo

variable {p : Nat} {a b c d : Enclosure}

theorem ediv_le_ceilDiv {i j : Int} (h : i ≤ j) {n : Nat} (hn : 0 < n) : i / n ≤ ceilDiv j n := by
  have hreal : (i : ℝ) / n ≤ j / n :=
    div_le_div_of_nonneg_right (Int.cast_le.2 h) (Nat.cast_nonneg n)
  exact Int.cast_le.1 ((cast_ediv_le i hn).trans (hreal.trans (le_cast_ceilDiv j hn)))

/-- The least corner is that of the lower ends. -/
theorem mul_lo (ha : 0 ≤ a.lo) (ha' : a.lo ≤ a.hi) (hc : 0 ≤ c.lo) (hc' : c.lo ≤ c.hi) :
    (mul p a c).lo = a.lo * c.lo / (2 ^ p : Nat) := by
  have hleft : a.lo * c.lo ≤ a.lo * c.hi := Int.mul_le_mul_of_nonneg_left hc' ha
  have hright : a.lo * c.lo ≤ a.hi * c.lo := Int.mul_le_mul_of_nonneg_right ha' hc
  have hboth : a.hi * c.lo ≤ a.hi * c.hi := Int.mul_le_mul_of_nonneg_left hc' (ha.trans ha')
  have hleast : min (min (a.lo * c.lo) (a.lo * c.hi)) (min (a.hi * c.lo) (a.hi * c.hi)) =
      a.lo * c.lo := by
    rw [min_eq_left hleft, min_eq_left hboth, min_eq_left hright]
  rw [mul, hleast, Int.natCast_pow]
  rfl

namespace Rises

theorem refl (hzero : 0 ≤ a.lo) (h : a.lo ≤ a.hi) : Rises a a := ⟨hzero, h, h, le_rfl⟩

theorem snd_nonneg (h : Rises a b) : 0 ≤ b.lo := h.nonneg.trans h.lo_le

theorem ratio {m n : Int} (hm : 0 ≤ m) (h : m ≤ n) {k : Nat} (hk : 0 < k) :
    Rises (ratio p m k) (Enclosure.ratio p n k) where
  nonneg := Int.ediv_nonneg (by positivity) (Int.natCast_nonneg k)
  first := ediv_le_ceilDiv le_rfl hk
  second := ediv_le_ceilDiv le_rfl hk
  lo_le := Int.ediv_le_ediv (Int.natCast_pos.2 hk)
    (Int.mul_le_mul_of_nonneg_right h (by positivity))

theorem add (h : Rises a b) (h' : Rises c d) : Rises (a.add c) (b.add d) where
  nonneg := Int.add_nonneg h.nonneg h'.nonneg
  first := Int.add_le_add h.first h'.first
  second := Int.add_le_add h.second h'.second
  lo_le := Int.add_le_add h.lo_le h'.lo_le

theorem divide (h : Rises a b) {n : Nat} (hn : 0 < n) : Rises (a.divide n) (b.divide n) where
  nonneg := Int.ediv_nonneg h.nonneg (Int.natCast_nonneg n)
  first := ediv_le_ceilDiv h.first hn
  second := ediv_le_ceilDiv h.second hn
  lo_le := Int.ediv_le_ediv (Int.natCast_pos.2 hn) h.lo_le

theorem mul (h : Rises a b) (h' : Rises c d) : Rises (a.mul p c) (b.mul p d) := by
  have hpos : 0 < (2 ^ p : Nat) := Nat.two_pow_pos p
  have hpos' : (0 : Int) < (2 ^ p : Nat) := Int.natCast_pos.2 hpos
  have hfirst := mul_lo (p := p) h.nonneg h.first h'.nonneg h'.first
  have hsecond := mul_lo (p := p) h.snd_nonneg h.second h'.snd_nonneg h'.second
  refine ⟨?_, ?_, ?_, ?_⟩
  · rw [hfirst]
    exact Int.ediv_nonneg (Int.mul_nonneg h.nonneg h'.nonneg) hpos'.le
  · rw [hfirst]
    exact ediv_le_ceilDiv ((le_max_left _ _).trans (le_max_left _ _)) hpos
  · rw [hsecond]
    exact ediv_le_ceilDiv ((le_max_left _ _).trans (le_max_left _ _)) hpos
  · rw [hfirst, hsecond]
    exact Int.ediv_le_ediv hpos' (Int.mul_le_mul h.lo_le h'.lo_le h'.nonneg h.snd_nonneg)

theorem squares (h : Rises a b) (n : Nat) : Rises (squares p n a) (Enclosure.squares p n b) := by
  induction n generalizing a b with
  | zero => exact h
  | succ n ih => exact ih (h.mul h)

theorem nested {step step' : Nat → Enclosure → Enclosure} (n : Nat)
    (hstep : ∀ k c d, Rises c d → Rises (step k c) (step' k d)) (h : Rises a b) :
    Rises (nested n step a) (Enclosure.nested n step' b) := by
  induction n generalizing a b with
  | zero => exact h
  | succ n ih =>
      rw [Enclosure.nested, Enclosure.nested, List.range_succ, List.foldr_append, List.foldr_append]
      exact ih (hstep n a b h)

end Rises

/-! ### The exponential -/

/-- A step of the exponential series. -/
def expStep (p : Nat) (x : Enclosure) (k : Nat) (tail : Enclosure) : Enclosure :=
  add (whole p 1) (divide (mul p x tail) (k + 1))

/-- The exponential series, cut off after fewer terms. -/
def expPartial (p n : Nat) (x : Enclosure) : Enclosure := nested n (expStep p x) (upTo p 2)

theorem rises_expStep (h : Rises a b) (k : Nat) (h' : Rises c d) :
    Rises (expStep p a k c) (expStep p b k d) := by
  have hone : Rises (whole p 1) (whole p 1) :=
    .refl (Int.mul_nonneg Int.one_nonneg (by positivity)) le_rfl
  exact hone.add ((h.mul h').divide k.succ_pos)

/-- More terms raise the lower end. -/
theorem rises_expPartial (h : Rises a b) (n m : Nat) :
    Rises (expPartial p n a) (expPartial p (n + m) b) := by
  have hnone : (0 : Int) ≤ (upTo p 2).hi := Int.mul_nonneg (by decide) (by positivity)
  have hb : Rises b b := .refl h.snd_nonneg h.second
  -- what the further terms put in place of the tail is a magnitude
  suffices htail : ∀ m c, Rises (upTo p 2) c →
      Rises (expPartial p n a) (nested (n + m) (expStep p b) c) from
    htail m _ (.refl le_rfl hnone)
  intro m
  induction m with
  | zero => exact fun c hc => .nested n (fun k _ _ => rises_expStep h k) hc
  | succ m ih =>
      intro c hc
      have hstep : Rises (expStep p b (n + m) c) (expStep p b (n + m) c) :=
        rises_expStep hb (n + m) (.refl hc.snd_nonneg hc.second)
      rw [← Nat.add_assoc, nested, List.range_succ, List.foldr_append]
      exact ih _ ⟨le_rfl, hnone, hstep.second, hstep.nonneg⟩

/-- **The lower end of the exponential rises with its argument**, and already few terms bound it
from below. -/
theorem expPartial_lo_le (h : Rises a b) {n : Nat} (hn : n ≤ p / 4) :
    (squares p 10 (expPartial p n (divide a 1024))).lo ≤ (expEnclosure p b).lo := by
  obtain ⟨m, hm⟩ := Nat.exists_eq_add_of_le hn
  have hseries : Rises (expPartial p n (divide a 1024)) (expSeries p (divide b 1024)) := by
    rw [expSeries, hm]
    exact rises_expPartial (h.divide (by decide)) n m
  exact (hseries.squares 10).lo_le.trans (le_max_right _ _)

end ReversePolish.Enclosure
