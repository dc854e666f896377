import ReversePolish.Proofs.Binary64.SixPlaces
import ReversePolish.Proofs.Lexicon.Decimals
import ReversePolish.Proofs.Lexicon.Display
import ReversePolish.Proofs.Numeral.Writing

/-! # Doubles as words

A double is put into words in two ways, and both of them are numerals (`classify_of_writes`).  With
six places it is displayed, and the word is that of the double that six places leave of it
(`classify_fixed`); a number that was displayed and read once is not changed by that any more
(`classify_display_settles`).  In the fewest digits it is written in diagnostic output, and the word
is that of the double itself (`classify_written`); so the canonical token of a number is read back
from that output (`classify_valueText`). -/

namespace ReversePolish.Lexicon

attribute [local instance (high)] instPowNat

open Binary64 (IsNearest)
open Numeral (Writes)

variable {t : Token}

/-- The characters of a decimal fraction, under a sign, stand for the double that it is read as. -/
theorem classify_of_writes {c : Nat} {exponent : Int} {cs : List Char}
    (h : Writes (c * 10 ^ exponent) cs) (negative : Bool) :
    classify (String.ofList (Binary64.minus negative ++ cs)) =
      Token.ofDouble (.ofDecimal negative c exponent) := by
  obtain ⟨numeral, hspells, hwhole, hvalue⟩ := h.exists_spells negative
  rw [← String.toList_ofList (l := Binary64.minus negative ++ cs)] at hspells
  rw [classify_of_not_isWhole hspells (hspells.not_isWhole hwhole)]
  exact Token.ofDouble_congr (Numeral.isNearest_toDouble hvalue)
    (Binary64.isNearest_ofDecimal negative c exponent)

theorem classify_infinite (negative : Bool) :
    classify (String.ofList (Binary64.minus negative ++ ['i', 'n', 'f'])) =
      .ok (.float (.infinite negative)) := by
  cases negative with
  | false => rfl
  | true => rfl

theorem classify_nan : classify (String.ofList ['n', 'a', 'n']) = .ok (.float .nan) := rfl

/-! ### Six places -/

/-- **The display of a double stands for what six places leave of it.** -/
theorem classify_fixed (x : Binary64) : classify x.fixed = Token.ofDouble x.sixPlaces := by
  cases x with
  | finite negative units fits =>
      have hwrites :=
        Numeral.writes_places (Binary64.millionths units) Binary64.shownPlaces (by decide)
      rw [Binary64.sixPlaces_eq_ofDecimal, Binary64.fixed]
      simp only [Binary64.fixedChars, List.append_assoc]
      exact classify_of_writes hwrites negative
  | infinite negative => exact classify_infinite negative
  | nan => exact classify_nan

/-- What six places leave unchanged is displayed as a word for its token. -/
theorem classify_display_of_sixPlaces {x : Binary64} (hx : x.sixPlaces = x)
    (h : Token.ofDouble x = .ok t) : classify t.display = .ok t := by
  rcases Token.ofDouble_eq_ok h with ⟨cell, rfl⟩ | rfl
  · exact classify_display trivial
  · rw [Token.display, classify_fixed, hx, h]

/-- **A number that was displayed and read has settled.**  The display of a double is read as the
double nearest to its value rounded to six places, or as the double itself if it is infinite. -/
theorem classify_display_settles (h : t.isNumeric) :
    ∃ u, classify t.display = .ok u ∧ u.isNumeric ∧
      (∀ x v, t = .float x → x.toRat? = some v →
        ∃ k y, IsNearestInt (v * 10 ^ 6) k ∧ IsNearest (k / 10 ^ 6) y ∧ Token.ofDouble y = .ok u) ∧
      (∀ negative, t = .float (.infinite negative) → u = t) ∧
      classify u.display = .ok u := by
  cases t with
  | integer cell =>
      have hcell := classify_display (t := .integer cell) trivial
      refine ⟨_, hcell, rfl, fun x v hfloat => ?_, fun negative hinfinite => ?_, hcell⟩
      · cases hfloat
      · cases hinfinite
  | float x =>
      obtain ⟨u, hu, -⟩ := Token.ofDouble_canonical x.sixPlaces
      have hdisplay : classify (Token.float x).display = .ok u := by
        rw [Token.display, classify_fixed, hu]
      refine ⟨u, hdisplay, Token.ofDouble_isNumeric _ u hu, ?_, ?_, ?_⟩
      · rintro _ v ⟨⟩ hv
        obtain ⟨k, hk, hnearest⟩ := Binary64.isNearest_sixPlaces hv
        exact ⟨k, _, hk, hnearest, hu⟩
      · rintro negative ⟨⟩
        exact (Except.ok.inj hu).symm
      · exact classify_display_of_sixPlaces (Binary64.sixPlaces_sixPlaces x) hu
  | _ => cases h

/-- Where doubles lie two millionths apart, a double keeps its place after the first display. -/
theorem classify_display_settles_wide :
    (Token.float (.ofRatio false (2 ^ 52 + 1) (2 ^ 19))).display = "8589934592.000002" ∧
      ∃ u, classify "8589934592.000002" = .ok u ∧ u.isNumeric ∧ classify u.display = .ok u := by
  have hdisplay : (Token.float (.ofRatio false (2 ^ 52 + 1) (2 ^ 19))).display =
      "8589934592.000002" := by decide +kernel
  obtain ⟨u, hu, hnumeric, -, -, hsettled⟩ :=
    classify_display_settles (t := .float (.ofRatio false (2 ^ 52 + 1) (2 ^ 19))) rfl
  exact ⟨hdisplay, u, hdisplay ▸ hu, hnumeric, hsettled⟩

/-! ### The fewest digits -/

/-- **A double in the fewest digits stands for itself.** -/
theorem classify_written (x : Binary64) : classify x.written = Token.ofDouble x := by
  cases x with
  | finite negative units fits =>
      have hclassify :=
        classify_of_writes (Binary64.Decimal.writes_chars (Binary64.shortest units)) negative
      rwa [Binary64.ofDecimal_shortest negative fits] at hclassify
  | infinite negative => exact classify_infinite negative
  | nan => exact classify_nan

theorem classify_valueText (hnumeric : t.isNumeric) (hcanonical : t.IsCanonical) :
    classify t.valueText = .ok t := by
  cases t with
  | integer cell => exact classify_display (t := .integer cell) trivial
  | float x =>
      rw [Token.valueText, classify_written]
      exact (Token.rewrapped_eq_iff (.float x)).2 hcanonical
  | _ => cases hnumeric

/-- **The diagnostic output of a canonical number loses nothing**: it is a text between parentheses
behind the kind, no other text makes the same output, and this one is classified as the number
again, be it finite, infinite or a NaN. -/
theorem debugText_lossless (hnumeric : t.isNumeric) (hcanonical : t.IsCanonical) :
    ∃ text, t.debugText = "Token." ++ t.kind.label ++ "(" ++ text ++ ")" ∧
      (∀ other, t.debugText = "Token." ++ t.kind.label ++ "(" ++ other ++ ")" → other = text) ∧
      classify text = .ok t := by
  refine ⟨t.valueText, rfl, fun other hother => ?_, classify_valueText hnumeric hcanonical⟩
  rw [Token.debugText, String.append_left_inj, String.append_right_inj] at hother
  exact hother.symm

/-- The least double, which one digit is enough for, and a NaN. -/
theorem debugText_lossless_least :
    let least : Token := .float (.finite false 1 (by decide +kernel))
    least.debugText = "Token.FLOAT(5e-324)" ∧ classify "5e-324" = .ok least ∧
      (Token.float .nan).debugText = "Token.FLOAT(nan)" ∧
      classify "nan" = .ok (.float .nan) := by
  intro least
  have hcanonical : least.IsCanonical := by
    intro i hi
    have hnone : (Binary64.finite false 1 (by decide +kernel)).toInt? = none := by decide +kernel
    rw [hnone] at hi
    cases hi
  have hnan : (Token.float .nan).IsCanonical := by
    intro i hi
    cases hi
  have hleast : least.debugText = "Token.FLOAT(5e-324)" := by decide +kernel
  obtain ⟨text, -, honly, hclassify⟩ := debugText_lossless rfl hcanonical
  obtain ⟨text', -, honly', hclassify'⟩ := debugText_lossless rfl hnan
  rw [← honly "5e-324" (hleast.trans rfl)] at hclassify
  rw [← honly' "nan" rfl] at hclassify'
  exact ⟨hleast, hclassify, rfl, hclassify'⟩

end ReversePolish.Lexicon
