import Mathlib.Data.List.Forall2
import Mathlib.Data.List.TakeWhile
import ReversePolish.Numeral

/-! # The grammar of numerals

`IsLiteral word` says what a numeral is by the parts that its word is put together from: an optional
sign, and a coefficient with an optional exponent, or a name in any case.  `Spells numeral word`
also says which numeral it is.  Reading takes a word apart from the front; it finds exactly the
parts that the grammar names (`read?_eq_some_iff`), because no part begins with a character that
could belong to the part before it.  So a word spells one numeral at most (`Spells.unique`). -/

namespace ReversePolish.Numeral

-- What holds of all characters of a text is decided along the text, not along all characters.
attribute [local instance (high)] List.decidableBAll

/-! ### Parts of numerals -/

/-- One of the ten digits of ASCII. -/
def IsDigit (c : Char) : Prop := c ∈ "0123456789".toList

instance (c : Char) : Decidable (IsDigit c) := inferInstanceAs (Decidable (c ∈ _))

/-- Digits, or nothing. -/
def IsRun (cs : List Char) : Prop := ∀ c ∈ cs, IsDigit c

/-- A sign, or none, which counts as a plus. -/
inductive Sign : Bool → List Char → Prop
  | none : Sign false []
  | plus : Sign false ['+']
  | minus : Sign true ['-']

/-- The digits before and behind the decimal point, and how the two are written. -/
inductive Coefficient : List Char → List Char → List Char → Prop
  | whole {before : List Char} (hne : before ≠ []) (hbefore : IsRun before) :
      Coefficient before [] before
  | pointed {before places : List Char} (hne : before ≠ []) (hbefore : IsRun before)
      (hplaces : IsRun places) : Coefficient before places (before ++ '.' :: places)
  | places {places : List Char} (hne : places ≠ []) (hplaces : IsRun places) :
      Coefficient [] places ('.' :: places)

/-- A power of ten, and how it is written; the power zero need not be. -/
inductive Exponent : Int → List Char → Prop
  | none : Exponent 0 []
  | power {e : Char} {negative : Bool} {sign digits : List Char} (he : e = 'e' ∨ e = 'E')
      (hsign : Sign negative sign) (hne : digits ≠ []) (hdigits : IsRun digits) :
      Exponent (signedValue negative digits) (e :: (sign ++ digits))

/-- The letters of a name, each of them small or capital. -/
def IsName (name : String) (cs : List Char) : Prop :=
  List.Forall₂ (fun c letter => c = letter ∨ c = letter.toUpper) cs name.toList

/-- **The grammar of numerals.**  A sign and digits alone are an integer; all other decimal numbers
are fractions, whole ones with a point or an exponent included. -/
inductive Spells : Numeral → List Char → Prop
  | whole {negative : Bool} {sign digits : List Char} (hsign : Sign negative sign)
      (hne : digits ≠ []) (hdigits : IsRun digits) :
      Spells (.whole negative digits) (sign ++ digits)
  | fraction {negative : Bool} {sign before places coefficient power : List Char} {exponent : Int}
      (hsign : Sign negative sign) (hcoefficient : Coefficient before places coefficient)
      (hexponent : Exponent exponent power) (hwhole : ¬ IsRun (coefficient ++ power)) :
      Spells (.fraction negative (before ++ places) (exponent - places.length))
        (sign ++ (coefficient ++ power))
  | infinity {negative : Bool} {sign name : List Char} (hsign : Sign negative sign)
      (hname : IsName "inf" name ∨ IsName "infinity" name) :
      Spells (.infinity negative) (sign ++ name)
  | nan {negative : Bool} {sign name : List Char} (hsign : Sign negative sign)
      (hname : IsName "nan" name) : Spells .nan (sign ++ name)

/-- **The words of the grammar.**  A sign, or none, and then a coefficient with an exponent, or
with none, or a name. -/
inductive IsLiteral : List Char → Prop
  | decimal {negative : Bool} {sign before places coefficient power : List Char} {exponent : Int}
      (hsign : Sign negative sign) (hcoefficient : Coefficient before places coefficient)
      (hexponent : Exponent exponent power) : IsLiteral (sign ++ (coefficient ++ power))
  | name {negative : Bool} {sign name : List Char} (hsign : Sign negative sign)
      (hname : IsName "inf" name ∨ IsName "infinity" name ∨ IsName "nan" name) :
      IsLiteral (sign ++ name)

/-! ### Characters -/

theorem isDigit_iff {c : Char} : c.isDigit ↔ IsDigit c := by
  have hdigits : "0123456789".toList = ['0', '1', '2', '3', '4', '5', '6', '7', '8', '9'] := rfl
  simp only [IsDigit, hdigits, List.mem_cons, List.not_mem_nil, or_false, ← Char.toNat_inj]
  simp [Char.isDigit, UInt32.le_iff_toNat_le]
  omega

theorem toNat_toLower (c : Char) :
    c.toLower.toNat = if 65 ≤ c.toNat ∧ c.toNat ≤ 90 then c.toNat + 32 else c.toNat := by
  unfold Char.toLower
  split
  next h =>
    have hge : 65 ≤ c.toNat := UInt32.le_iff_toNat_le.1 h.1
    have hle : c.toNat ≤ 90 := UInt32.le_iff_toNat_le.1 h.2
    rw [if_pos ⟨hge, hle⟩]
    change (c.toNat + 32) % 2 ^ 32 = c.toNat + 32
    omega
  next h =>
    refine (if_neg ?_).symm
    rintro ⟨hge, hle⟩
    exact h ⟨UInt32.le_iff_toNat_le.2 hge, UInt32.le_iff_toNat_le.2 hle⟩

/-- A small letter of ASCII, whose capital stands 32 places before it. -/
def IsSmall (letter : Char) : Prop :=
  97 ≤ letter.toNat ∧ letter.toNat ≤ 122 ∧ letter.toUpper.toNat + 32 = letter.toNat

instance (letter : Char) : Decidable (IsSmall letter) := inferInstanceAs (Decidable (_ ∧ _))

theorem toLower_eq_iff {letter : Char} (h : IsSmall letter) (c : Char) :
    c.toLower = letter ↔ c = letter ∨ c = letter.toUpper := by
  obtain ⟨hge, hle, hcapital⟩ := h
  simp only [← Char.toNat_inj, toNat_toLower]
  split <;> omega

theorem map_toLower_eq_iff {cs letters : List Char} (h : ∀ letter ∈ letters, IsSmall letter) :
    cs.map Char.toLower = letters ↔
      List.Forall₂ (fun c letter => c = letter ∨ c = letter.toUpper) cs letters := by
  induction letters generalizing cs with
  | nil => simp
  | cons letter letters ih =>
      cases cs with
      | nil => simp
      | cons c cs =>
          obtain ⟨hletter, hletters⟩ := List.forall_mem_cons.1 h
          rw [List.map_cons, List.cons.injEq, List.forall₂_cons, toLower_eq_iff hletter,
            ih hletters]

/-! ### Taking a word apart -/

variable {negative : Bool} {cs sign digits rest before places coefficient power : List Char}
  {exponent : Int} {numeral : Numeral}

/-- The first character, if there is one, is none of `p`. -/
def StartsWithout (p : Char → Prop) (cs : List Char) : Prop := ∀ c ∈ cs.head?, ¬ p c

theorem IsDigit.ne_mark {c : Char} (h : IsDigit c) : c ≠ '+' ∧ c ≠ '-' ∧ c ≠ '.' := by
  have hall : ∀ c ∈ "0123456789".toList, c ≠ '+' ∧ c ≠ '-' ∧ c ≠ '.' := by decide
  exact hall c h

theorem IsDigit.toNat_lt {c : Char} (h : IsDigit c) : c.toNat < 65 := by
  have hall : ∀ c ∈ "0123456789".toList, c.toNat < 65 := by decide
  exact hall c h

/-- Without a sign in front. -/
abbrev IsUnsigned (cs : List Char) : Prop := StartsWithout (fun c => c = '+' ∨ c = '-') cs

theorem IsRun.isUnsigned (h : IsRun cs) : IsUnsigned cs := by
  intro c hc
  have hne := (h c (List.mem_of_mem_head? hc)).ne_mark
  exact not_or.2 ⟨hne.1, hne.2.1⟩

theorem exists_sign (word : List Char) : ∃ negative sign rest,
    Sign negative sign ∧ word = sign ++ rest ∧ splitSign word = (negative, rest) := by
  unfold splitSign
  split
  next rest => exact ⟨true, ['-'], rest, .minus, rfl, rfl⟩
  next rest => exact ⟨false, ['+'], rest, .plus, rfl, rfl⟩
  · exact ⟨false, [], word, .none, rfl, rfl⟩

theorem splitSign_append (hsign : Sign negative sign)
    (hrest : IsUnsigned rest) :
    splitSign (sign ++ rest) = (negative, rest) := by
  cases hsign with
  | plus | minus => rfl
  | none =>
      rw [List.nil_append]
      unfold splitSign
      split
      · exact absurd (.inr rfl) (hrest '-' rfl)
      · exact absurd (.inl rfl) (hrest '+' rfl)
      · rfl

theorem isRun_splitDigits (cs : List Char) : IsRun (splitDigits cs).1 := by
  intro c hc
  exact isDigit_iff.1 (List.mem_takeWhile_imp hc)

theorem splitDigits_eq (cs : List Char) : (splitDigits cs).1 ++ (splitDigits cs).2 = cs :=
  List.takeWhile_append_dropWhile

theorem splitDigits_append (hdigits : IsRun digits) (hrest : StartsWithout IsDigit rest) :
    splitDigits (digits ++ rest) = (digits, rest) := by
  have hall : ∀ c ∈ digits, c.isDigit = true := fun c hc => isDigit_iff.2 (hdigits c hc)
  have hstop : rest.takeWhile Char.isDigit = [] ∧ rest.dropWhile Char.isDigit = rest := by
    cases rest with
    | nil => exact ⟨rfl, rfl⟩
    | cons c rest =>
        have hc : ¬ c.isDigit = true := fun h => hrest c rfl (isDigit_iff.1 h)
        exact ⟨List.takeWhile_cons_of_neg hc, List.dropWhile_cons_of_neg hc⟩
  rw [splitDigits, List.takeWhile_append_of_pos hall, List.dropWhile_append_of_pos hall, hstop.1,
    hstop.2, List.append_nil]

theorem isDigits_iff : isDigits cs ↔ cs ≠ [] ∧ IsRun cs := by
  simp only [isDigits, Bool.and_eq_true, Bool.not_eq_true', List.isEmpty_eq_false_iff,
    List.all_eq_true, isDigit_iff]
  rfl

/-! ### Exponents and coefficients -/

theorem exponent?_eq_some_iff : exponent? cs = some exponent ↔ Exponent exponent cs := by
  constructor
  · intro h
    cases cs with
    | nil => cases h; exact .none
    | cons c rest =>
        obtain ⟨negative, sign, digits, hsign, rfl, hsplit⟩ := exists_sign rest
        simp only [exponent?, hsplit] at h
        split at h
        next hc =>
          obtain ⟨hne, hdigits⟩ := isDigits_iff.1 hc.2
          cases h
          exact .power hc.1 hsign hne hdigits
        · cases h
  · intro h
    cases h with
    | none => rfl
    | @power e negative sign digits he hsign hne hdigits =>
        simp only [exponent?, splitSign_append hsign hdigits.isUnsigned]
        exact if_pos ⟨he, isDigits_iff.2 ⟨hne, hdigits⟩⟩

/-- An exponent does not begin like the end of a coefficient. -/
theorem Exponent.startsWithout (h : Exponent exponent power) :
    StartsWithout (fun c => IsDigit c ∨ c = '.') power := by
  cases h with
  | none => intro c hc; cases hc
  | power he =>
      rintro c hc h
      cases hc
      rcases he with rfl | rfl
      · exact h.elim (by decide) (by decide)
      · exact h.elim (by decide) (by decide)

theorem splitPlaces_point (cs : List Char) : splitPlaces ('.' :: cs) = splitDigits cs := rfl

theorem splitPlaces_cases (cs : List Char) :
    (∃ rest, cs = '.' :: rest) ∨ splitPlaces cs = ([], cs) := by
  unfold splitPlaces
  split
  next rest => exact .inl ⟨rest, rfl⟩
  · exact .inr rfl

theorem splitPlaces_of_startsWithout (h : StartsWithout (fun c => IsDigit c ∨ c = '.') power) :
    splitPlaces power = ([], power) := by
  rcases splitPlaces_cases power with ⟨rest, rfl⟩ | hsplit
  · exact absurd (.inr rfl) (h '.' rfl)
  · exact hsplit

theorem coefficient_of_split (cs : List Char)
    (hne : ¬ ((splitDigits cs).1 = [] ∧ (splitPlaces (splitDigits cs).2).1 = [])) :
    ∃ coefficient, Coefficient (splitDigits cs).1 (splitPlaces (splitDigits cs).2).1 coefficient ∧
      cs = coefficient ++ (splitPlaces (splitDigits cs).2).2 := by
  have hbefore := isRun_splitDigits cs
  have hcs := splitDigits_eq cs
  generalize (splitDigits cs).1 = before at *
  generalize (splitDigits cs).2 = after at *
  subst hcs
  rcases splitPlaces_cases after with ⟨rest, rfl⟩ | hsplit
  · rw [splitPlaces_point] at hne ⊢
    have hplaces := isRun_splitDigits rest
    have hrest := splitDigits_eq rest
    rcases eq_or_ne before [] with rfl | hbeforeNe
    · refine ⟨_, .places (fun hnil => hne ⟨rfl, hnil⟩) hplaces, ?_⟩
      rw [List.nil_append, List.cons_append, hrest]
    · refine ⟨_, .pointed hbeforeNe hbefore hplaces, ?_⟩
      rw [List.append_assoc, List.cons_append, hrest]
  · rw [hsplit] at hne ⊢
    have hbeforeNe : before ≠ [] := fun hnil => hne ⟨hnil, rfl⟩
    exact ⟨before, .whole hbeforeNe hbefore, rfl⟩

theorem split_coefficient (h : Coefficient before places coefficient)
    (hpower : StartsWithout (fun c => IsDigit c ∨ c = '.') power) :
    ∃ after, splitDigits (coefficient ++ power) = (before, after) ∧
      splitPlaces after = (places, power) := by
  have hdigit : StartsWithout IsDigit power := fun c hc hdigit => hpower c hc (.inl hdigit)
  have hpoint (cs : List Char) : StartsWithout IsDigit ('.' :: cs) := by
    intro c hc
    cases hc
    decide
  cases h with
  | whole hne hbefore =>
      exact ⟨power, splitDigits_append hbefore hdigit, splitPlaces_of_startsWithout hpower⟩
  | pointed hne hbefore hplaces =>
      refine ⟨'.' :: (places ++ power), ?_, splitDigits_append hplaces hdigit⟩
      rw [List.append_assoc]
      exact splitDigits_append hbefore (hpoint _)
  | places hne hplaces =>
      refine ⟨'.' :: (places ++ power), ?_, splitDigits_append hplaces hdigit⟩
      exact splitDigits_append (fun c hc => absurd hc List.not_mem_nil) (hpoint _)

theorem Coefficient.ne_nil (h : Coefficient before places coefficient) :
    ¬ (before = [] ∧ places = []) := by
  cases h with
  | whole hne | pointed hne => exact fun hnil => hne hnil.1
  | places hne => exact fun hnil => hne hnil.2

theorem fraction?_eq_some_iff : fraction? negative cs = some numeral ↔
    ∃ before places coefficient exponent power, Coefficient before places coefficient ∧
      Exponent exponent power ∧ cs = coefficient ++ power ∧
        numeral = .fraction negative (before ++ places) (exponent - places.length) := by
  constructor
  · intro h
    simp only [fraction?] at h
    split at h
    · cases h
    next hne =>
      rw [Bool.and_eq_true, List.isEmpty_iff, List.isEmpty_iff] at hne
      obtain ⟨coefficient, hcoefficient, hcs⟩ := coefficient_of_split cs hne
      obtain ⟨exponent, hexponent, rfl⟩ := Option.map_eq_some_iff.1 h
      exact ⟨_, _, coefficient, exponent, _, hcoefficient, exponent?_eq_some_iff.1 hexponent, hcs,
        rfl⟩
  · rintro ⟨before, places, coefficient, exponent, power, hcoefficient, hexponent, rfl, rfl⟩
    obtain ⟨after, hdigits, hplaces⟩ := split_coefficient hcoefficient hexponent.startsWithout
    have hne := hcoefficient.ne_nil
    simp only [fraction?, hdigits, hplaces, exponent?_eq_some_iff.2 hexponent, Option.map_some]
    refine if_neg ?_
    rwa [Bool.and_eq_true, List.isEmpty_iff, List.isEmpty_iff]

/-! ### Names and words -/

theorem word?_eq_some_iff : word? negative cs = some numeral ↔
    numeral = .infinity negative ∧ (IsName "inf" cs ∨ IsName "infinity" cs) ∨
      numeral = .nan ∧ IsName "nan" cs := by
  have hinf : cs.map Char.toLower = "inf".toList ↔ IsName "inf" cs :=
    map_toLower_eq_iff (by decide)
  have hinfinity : cs.map Char.toLower = "infinity".toList ↔ IsName "infinity" cs :=
    map_toLower_eq_iff (by decide)
  have hnan : cs.map Char.toLower = "nan".toList ↔ IsName "nan" cs :=
    map_toLower_eq_iff (by decide)
  rw [← hinf, ← hinfinity, ← hnan]
  simp only [word?]
  split
  next h =>
    have hne : cs.map Char.toLower ≠ "nan".toList := by
      rcases h with h | h <;> rw [h] <;> decide
    constructor
    · intro hsome
      exact .inl ⟨(Option.some.inj hsome).symm, h⟩
    · rintro (⟨rfl, -⟩ | ⟨-, h'⟩)
      · rfl
      · exact absurd h' hne
  next h =>
    split
    next h' =>
      constructor
      · intro hsome
        exact .inr ⟨(Option.some.inj hsome).symm, h'⟩
      · rintro (⟨-, h⟩ | ⟨rfl, -⟩)
        · contradiction
        · rfl
    next h' =>
      constructor
      · intro hsome
        cases hsome
      · rintro (⟨-, h⟩ | ⟨-, h⟩)
        · contradiction
        · contradiction

theorem le_toNat_of_isSmall {letter c : Char} (h : IsSmall letter)
    (hc : c = letter ∨ c = letter.toUpper) : 65 ≤ c.toNat := by
  obtain ⟨hge, -, hcapital⟩ := h
  rcases hc with rfl | rfl <;> omega

/-- A name does not begin with a mark or a digit, which all come before the letters. -/
theorem IsName.startsWithout {name : String} (h : IsName name cs)
    (hname : ∀ letter ∈ name.toList, IsSmall letter) : StartsWithout (·.toNat < 65) cs := by
  unfold IsName at h
  generalize name.toList = letters at h hname
  intro c hc
  cases h with
  | nil => cases hc
  | @cons _ letter _ letters hletter =>
      cases hc
      have hle := le_toNat_of_isSmall (hname letter List.mem_cons_self) hletter
      exact Nat.not_lt.2 hle

theorem Coefficient.exists_head (h : Coefficient before places coefficient) (power : List Char) :
    ∃ c rest, coefficient ++ power = c :: rest ∧ (IsDigit c ∨ c = '.') := by
  cases h with
  | whole hne hbefore =>
      obtain ⟨c, rest, rfl⟩ := List.exists_cons_of_ne_nil hne
      exact ⟨c, _, rfl, .inl (hbefore c List.mem_cons_self)⟩
  | pointed hne hbefore =>
      obtain ⟨c, rest, rfl⟩ := List.exists_cons_of_ne_nil hne
      exact ⟨c, _, rfl, .inl (hbefore c List.mem_cons_self)⟩
  | places => exact ⟨'.', _, rfl, .inr rfl⟩

theorem Coefficient.append_ne_nil (h : Coefficient before places coefficient) (power : List Char) :
    coefficient ++ power ≠ [] := by
  obtain ⟨c, rest, hhead, -⟩ := h.exists_head power
  rw [hhead]
  exact List.cons_ne_nil c rest

theorem Coefficient.isUnsigned_append (h : Coefficient before places coefficient)
    (power : List Char) : IsUnsigned (coefficient ++ power) := by
  obtain ⟨c, rest, hhead, hc⟩ := h.exists_head power
  rw [hhead]
  intro d hd
  cases hd
  rcases hc with hdigit | rfl
  · exact not_or.2 ⟨hdigit.ne_mark.1, hdigit.ne_mark.2.1⟩
  · decide

theorem fraction?_eq_none (h : StartsWithout (fun c => IsDigit c ∨ c = '.') cs) :
    fraction? negative cs = none := by
  cases hread : fraction? negative cs with
  | none => rfl
  | some numeral =>
      obtain ⟨_, _, _, _, power, hcoefficient, -, rfl, -⟩ := fraction?_eq_some_iff.1 hread
      obtain ⟨c, rest, hhead, hc⟩ := hcoefficient.exists_head power
      rw [hhead] at h
      exact absurd hc (h c rfl)

theorem read?_append (hsign : Sign negative sign) (hrest : IsUnsigned rest) :
    read? (sign ++ rest) =
      if isDigits rest then some (whole negative rest)
      else (fraction? negative rest).or (word? negative rest) := by
  simp only [read?, splitSign_append hsign hrest]

/-- A name is read as a name. -/
theorem read?_name {name : String} (h : IsName name cs)
    (hname : ∀ letter ∈ name.toList, IsSmall letter) (hsign : Sign negative sign) :
    read? (sign ++ cs) = word? negative cs := by
  have hletter := h.startsWithout hname
  have hdigit : StartsWithout IsDigit cs := fun c hc hdigit => hletter c hc hdigit.toNat_lt
  have hunsigned : IsUnsigned cs := by
    rintro c hc (rfl | rfl)
    · exact hletter _ hc (by decide)
    · exact hletter _ hc (by decide)
  have hdigits : ¬ isDigits cs := by
    rw [isDigits_iff]
    rintro ⟨hne, hrun⟩
    obtain ⟨c, rest, rfl⟩ := List.exists_cons_of_ne_nil hne
    exact hdigit c rfl (hrun c List.mem_cons_self)
  have hfraction : fraction? negative cs = none := by
    refine fraction?_eq_none ?_
    rintro c hc (h | rfl)
    · exact hdigit c hc h
    · exact hletter _ hc (by decide)
  rw [read?_append hsign hunsigned, if_neg hdigits, hfraction, Option.none_or]

/-- **A word is read as the numeral that it spells.** -/
theorem read?_eq_some_iff {word : List Char} :
    read? word = some numeral ↔ Spells numeral word := by
  constructor
  · intro h
    obtain ⟨negative, sign, rest, hsign, rfl, hsplit⟩ := exists_sign word
    simp only [read?, hsplit] at h
    split at h
    next hdigits =>
      obtain ⟨hne, hrun⟩ := isDigits_iff.1 hdigits
      cases h
      exact .whole hsign hne hrun
    next hdigits =>
      rcases Option.or_eq_some_iff.1 h with h | ⟨-, h⟩
      · obtain ⟨before, places, coefficient, exponent, power, hcoefficient, hexponent, rfl, rfl⟩ :=
          fraction?_eq_some_iff.1 h
        have hne := hcoefficient.append_ne_nil power
        refine .fraction hsign hcoefficient hexponent fun hrun => ?_
        exact hdigits (isDigits_iff.2 ⟨hne, hrun⟩)
      · rcases word?_eq_some_iff.1 h with ⟨rfl, hname⟩ | ⟨rfl, hname⟩
        · exact .infinity hsign hname
        · exact .nan hsign hname
  · intro h
    cases h with
    | whole hsign hne hdigits =>
        rw [read?_append hsign hdigits.isUnsigned]
        exact if_pos (isDigits_iff.2 ⟨hne, hdigits⟩)
    | @fraction negative _ _ _ coefficient power _ hsign hcoefficient hexponent hwhole =>
        have hfraction : fraction? negative (coefficient ++ power) = some _ :=
          fraction?_eq_some_iff.2 ⟨_, _, _, _, _, hcoefficient, hexponent, rfl, rfl⟩
        rw [read?_append hsign (hcoefficient.isUnsigned_append power),
          if_neg fun h => hwhole (isDigits_iff.1 h).2, hfraction, Option.some_or]
    | infinity hsign hname =>
        rcases hname with h | h
        · rw [read?_name h (by decide) hsign, word?_eq_some_iff]
          exact .inl ⟨rfl, .inl h⟩
        · rw [read?_name h (by decide) hsign, word?_eq_some_iff]
          exact .inl ⟨rfl, .inr h⟩
    | nan hsign hname =>
        rw [read?_name hname (by decide) hsign, word?_eq_some_iff]
        exact .inr ⟨rfl, hname⟩

theorem Spells.unique {numeral' : Numeral} (h : Spells numeral cs) (h' : Spells numeral' cs) :
    numeral = numeral' :=
  Option.some.inj ((read?_eq_some_iff.2 h).symm.trans (read?_eq_some_iff.2 h'))

/-! ### All words -/

theorem isLiteral_iff : IsLiteral cs ↔ ∃ numeral, Spells numeral cs := by
  constructor
  · rintro (@⟨_, _, _, _, coefficient, power, _, hsign, hcoefficient, hexponent⟩ |
      ⟨hsign, hname | hname | hname⟩)
    · have hne := hcoefficient.append_ne_nil power
      by_cases hrun : IsRun (coefficient ++ power)
      · exact ⟨_, .whole hsign hne hrun⟩
      · exact ⟨_, .fraction hsign hcoefficient hexponent hrun⟩
    · exact ⟨_, .infinity hsign (.inl hname)⟩
    · exact ⟨_, .infinity hsign (.inr hname)⟩
    · exact ⟨_, .nan hsign hname⟩
  · rintro ⟨_, ⟨hsign, hne, hdigits⟩ | ⟨hsign, hcoefficient, hexponent⟩ | ⟨hsign, hname⟩ |
      ⟨hsign, hname⟩⟩
    · have h := IsLiteral.decimal hsign (.whole hne hdigits) .none
      rwa [List.append_nil] at h
    · exact .decimal hsign hcoefficient hexponent
    · exact .name hsign (hname.imp_right .inl)
    · exact .name hsign (.inr (.inr hname))

/-- **The numerals are the words of the grammar.** -/
theorem isNumeral_iff : isNumeral cs ↔ IsLiteral cs := by
  rw [isNumeral, Option.isSome_iff_exists, isLiteral_iff]
  simp only [read?_eq_some_iff]

/-- Words that miss the grammar by a character. -/
example : ∀ word ∈ ["+", "-.", "1e", ".e5", "1_000", "infinit", "1\n"],
    ¬ IsLiteral word.toList := by
  simp only [← isNumeral_iff]
  decide

theorem isWhole_iff : isWhole cs ↔ ∃ negative sign digits,
    Sign negative sign ∧ digits ≠ [] ∧ IsRun digits ∧ cs = sign ++ digits := by
  constructor
  · intro h
    obtain ⟨negative, sign, digits, hsign, rfl, hsplit⟩ := exists_sign cs
    rw [isWhole, hsplit] at h
    obtain ⟨hne, hdigits⟩ := isDigits_iff.1 h
    exact ⟨negative, sign, digits, hsign, hne, hdigits, rfl⟩
  · rintro ⟨negative, sign, digits, hsign, hne, hdigits, rfl⟩
    rw [isWhole, splitSign_append hsign hdigits.isUnsigned]
    exact isDigits_iff.2 ⟨hne, hdigits⟩

theorem Spells.not_isWhole (h : Spells numeral cs)
    (hne : ∀ negative digits, numeral ≠ .whole negative digits) : ¬ isWhole cs := by
  intro hwhole
  obtain ⟨negative, sign, digits, hsign, hnil, hdigits, rfl⟩ := isWhole_iff.1 hwhole
  exact hne negative digits (h.unique (.whole hsign hnil hdigits))

theorem isLiteral_of_isWhole (h : isWhole cs) : IsLiteral cs := by
  obtain ⟨negative, sign, digits, hsign, hne, hdigits, rfl⟩ := isWhole_iff.1 h
  exact isLiteral_iff.2 ⟨_, .whole hsign hne hdigits⟩

end ReversePolish.Numeral
