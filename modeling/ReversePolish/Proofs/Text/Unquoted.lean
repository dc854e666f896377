import ReversePolish.Proofs.Text.Quoted

/-! # Quoted text read back

`unquoted` takes the quotes off a quoted text and puts a character in the place of each escape: a
letter behind a backslash may stand for a control, or announce the digits of a code, and any other
character behind a backslash stands for itself.  Whatever text was quoted comes back
(`unquoted_quoted`), so quoting loses nothing. -/

namespace ReversePolish.Text

attribute [local instance (high)] instPowNat

variable {quote letter c : Char} {width : Nat}

/-! ### Hexadecimal numbers -/

/-- The value of a hexadecimal digit. -/
def hexValue (c : Char) : Nat :=
  if c.toNat < 'a'.toNat then c.toNat - '0'.toNat else c.toNat - 'a'.toNat + 10

/-- The number with these hexadecimal digits. -/
def hexNumber (digits : List Char) : Nat := digits.foldl (fun n c => 16 * n + hexValue c) 0

theorem hexValue_digitChar {n : Nat} (h : n < 16) : hexValue (Nat.digitChar n) = n := by
  have hall : ∀ n < 16, hexValue (Nat.digitChar n) = n := by decide
  exact hall n h

theorem hexNumber_concat (digits : List Char) (c : Char) :
    hexNumber (digits ++ [c]) = 16 * hexNumber digits + hexValue c := List.foldl_concat _ _ _ _

theorem hexNumber_toDigits (n : Nat) : hexNumber (Nat.toDigits 16 n) = n := by
  induction n using Nat.strongRecOn with
  | ind n ih =>
      rw [Nat.toDigits_eq_if (by decide)]
      split
      next h => exact (Nat.zero_add _).trans (hexValue_digitChar h)
      next h =>
        have hlast : n % 16 < 16 := Nat.mod_lt n (by decide)
        rw [hexNumber_concat, ih (n / 16) (by omega), hexValue_digitChar hlast]
        exact Nat.div_add_mod n 16

theorem hexNumber_zeros (n : Nat) (digits : List Char) :
    hexNumber (List.replicate n '0' ++ digits) = hexNumber digits := by
  induction n with
  | zero => rfl
  | succ n ih => exact ih

theorem hexNumber_hexadecimal (width code : Nat) : hexNumber (hexadecimal width code) = code := by
  rw [hexadecimal, List.leftpad, hexNumber_zeros, hexNumber_toDigits]

/-- A code that fits a width is written in just that width. -/
theorem length_hexadecimal {code : Nat} (hwidth : 0 < width) (hcode : code < 16 ^ width) :
    (hexadecimal width code).length = width := by
  rw [hexadecimal, List.length_leftpad]
  exact Nat.max_eq_left ((Nat.length_toDigits_le_iff (by decide) hwidth).2 hcode)

/-! ### Escapes -/

/-- The number of digits that a letter behind a backslash announces. -/
def codeWidth? : Char → Option Nat
  | 'x' => some 2
  | 'u' => some 4
  | 'U' => some 8
  | _ => none

/-- What a character behind a backslash stands for that announces no digits. -/
def meaning : Char → Char
  | 'n' => '\n'
  | 'r' => '\r'
  | 't' => '\t'
  | c => c

/-- Puts characters in the place of escapes. -/
def unescape : List Char → List Char
  | '\\' :: letter :: rest =>
      match codeWidth? letter with
      | some width => Char.ofNat (hexNumber (rest.take width)) :: unescape (rest.drop width)
      | none => meaning letter :: unescape rest
  | c :: rest => c :: unescape rest
  | [] => []
termination_by cs => cs.length

/-- The text that was quoted. -/
def unquoted (text : String) : String := String.ofList (unescape text.toList.tail.dropLast)

theorem unescape_self (hc : c ≠ '\\') (rest : List Char) :
    unescape (c :: rest) = c :: unescape rest := by
  rw [unescape]
  rintro _ _ rfl
  exact absurd rfl hc

theorem unescape_letter (h : codeWidth? letter = none) (rest : List Char) :
    unescape ('\\' :: letter :: rest) = meaning letter :: unescape rest := by
  rw [unescape, h]

theorem unescape_code (h : codeWidth? letter = some width) (hwidth : 0 < width)
    (hc : c.toNat < 16 ^ width) (rest : List Char) :
    unescape ('\\' :: letter :: (hexadecimal width c.toNat ++ rest)) = c :: unescape rest := by
  have hlength := length_hexadecimal hwidth hc
  rw [unescape, h]
  dsimp only
  rw [List.take_left' hlength, List.drop_left' hlength, hexNumber_hexadecimal, Char.ofNat_toNat]

theorem unescape_codeEscape (c : Char) (rest : List Char) :
    unescape (codeEscape c ++ rest) = c :: unescape rest := by
  unfold codeEscape
  dsimp only
  split
  next h => exact unescape_code rfl (by decide) h rest
  split
  next h => exact unescape_code rfl (by decide) h rest
  · exact unescape_code rfl (by decide) c.val.toNat_lt rest

/-- The escape of a character is read as that character, whatever follows. -/
theorem unescape_escape (hquote : IsQuote quote) (c : Char) (rest : List Char) :
    unescape (escape quote c ++ rest) = c :: unescape rest := by
  unfold escape
  split
  next h =>
    -- Neither quote and no backslash is a letter that means something else.
    have hc : codeWidth? c = none ∧ meaning c = c := by
      rcases h with rfl | rfl
      · rcases hquote with rfl | rfl <;> decide
      · decide
    rw [List.cons_append, List.singleton_append, unescape_letter hc.1, hc.2]
  next hc =>
    split
    next h => rw [h, List.cons_append, List.singleton_append, unescape_letter rfl]; rfl
    split
    next h => rw [h, List.cons_append, List.singleton_append, unescape_letter rfl]; rfl
    split
    next h => rw [h, List.cons_append, List.singleton_append, unescape_letter rfl]; rfl
    split
    · exact unescape_codeEscape c rest
    · exact unescape_self (not_or.1 hc).2 rest

theorem unescape_flatMap_escape (hquote : IsQuote quote) (cs : List Char) :
    unescape (cs.flatMap (escape quote)) = cs := by
  induction cs with
  | nil => rw [List.flatMap_nil, unescape]
  | cons c cs ih => rw [List.flatMap_cons, unescape_escape hquote, ih]

/-- **Quoted text is read back**, whatever was quoted. -/
theorem unquoted_quoted (text : String) : unquoted (quoted text) = text := by
  rw [unquoted, quoted, String.toList_ofList, quotedChars, List.tail_cons, List.dropLast_concat,
    unescape_flatMap_escape (isQuote_quoteFor _), String.ofList_toList]

end ReversePolish.Text
