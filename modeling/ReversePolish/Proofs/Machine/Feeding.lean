import ReversePolish.Proofs.Machine.Calls
import ReversePolish.Proofs.Text.Words

/-! # Feeding

Tokens pushed one after the other are pushed in any two parts (`run_pushAll_append`), and a failure
is that of one of them, on the machine that those before it leave (`run_pushAll_error_iff`).  A
text is fed as its tokens are pushed, and a blank parts it in two (`tokensOf_append_blank`); words
that stand for nothing have no token (`tokensOf_eq_of_knownWords`).  So feeding a text is feeding
the part before a blank and then the part behind it (`feed_append_blank`). -/

namespace ReversePolish

namespace Lexicon

/-- The words of a text that stand for something. -/
def knownWords (text : String) : List String := (Text.words text).filter fun word => !isUnknown word

theorem isUnknown_eq (word : String) : isUnknown word = !(tokenOf word).isLegitimate := by
  rw [isUnknown, classify_eq_tokenOf]

theorem isUnknown_of_ignored {word : String} (h : classify word = .ok .ignored) :
    isUnknown word = true := by
  rw [isUnknown, h]
  rfl

end Lexicon

namespace Machine

open Lexicon (knownWords)

variable {m left : Machine} {failure : Failure} {w : Char} {a b x y : String}

/-! ### The tokens of a text -/

theorem parse_eq_tokensOf (text : String) : Lexicon.parse text = .ok (tokensOf text) :=
  Lexicon.parse_eq text

/-- Only the words that stand for something have a token that is pushed. -/
theorem tokensOf_eq_map_knownWords (text : String) :
    tokensOf text = (knownWords text).map Lexicon.tokenOf := by
  rw [tokensOf, knownWords, List.filter_map]
  congr 2
  funext word
  simp [Lexicon.isUnknown_eq]

theorem tokensOf_eq_of_knownWords (h : knownWords x = knownWords y) : tokensOf x = tokensOf y := by
  rw [tokensOf_eq_map_knownWords, tokensOf_eq_map_knownWords, h]

theorem tokensOf_append_blank (hw : Text.isBlank w) (a b : String) :
    tokensOf (a ++ w.toString ++ b) = tokensOf a ++ tokensOf b := by
  rw [tokensOf, Text.words_append_blank hw, List.map_append, List.filter_append]
  rfl

theorem tokensOf_eq_nil (h : ∀ word ∈ Text.words x, Lexicon.classify word = .ok .ignored) :
    tokensOf x = [] := by
  have hknown : knownWords x = [] := by
    rw [knownWords, List.filter_eq_nil_iff]
    intro word hword
    simp [Lexicon.isUnknown_of_ignored (h word hword)]
  rw [tokensOf_eq_map_knownWords, hknown, List.map_nil]

/-! ### Pushing in parts -/

theorem run_pushAll_append (ts us : List Token) (m : Machine) :
    (pushAll (ts ++ us)).run m =
      match (pushAll ts).run m with
      | .ok _ next => (pushAll us).run next
      | .error failure left => .error failure left := by
  induction ts generalizing m with
  | nil => rfl
  | cons t ts ih =>
      rw [List.cons_append, run_pushAll_cons, run_pushAll_cons]
      cases m.next t with
      | ok next => exact ih next
      | error failure => rfl

/-- **Pushing tokens fails exactly where the push of one of them fails**, on the machine that those
before it leave, and nothing changes any more. -/
theorem run_pushAll_error_iff {ts : List Token} :
    (pushAll ts).run m = .error failure left ↔
      ∃ earlier t later, ts = earlier ++ t :: later ∧ (pushAll earlier).run m = .ok () left ∧
        (push t).run left = .error failure left := by
  constructor
  · intro h
    induction ts generalizing m with
    | nil => cases h
    | cons t ts ih =>
        rw [run_pushAll_cons] at h
        cases hnext : m.next t with
        | error failure' =>
            rw [hnext] at h
            cases h
            refine ⟨[], t, ts, rfl, rfl, ?_⟩
            rw [run_push, hnext]
        | ok next =>
            rw [hnext] at h
            obtain ⟨earlier, u, later, rfl, hearlier, hu⟩ := ih h
            refine ⟨t :: earlier, u, later, rfl, ?_, hu⟩
            rw [run_pushAll_cons, hnext]
            exact hearlier
  · rintro ⟨earlier, t, later, rfl, hearlier, ht⟩
    simp only [run_pushAll_append, hearlier, pushAll, EStateM.run_bind, ht]

/-! ### Feeding in parts -/

/-- **Feeding a text is feeding the part before a blank and then, if that did not fail, the part
behind it.** -/
theorem run_feed_append_blank (hw : Text.isBlank w) (a b : String) (m : Machine) :
    (feed (a ++ w.toString ++ b)).run m =
      match (feed a).run m with
      | .ok _ next => (feed b).run next
      | .error failure left => .error failure left := by
  simp only [run_feed, tokensOf_append_blank hw, run_pushAll_append]

theorem run_feed_eq_of_knownWords (h : knownWords x = knownWords y) (m : Machine) :
    (feed x).run m = (feed y).run m := by
  rw [run_feed, run_feed, tokensOf_eq_of_knownWords h]

/-- **Feeding composes over text.**  A text is fed part by part; where feeding a text fails, the
machine is the one that the tokens before the failing one leave, whatever follows; and words that
stand for nothing change neither the machine nor the failure, wherever they stand. -/
theorem feed_composes (m : Machine) (a b : String) (w : Char) (hw : Text.isBlank w) :
    ((feed (a ++ w.toString ++ b)).run m =
        match (feed a).run m with
        | .ok _ next => (feed b).run next
        | .error failure left => .error failure left) ∧
      (∀ text failure left, (feed text).run m = .error failure left ↔
        ∃ earlier t later, Lexicon.parse text = .ok (earlier ++ t :: later) ∧
          (pushAll earlier).run m = .ok () left ∧ (push t).run left = .error failure left) ∧
      (∀ unknown w', Text.isBlank w' →
        (∀ word ∈ Text.words unknown, Lexicon.classify word = .ok .ignored) →
          (feed (a ++ w.toString ++ unknown ++ w'.toString ++ b)).run m =
            (feed (a ++ w.toString ++ b)).run m) ∧
      ∀ x y, knownWords x = knownWords y → (feed x).run m = (feed y).run m := by
  refine ⟨run_feed_append_blank hw a b m, ?_, ?_, fun x y h => run_feed_eq_of_knownWords h m⟩
  · intro text failure left
    rw [run_feed, run_pushAll_error_iff, parse_eq_tokensOf]
    simp only [Except.ok.injEq]
  · intro unknown w' hw' hunknown
    rw [run_feed, run_feed, tokensOf_append_blank hw', tokensOf_append_blank hw,
      tokensOf_append_blank hw, tokensOf_eq_nil hunknown, List.append_nil]

/-- A division by zero, and behind it a line separator, a word that stands for nothing and a
number. -/
theorem feed_composes_division :
    let left : Machine :=
      { stack := [.integer ⟨0, by decide, by decide⟩, .integer ⟨1, by decide, by decide⟩] }
    (feed ("1 0 DIV" ++ '\u2028'.toString ++ "what?" ++ '\t'.toString ++ "5")).run {} =
        .error (.fault .divisionByZero) left ∧
      (feed "1 what? 0 DIV").run {} = .error (.fault .divisionByZero) left := by
  intro left
  obtain ⟨hparts, hfails, hunknown, hknown⟩ :=
    feed_composes {} "1 0 DIV" "5" '\u2028' (by decide)
  have hparse : Lexicon.parse "1 0 DIV" = .ok (left.items ++ [.operator .eucDiv]) := by
    decide +kernel
  have hfailure : (feed "1 0 DIV").run {} = .error (.fault .divisionByZero) left :=
    (hfails "1 0 DIV" _ left).2 ⟨_, _, [], hparse, rfl, rfl⟩
  have hignored : ∀ word ∈ Text.words "what?", Lexicon.classify word = .ok .ignored := by
    decide +kernel
  have hsame : knownWords "1 what? 0 DIV" = knownWords "1 0 DIV" := by decide +kernel
  constructor
  · rw [hunknown "what?" '\t' (by decide) hignored, hparts, hfailure]
  · rw [hknown _ _ hsame, hfailure]

end Machine

end ReversePolish
