import ReversePolish.Proofs.Evaluation.Canonical
import ReversePolish.Proofs.Machine.WellFormed
import ReversePolish.Proofs.Text.Words

/-! # Canonical tokens in a machine

A machine that holds canonical tokens keeps to them until a push puts one there that is not: the
token itself, or a result that is exact and just below the cells (`StraysOn`).  So while a text is
fed, all machines that are passed through hold canonical tokens if and only if no push strays
(`stages_canonical_iff`); and whatever texts are fed to an empty machine, a token that is not
canonical is the stray one (`feeds_canonicalOrStray`). -/

namespace ReversePolish

/-! ### Canonical or stray -/

/-- In canonical form, or the one token that numbers get instead. -/
def Token.IsCanonicalOrStray (t : Token) : Prop := t.IsCanonical ∨ t = stray

theorem Token.ofNumber_canonicalOrStray (n : Number) :
    Returns IsCanonicalOrStray (ofNumber n) := by
  cases n with
  | integer i => exact fun t h => isCanonical_or_stray_of_ofInt h
  | double x => exact fun t h => .inl ((isCanonical_ofNumber h).2 trivial)

theorem evaluate_canonicalOrStray {op : Operator} {operands : List Token} {t : Token}
    (h : evaluate op operands = .ok t) : t.IsCanonicalOrStray := by
  obtain ⟨-, -, ⟨-, b, rfl⟩ | ⟨n, -, ht⟩⟩ := evaluate_cases h
  · exact .inl trivial
  · exact Token.ofNumber_canonicalOrStray n t ht

theorem Lexicon.tokenOf_canonicalOrStray (word : String) :
    (tokenOf word).IsCanonicalOrStray := by
  have h := classify_eq_tokenOf word
  rw [classify_eq] at h
  cases hinteger : integerToken word.toList with
  | ok t =>
      rw [hinteger] at h
      obtain ⟨i, -, hi⟩ := integerToken_ok hinteger
      rw [← Except.ok.inj h]
      exact Token.isCanonical_or_stray_of_ofInt hi
  | error failure =>
      rw [hinteger] at h
      obtain ⟨t, ht, hcanonical⟩ := symbolToken_canonical word
      rw [← Except.ok.inj (ht.symm.trans h)]
      exact .inl hcanonical

namespace Machine

open Token (IsCanonical IsCanonicalOrStray)

variable {m next : Machine} {op resolved : Operator} {t : Token}

/-- **On a machine that texts were fed to, every token is canonical or the stray one.** -/
theorem feeds_canonicalOrStray (capacity : Int) (texts : List String) :
    (({ capacity } : Machine).after (texts.map .feed)).Holds IsCanonicalOrStray := by
  have hinvariant : IsInvariant IsCanonicalOrStray (Holds IsCanonicalOrStray) := by
    constructor
    · intro m next t hm ht hnext
      exact hm.push (fun op operands t => evaluate_canonicalOrStray) (fun _ => ht) hnext
    · intro m hm
      exact hm.cleared
  apply hinvariant.after (holds_new _ capacity)
  intro call hcall
  obtain ⟨text, -, rfl⟩ := List.mem_map.1 hcall
  intro word _
  exact Lexicon.tokenOf_canonicalOrStray word

/-! ### Canonical unless a push strays -/

/-- Pushing the token computes an exact result just below the cells. -/
def Undershoots (m : Machine) (t : Token) : Prop :=
  ∃ op resolved i, t = .operator op ∧ m.resolved op = .ok resolved ∧
    exactResult? resolved (m.operands resolved.arity) = some i ∧ JustBelowCells i

theorem undershoots_operator_iff (h : m.resolved op = .ok resolved) :
    m.Undershoots (.operator op) ↔
      ∃ i, exactResult? resolved (m.operands resolved.arity) = some i ∧ JustBelowCells i := by
  constructor
  · rintro ⟨op', resolved', i, hop, hresolved, hi⟩
    cases hop
    obtain rfl := Except.ok.inj (h.symm.trans hresolved)
    exact ⟨i, hi⟩
  · rintro ⟨i, hi⟩
    exact ⟨op, resolved, i, rfl, h, hi⟩

/-- Running an operator on canonical tokens leaves canonical tokens, unless its result is exact and
just below the cells. -/
theorem Runs.holds_canonical_iff (h : Runs m op next) (hm : m.Holds IsCanonical) :
    next.Holds IsCanonical ↔
      ¬ ∃ i, exactResult? op (m.operands op.arity) = some i ∧ JustBelowCells i := by
  constructor
  · rintro hnext ⟨i, hi, hbelow⟩
    cases h with
    | pure takes found evaluates =>
        have hresult := hnext.stack _ List.mem_cons_self
        exact (isCanonical_evaluate evaluates).1 hresult ⟨i, hi, hbelow⟩
    | _ =>
        -- an operator on the stack itself computes nothing
        rw [exactResult?_eq_none rfl] at hi
        cases hi
  · intro hexact
    exact hm.runs (fun t ht => (isCanonical_evaluate ht).2 hexact) h

/-- A push leaves canonical tokens only, unless it pushes another or computes one. -/
theorem holds_canonical_push_iff (hm : m.Holds IsCanonical) (h : m.next t = .ok next) :
    next.Holds IsCanonical ↔ t.IsCanonical ∧ ¬ m.Undershoots t := by
  rcases next_cases h with ⟨-, ⟨hvalue, rfl⟩ | ⟨op, resolved, ran, rfl, hresolved, hruns, rfl⟩⟩
  · have hundershoots : ¬ m.Undershoots t := by
      rintro ⟨op, -, -, rfl, -⟩
      exact hvalue
    constructor
    · intro hnext
      exact ⟨hnext.stack t List.mem_cons_self, hundershoots⟩
    · rintro ⟨ht, -⟩
      exact ⟨List.forall_mem_cons.2 ⟨ht, hm.stack⟩, hm.operands⟩
  · rw [undershoots_operator_iff hresolved, ← hruns.holds_canonical_iff hm]
    constructor
    · intro hnext
      exact ⟨trivial, hnext.stack, hnext.operands⟩
    · rintro ⟨-, hran⟩
      exact ⟨hran.stack, hran.operands⟩

/-- One of the pushes puts a token there that is not canonical: it pushes one, or computes one. -/
def StraysOn (m : Machine) : List Token → Prop
  | [] => False
  | t :: ts =>
      match m.next t with
      | .ok next => (¬ t.IsCanonical ∨ m.Undershoots t) ∨ next.StraysOn ts
      | .error _ => False

/-- **Pushing passes through canonical machines exactly if no push strays.** -/
theorem stages_canonical_iff (hm : m.Holds IsCanonical) (ts : List Token) :
    (∀ stage ∈ m.stages ts, stage.Holds IsCanonical) ↔ ¬ m.StraysOn ts := by
  induction ts generalizing m with
  | nil => simpa [stages, StraysOn] using hm
  | cons t ts ih =>
      simp only [stages, StraysOn, List.forall_mem_cons]
      cases hnext : m.next t with
      | error failure => simpa using hm
      | ok next =>
          -- the other pushes start from a canonical machine exactly if this one does not stray
          have hpush := holds_canonical_push_iff hm hnext
          simp only [not_or, Classical.not_not, ← hpush]
          constructor
          · rintro ⟨-, hstages⟩
            have hcanonical := hstages next (mem_stages_self next ts)
            exact ⟨hcanonical, (ih hcanonical).1 hstages⟩
          · rintro ⟨hcanonical, hstrays⟩
            exact ⟨hm, (ih hcanonical).2 hstrays⟩

theorem leaves_feed_mem_stages (m : Machine) (text : String) :
    (feed text).leaves m ∈ m.stages (tokensOf text) := by
  rw [Routine.leaves, run_feed]
  exact leaves_pushAll_mem_stages m _

end Machine

/-! ### All tokens -/

open Token (IsCanonical IsCanonicalOrStray)

/-- **Where a token is canonical.**  The token of an integer is, unless the integer lies just below
the cells; that of a double always is; that of a word is, unless the word stands for such an
integer, and that of a result, unless it is exact and such an integer.  Canonical means that
wrapping the value again gives the token back.  While a text is fed, all tokens in the machine are
canonical exactly if no push strays; and one that is not is the stray one. -/
theorem canonical_unless_justBelow (t : Token) :
    (∀ i, Token.ofInt i = .ok t → (t.IsCanonical ↔ ¬ JustBelowCells i)) ∧
      (∀ x, Token.ofIntegral x = .ok t → t.IsCanonical) ∧
      (∀ x, Token.ofDouble x = .ok t → t.IsCanonical) ∧
      (∀ word, Lexicon.classify word = .ok t →
        (t.IsCanonical ↔ ¬ ∃ i, Numeral.integerOf word.toList = .ok i ∧ JustBelowCells i)) ∧
      (∀ op operands, evaluate op operands = .ok t →
        (t.IsCanonical ↔ ¬ ∃ i, exactResult? op operands = some i ∧ JustBelowCells i)) ∧
      (t.rewrapped = .ok t ↔ t.IsCanonical) ∧
      (∀ (m : Machine) text, m.Holds IsCanonical →
        (Machine.feed text).leaves m ∈ m.stages (Machine.tokensOf text) ∧
          ((∀ stage ∈ m.stages (Machine.tokensOf text), stage.Holds IsCanonical) ↔
            ¬ m.StraysOn (Machine.tokensOf text))) ∧
      ∀ capacity (texts : List String),
        t ∈ (({ capacity } : Machine).after (texts.map .feed)).stack →
          t.IsCanonical ∨ t = .stray := by
  refine ⟨fun _ => Token.isCanonical_ofInt, fun x hx => ?_, fun x hx => ?_,
    fun _ => Lexicon.isCanonical_classify, fun _ _ => isCanonical_evaluate,
    t.rewrapped_eq_iff, fun m text hm => ?_, fun capacity texts => ?_⟩
  · by_cases hintegral : x.isIntegral
    · obtain ⟨u, hu, hcanonical⟩ := Token.ofIntegral_canonical hintegral
      rwa [← Except.ok.inj (hu.symm.trans hx)]
    · rw [Token.ofIntegral, if_neg hintegral] at hx
      cases hx
  · obtain ⟨u, hu, hcanonical⟩ := Token.ofDouble_canonical x
    rwa [← Except.ok.inj (hu.symm.trans hx)]
  · exact ⟨m.leaves_feed_mem_stages text, Machine.stages_canonical_iff hm _⟩
  · exact (Machine.feeds_canonicalOrStray capacity texts).stack t

/-- The first integer below those that round back into the cells. -/
theorem canonical_unless_justBelow_last :
    ∃ t, Token.ofInt (cellMin - 1025) = .ok t ∧ t.IsCanonical := by
  have hofInt : Token.ofInt (cellMin - 1025) = .ok (.float (.ofInt (cellMin - 1025))) :=
    Token.ofInt_of_not_fits (by decide) (by decide +kernel)
  exact ⟨_, hofInt, ((canonical_unless_justBelow _).1 _ hofInt).2 (by decide)⟩

/-- One less than the least integer of a cell gives the stray token, written or computed, and it
comes to lie on the stack; wrapping its value again gives an integer. -/
theorem just_below_not_canonical :
    Token.ofInt (-9223372036854775809) = .ok .stray ∧
      Lexicon.classify "-9223372036854775809" = .ok .stray ∧
      evaluate .sub
        [.integer ⟨cellMin, by decide, by decide⟩, .integer ⟨1, by decide, by decide⟩] =
          .ok .stray ∧
      (({ capacity := 1 } : Machine).after [.feed "-9223372036854775809"]).stack = [.stray] ∧
      ¬ Token.stray.IsCanonical ∧
      Token.stray.rewrapped = .ok (.integer ⟨cellMin, by decide, by decide⟩) := by
  have hofInt : Token.ofInt (-9223372036854775809) = .ok .stray :=
    Token.ofInt_justBelow (by decide)
  have hclassify : Lexicon.classify "-9223372036854775809" = .ok .stray :=
    Lexicon.classify_of_integerOf rfl hofInt
  refine ⟨hofInt, hclassify, ?_, ?_, Token.stray_not_canonical, ?_⟩
  · rw [evaluate_exact rfl]
    exact congrArg (Except.mapError _) hofInt
  · have htokens : Machine.tokensOf "-9223372036854775809" = [.stray] := by
      have htokenOf := Except.ok.inj (hclassify.symm.trans (Lexicon.classify_eq_tokenOf _))
      have hink : ('-' :: "9223372036854775809".toList).all Text.isInk := rfl
      have hwords : Text.words "-9223372036854775809" = ["-9223372036854775809"] :=
        Text.words_of_ink (List.all_eq_true.1 hink)
      rw [Machine.tokensOf, hwords, List.map_singleton, ← htokenOf]
      rfl
    change ((Machine.feed "-9223372036854775809").leaves { capacity := 1 }).stack = _
    rw [Routine.leaves, Machine.run_feed, htokens]
    rfl
  · exact Token.ofDouble_of_fits Binary64.toInt?_ofInt_cellMin (by decide)

end ReversePolish
