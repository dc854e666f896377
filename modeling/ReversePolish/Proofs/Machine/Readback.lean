import ReversePolish.Proofs.Lexicon.Display
import ReversePolish.Proofs.Machine.Feeding
import ReversePolish.Proofs.Machine.Steps

/-! # Displays fed back

Values are pushed onto the stack as long as there is room for them, and nothing else happens
(`run_pushAll_values`).  The displays of integers and truth values are classified as these very
tokens, so feeding them, with a blank between two of them, is pushing the tokens
(`run_feed_displays`): what was on a stack is there again. -/

namespace ReversePolish.Machine

variable {m : Machine} {ts : List Token} {w : Char}

/-- **Values that there is room for are put on the stack**, and the registers stay. -/
theorem run_pushAll_values (hts : ∀ t ∈ ts, t.IsValue)
    (hroom : (m.size + ts.length : Nat) ≤ m.capacity) :
    (pushAll ts).run m = .ok () { m with stack := ts.reverse ++ m.stack } := by
  induction ts generalizing m with
  | nil => rfl
  | cons t ts ih =>
      obtain ⟨ht, hts⟩ := List.forall_mem_cons.1 hts
      rw [List.length_cons] at hroom
      have hnext := next_of_value (m := m) ht (by omega)
      have hrest : (({ m with stack := t :: m.stack } : Machine).size + ts.length : Nat) ≤
          m.capacity := by
        simp only [size, List.length_cons] at hroom ⊢
        omega
      rw [run_pushAll_cons, hnext]
      refine (ih hts hrest).trans ?_
      rw [List.reverse_cons, List.append_assoc]
      rfl

/-- A text of displays holds the tokens that were displayed. -/
theorem tokensOf_displays (hw : Text.isBlank w) (h : ∀ t ∈ ts, t.IsExact) :
    tokensOf (w.toString.intercalate (ts.map Token.display)) = ts := by
  have htokens : ts.map (Lexicon.tokenOf ∘ Token.display) = ts.map id :=
    List.map_congr_left fun t ht => Lexicon.tokenOf_display (h t ht)
  rw [tokensOf, Lexicon.words_displays hw h, List.map_map, htokens, List.map_id,
    List.filter_eq_self]
  intro t ht
  have hexact := h t ht
  cases t with
  | integer | boolean | operator => rfl
  | _ => cases hexact

/-- **Displays of integers and truth values are fed back as the tokens that they show.** -/
theorem run_feed_displays (hw : Text.isBlank w)
    (hts : ∀ t ∈ ts, t.kind = .integer ∨ t.kind = .boolean)
    (hroom : (m.size + ts.length : Nat) ≤ m.capacity) :
    (feed (w.toString.intercalate (ts.map Token.display))).run m =
      .ok () { m with stack := ts.reverse ++ m.stack } := by
  have hexact : ∀ t ∈ ts, t.IsExact := fun t ht => Token.isExact_of_kind (hts t ht)
  have hvalues : ∀ t ∈ ts, t.IsValue := by
    intro t ht
    cases t with
    | integer cell => trivial
    | boolean b => trivial
    | _ => rcases hts _ ht with h | h <;> cases h
  rw [run_feed, tokensOf_displays hw hexact, run_pushAll_values hvalues hroom]

/-- **A stack of integers and truth values can be fed back as it is displayed**, to a new machine
that has room for it; and the display of a token that is no double is classified as that token. -/
theorem displays_feed_back :
    (∀ (ts : List Token) (capacity : Int),
      (∀ t ∈ ts, t.kind = .integer ∨ t.kind = .boolean) → (ts.length : Int) ≤ capacity →
        ∃ m, (feed (" ".intercalate (ts.map Token.display))).run { capacity := capacity } =
            .ok () m ∧
          m.items = ts ∧ m.capacity = capacity ∧ m.lastOperator = none ∧ m.lastOperands = none) ∧
      ∀ t : Token, (t.kind = .integer ∨ t.kind = .boolean ∨ ∃ op, t = .operator op) →
        Lexicon.classify t.display = .ok t := by
  constructor
  · intro ts capacity hts hroom
    have hfresh : ((({ capacity := capacity } : Machine).size + ts.length : Nat) : Int) ≤
        capacity := by
      simpa [size] using hroom
    have hfeed := run_feed_displays (w := ' ') (by decide) hts hfresh
    refine ⟨_, hfeed, ?_, rfl, rfl, rfl⟩
    rw [items, List.append_nil, List.reverse_reverse]
  · intro t ht
    refine Lexicon.classify_display ?_
    rcases ht with h | h | ⟨op, rfl⟩
    · exact Token.isExact_of_kind (.inl h)
    · exact Token.isExact_of_kind (.inr h)
    · trivial

/-- The two ends of the cells with a truth value between them, on a machine that they fill, and the
operator that is also a sign. -/
theorem displays_feed_back_ends :
    (∃ m, (feed "-9223372036854775808 FALSE 9223372036854775807").run { capacity := 3 } =
        .ok () m ∧
      m.items = [.integer ⟨cellMin, by decide, by decide⟩, .boolean false,
        .integer ⟨cellMax, by decide, by decide⟩]) ∧
      Lexicon.classify "-" = .ok (.operator .sub) := by
  obtain ⟨hfeed, hclassify⟩ := displays_feed_back
  constructor
  · obtain ⟨m, hm, hitems, -⟩ := hfeed [.integer ⟨cellMin, by decide, by decide⟩, .boolean false,
      .integer ⟨cellMax, by decide, by decide⟩] 3 (by decide) (by decide)
    exact ⟨m, hm, hitems⟩
  · exact hclassify (.operator .sub) (.inr (.inr ⟨_, rfl⟩))

end ReversePolish.Machine
