import ReversePolish.Proofs.Evaluation.Results
import ReversePolish.Proofs.Evaluation.Rules
import ReversePolish.Proofs.Number.Value

/-! # Comparison

A comparison finds a relation between its operands exactly if the relation holds between their
values on the extended line (`comparison_finds`, `equality_finds`); integers and doubles may be
mixed, and no operand is rounded.  So the comparisons have the laws of a linear order, and only a
NaN is outside of it (`comparison_nan`).

Tokens in canonical form that are equal as numbers are the same token (`eq_of_value_eq`), since an
integer of the cells has one canonical form and a zero has no sign there. -/

namespace ReversePolish

variable {op : Operator} {s t u : Token} {v w : EReal}

/-! ### Values of tokens -/

namespace Token

/-- The exact value of a number. -/
noncomputable def value? (t : Token) : Option EReal := t.number?.bind Number.value?

/-- The exact value of a quantity; the truth values count as one and zero. -/
noncomputable def quantityValue? (t : Token) : Option EReal := t.quantity?.bind Number.value?

@[simp] theorem value?_float (x : Binary64) : (float x).value? = x.value? := rfl

@[simp] theorem value?_integer (c : Cell) : (integer c).value? = some ((c.value : ℝ) : EReal) := rfl

theorem exists_number (h : t.value? = some v) :
    ∃ n, t.number? = some n ∧ n.value? = some v := Option.bind_eq_some_iff.1 h

theorem exists_quantity (h : t.quantityValue? = some v) :
    ∃ n, t.quantity? = some n ∧ n.value? = some v := Option.bind_eq_some_iff.1 h

theorem quantityValue_of_value (h : t.value? = some v) : t.quantityValue? = some v := by
  obtain ⟨n, hn, hv⟩ := exists_number h
  rw [quantityValue?, quantity_of_number hn]
  exact hv

theorem isValue_iff_quantity : t.IsValue ↔ ∃ n, t.quantity? = some n := by
  cases t with
  | integer cell | float x | boolean b => exact iff_of_true trivial ⟨_, rfl⟩
  | _ =>
      refine iff_of_false id ?_
      rintro ⟨n, h⟩
      cases h

end Token

/-! ### What a comparison finds -/

/-- The operator answers whether `P`. -/
def Finds (op : Operator) (s u : Token) (P : Prop) : Prop :=
  ∃ r, evaluate op [s, u] = .ok (.boolean r) ∧ (r = true ↔ P)

/-- The operator answers that its operands are in relation. -/
def Holds (op : Operator) (s u : Token) : Prop := evaluate op [s, u] = .ok (.boolean true)

theorem Finds.holds_iff {P : Prop} (h : Finds op s u P) : Holds op s u ↔ P := by
  obtain ⟨r, hr, hP⟩ := h
  rw [Holds, hr, ← hP, Except.ok.injEq, Token.boolean.injEq]

theorem finds_of_number {f : Number → Number → Bool} {P : Prop} (hrule : op.rule = .comparison f)
    {a b : Number} (hs : s.number? = some a) (hu : u.number? = some b) (hP : f a b ↔ P) :
    Finds op s u P :=
  ⟨f a b, evaluate_comparison hrule (op.accepts_of_number hs) (op.accepts_of_number hu)
    (Token.quantity_of_number hs) (Token.quantity_of_number hu), hP⟩

theorem finds_of_quantity {f : Number → Number → Bool} {P : Prop}
    (hrule : op.rule = .comparison f) (htruth : op.takesTruth) {a b : Number}
    (hs : s.quantity? = some a) (hu : u.quantity? = some b) (hP : f a b ↔ P) : Finds op s u P :=
  ⟨f a b, evaluate_comparison hrule (op.accepts_of_quantity htruth hs)
    (op.accepts_of_quantity htruth hu) hs hu, hP⟩

/-- The order of two numbers. -/
theorem comparison_finds (hs : s.value? = some v) (hu : u.value? = some w) :
    Finds .le s u (v ≤ w) ∧ Finds .lt s u (v < w) ∧ Finds .ge s u (v ≥ w) ∧
      Finds .gt s u (v > w) := by
  obtain ⟨a, ha, hv⟩ := Token.exists_number hs
  obtain ⟨b, hb, hw⟩ := Token.exists_number hu
  exact ⟨finds_of_number rfl ha hb (Number.le_iff_value hv hw),
    finds_of_number rfl ha hb (Number.lt_iff hv hw),
    finds_of_number rfl ha hb (Number.le_iff_value hw hv),
    finds_of_number rfl ha hb (Number.lt_iff hw hv)⟩

/-- The equality of two quantities. -/
theorem equality_finds (hs : s.quantityValue? = some v) (hu : u.quantityValue? = some w) :
    Finds .eq s u (v = w) ∧ Finds .neq s u (v ≠ w) := by
  obtain ⟨a, ha, hv⟩ := Token.exists_quantity hs
  obtain ⟨b, hb, hw⟩ := Token.exists_quantity hu
  have heq := Number.eq_iff hv hw
  refine ⟨finds_of_quantity rfl rfl ha hb heq, finds_of_quantity rfl rfl ha hb ?_⟩
  rw [Bool.not_eq_true', ← Bool.not_eq_true, heq]

/-- Inequality answers the opposite of equality. -/
theorem inequality_iff (s u : Token) (r : Bool) :
    evaluate .neq [s, u] = .ok (.boolean !r) ↔ evaluate .eq [s, u] = .ok (.boolean r) := by
  by_cases hvalues : s.IsValue ∧ u.IsValue
  · obtain ⟨a, ha⟩ := Token.isValue_iff_quantity.1 hvalues.1
    obtain ⟨b, hb⟩ := Token.isValue_iff_quantity.1 hvalues.2
    have heq : evaluate .eq [s, u] = .ok (.boolean (a.eq b)) :=
      evaluate_comparison rfl (Operator.accepts_of_quantity rfl ha)
        (Operator.accepts_of_quantity rfl hb) ha hb
    have hneq : evaluate .neq [s, u] = .ok (.boolean !a.eq b) :=
      evaluate_comparison (f := fun a b => !a.eq b) rfl (Operator.accepts_of_quantity rfl ha)
        (Operator.accepts_of_quantity rfl hb) ha hb
    rw [heq, hneq]
    simp
  · have hrefused (op : Operator) (t : Token) : evaluate op [s, u] ≠ .ok t := by
      intro h
      obtain ⟨-, hkinds, -⟩ := evaluate_cases h
      refine hvalues ⟨?_, ?_⟩
      · exact Token.isValue_iff_quantity.2 (Operator.exists_quantity (hkinds s (by simp)))
      · exact Token.isValue_iff_quantity.2 (Operator.exists_quantity (hkinds u (by simp)))
    exact iff_of_false (hrefused _ _) (hrefused _ _)

/-! ### No number -/

theorem evaluate_nan {f : Number → Number → Bool} (hrule : op.rule = .comparison f)
    (hs : op.accepts s) (hu : op.accepts u) (hnan : s = .float .nan ∨ u = .float .nan) {r : Bool}
    (hf : ∀ a b : Number, a.value? = none ∨ b.value? = none → f a b = r) :
    evaluate op [s, u] = .ok (.boolean r) := by
  obtain ⟨a, ha⟩ := Operator.exists_quantity hs
  obtain ⟨b, hb⟩ := Operator.exists_quantity hu
  rw [evaluate_comparison hrule hs hu ha hb, hf]
  rcases hnan with rfl | rfl
  · obtain rfl := Option.some.inj ha
    exact .inl rfl
  · obtain rfl := Option.some.inj hb
    exact .inr rfl

/-- A NaN is not ordered with anything. -/
theorem comparison_nan (hs : s.isNumeric) (hu : u.isNumeric)
    (hnan : s = .float .nan ∨ u = .float .nan) :
    evaluate .le [s, u] = .ok (.boolean false) ∧ evaluate .lt [s, u] = .ok (.boolean false) ∧
      evaluate .ge [s, u] = .ok (.boolean false) ∧ evaluate .gt [s, u] = .ok (.boolean false) := by
  obtain ⟨a, ha⟩ := Token.isNumeric_iff_number.1 hs
  obtain ⟨b, hb⟩ := Token.isNumeric_iff_number.1 hu
  have hs (op : Operator) := op.accepts_of_number ha
  have hu (op : Operator) := op.accepts_of_number hb
  exact ⟨evaluate_nan rfl (hs _) (hu _) hnan fun _ _ h => (Number.unordered h).2.2,
    evaluate_nan rfl (hs _) (hu _) hnan fun _ _ h => (Number.unordered h).1,
    evaluate_nan rfl (hs _) (hu _) hnan fun _ _ h => (Number.unordered h.symm).2.2,
    evaluate_nan rfl (hs _) (hu _) hnan fun _ _ h => (Number.unordered h.symm).1⟩

/-- A NaN is different from everything. -/
theorem equality_nan (hs : s.IsValue) (hu : u.IsValue)
    (hnan : s = .float .nan ∨ u = .float .nan) :
    evaluate .eq [s, u] = .ok (.boolean false) ∧ evaluate .neq [s, u] = .ok (.boolean true) := by
  obtain ⟨a, ha⟩ := Token.isValue_iff_quantity.1 hs
  obtain ⟨b, hb⟩ := Token.isValue_iff_quantity.1 hu
  have heq : evaluate .eq [s, u] = .ok (.boolean false) :=
    evaluate_nan rfl (Operator.accepts_of_quantity rfl ha) (Operator.accepts_of_quantity rfl hb)
      hnan fun _ _ h => (Number.unordered h).2.1
  exact ⟨heq, (inequality_iff s u false).2 heq⟩

/-! ### Canonical tokens -/

namespace Token

theorem eq_of_value_eq (hs : s.value? = some v) (hu : u.value? = some v) (hcs : s.IsCanonical)
    (hcu : u.IsCanonical) : s = u := by
  have hmixed {c : Cell} {x : Binary64} (hc : (integer c).value? = some v)
      (hx : (float x).value? = some v) (hcanonical : (float x).IsCanonical) : False := by
    have hvalue : x.value? = some ((c.value : ℝ) : EReal) := hx.trans hc.symm
    have := hcanonical c.value (Binary64.value?_eq_int_iff.1 hvalue)
    have := c.min_le
    have := c.le_max
    omega
  cases s with
  | integer c =>
      cases u with
      | integer d =>
          have hvalue := EReal.coe_eq_coe_iff.1 (Option.some.inj (hs.trans hu.symm))
          cases c
          cases d
          simpa using hvalue
      | float y => exact (hmixed hs hu hcu).elim
      | _ => cases hu
  | float x =>
      cases u with
      | integer d => exact (hmixed hu hs hcs).elim
      | float y =>
          rcases Binary64.eq_of_value_eq hs hu with rfl | hzero
          · rfl
          · exact absurd (hcs 0 hzero) (by decide)
      | _ => cases hu
  | _ => cases hs

/-- Sameness of tokens compares the values of doubles. -/
theorem same_iff (hs : s.value? = some v) (hu : u.value? = some w) (hcs : s.IsCanonical)
    (hcu : u.IsCanonical) : s.same u ↔ s = u := by
  have hdouble {x y : Binary64} (hx : (float x).value? = some v) (hy : (float y).value? = some w) :
      (float x).same (float y) ↔ v = w :=
    Number.eq_iff (a := .double x) (b := .double y) (v := v) (w := w) hx hy
  constructor
  · intro h
    cases s with
    | integer c =>
        cases u with
        | integer d => exact congrArg integer (beq_iff_eq.1 h)
        | _ => cases h
    | float x =>
        cases u with
        | float y =>
            obtain rfl := (hdouble hs hu).1 h
            exact eq_of_value_eq hs hu hcs hcu
        | _ => cases h
    | _ => cases hs
  · rintro rfl
    cases s with
    | integer c => exact beq_self_eq_true c
    | float x => exact (hdouble hs hu).2 (Option.some.inj (hs.symm.trans hu))
    | _ => cases hs

end Token

theorem holds_eq_iff_of_canonical (hs : s.value? = some v) (hu : u.value? = some w)
    (hcs : s.IsCanonical) (hcu : u.IsCanonical) : Holds .eq s u ↔ s = u := by
  have hfinds := (equality_finds (Token.quantityValue_of_value hs)
    (Token.quantityValue_of_value hu)).1
  rw [hfinds.holds_iff]
  constructor
  · rintro rfl
    exact Token.eq_of_value_eq hs hu hcs hcu
  · rintro rfl
    exact Option.some.inj (hs.symm.trans hu)

/-! ### The laws of comparison -/

/-- Exactly one of three. -/
def OneOf (p q r : Prop) : Prop := p ∧ ¬ q ∧ ¬ r ∨ ¬ p ∧ q ∧ ¬ r ∨ ¬ p ∧ ¬ q ∧ r

/-- The relations of numbers that are orders or equivalences. -/
def Operator.IsTransitive (op : Operator) : Prop := op = .lt ∨ op = .le ∨ op = .eq

theorem one_of_three (hs : s.value? = some v) (hu : u.value? = some w) :
    OneOf (Holds .lt s u) (Holds .eq s u) (Holds .gt s u) := by
  obtain ⟨-, hlt, -, hgt⟩ := comparison_finds hs hu
  obtain ⟨heq, -⟩ := equality_finds (Token.quantityValue_of_value hs)
    (Token.quantityValue_of_value hu)
  rw [OneOf, hlt.holds_iff, heq.holds_iff, hgt.holds_iff]
  rcases lt_trichotomy v w with h | h | h
  · exact .inl ⟨h, h.ne, h.not_gt⟩
  · exact .inr (.inl ⟨h.not_lt, h, h.not_gt⟩)
  · exact .inr (.inr ⟨h.not_gt, h.ne', h⟩)

theorem holds_le_iff (hs : s.value? = some v) (hu : u.value? = some w) :
    Holds .le s u ↔ Holds .lt s u ∨ Holds .eq s u := by
  obtain ⟨hle, hlt, -⟩ := comparison_finds hs hu
  obtain ⟨heq, -⟩ := equality_finds (Token.quantityValue_of_value hs)
    (Token.quantityValue_of_value hu)
  rw [hle.holds_iff, hlt.holds_iff, heq.holds_iff, le_iff_lt_or_eq]

theorem Operator.IsTransitive.holds (hop : op.IsTransitive) {x : EReal} (hs : s.value? = some v)
    (ht : t.value? = some w) (hu : u.value? = some x) (hst : Holds op s t) (htu : Holds op t u) :
    Holds op s u := by
  have hfinds {s t : Token} {v w : EReal} (hs : s.value? = some v) (ht : t.value? = some w) :=
    equality_finds (Token.quantityValue_of_value hs) (Token.quantityValue_of_value ht)
  rcases hop with rfl | rfl | rfl
  · rw [(comparison_finds hs ht).2.1.holds_iff] at hst
    rw [(comparison_finds ht hu).2.1.holds_iff] at htu
    exact (comparison_finds hs hu).2.1.holds_iff.2 (hst.trans htu)
  · rw [(comparison_finds hs ht).1.holds_iff] at hst
    rw [(comparison_finds ht hu).1.holds_iff] at htu
    exact (comparison_finds hs hu).1.holds_iff.2 (hst.trans htu)
  · rw [(hfinds hs ht).1.holds_iff] at hst
    rw [(hfinds ht hu).1.holds_iff] at htu
    exact (hfinds hs hu).1.holds_iff.2 (hst.trans htu)

/-- Every number but a NaN has a value. -/
theorem Token.exists_value (hs : s.isNumeric) (hnan : s ≠ .float .nan) :
    ∃ v, s.value? = some v := by
  cases s with
  | integer c => exact ⟨_, rfl⟩
  | float x =>
      cases x with
      | finite negative units fits => exact ⟨_, rfl⟩
      | infinite negative => exact ⟨_, rfl⟩
      | nan => exact absurd rfl hnan
  | _ => cases hs

theorem Token.quantityValue_boolean (b : Bool) :
    (boolean b).quantityValue? = some (if b then 1 else 0) := by
  have hvalue : (boolean b).quantityValue? = some (((b.toNat : Int) : ℝ) : EReal) := rfl
  rw [hvalue]
  cases b <;> simp

/-- **Comparisons are exact, numbers are in a linear order by them, and a NaN is not; between
canonical tokens equality is sameness.** -/
theorem comparisons_exact :
    (∀ s : Token, s.isNumeric → s ≠ .float .nan → ∃ v, s.value? = some v) ∧
    (∀ {s u : Token} {v w : EReal}, s.value? = some v → u.value? = some w →
      (Finds .le s u (v ≤ w) ∧ Finds .lt s u (v < w) ∧ Finds .ge s u (v ≥ w) ∧
        Finds .gt s u (v > w)) ∧
      OneOf (Holds .lt s u) (Holds .eq s u) (Holds .gt s u) ∧
      (Holds .le s u ↔ Holds .lt s u ∨ Holds .eq s u) ∧
      (s.IsCanonical → u.IsCanonical → (Holds .eq s u ↔ s = u) ∧ (s.same u ↔ s = u))) ∧
    (∀ {op : Operator} {s t u : Token} {v w x : EReal}, op.IsTransitive → s.value? = some v →
      t.value? = some w → u.value? = some x → Holds op s t → Holds op t u → Holds op s u) ∧
    (∀ b, (Token.boolean b).quantityValue? = some (if b then 1 else 0)) ∧
    (∀ {s : Token} {v : EReal}, s.value? = some v → s.quantityValue? = some v) ∧
    (∀ {s u : Token} {v w : EReal}, s.quantityValue? = some v → u.quantityValue? = some w →
      Finds .eq s u (v = w) ∧ Finds .neq s u (v ≠ w)) ∧
    (∀ {s u : Token}, s = .float .nan ∨ u = .float .nan →
      (s.isNumeric → u.isNumeric → ∀ op ∈ [Operator.le, .lt, .ge, .gt],
        evaluate op [s, u] = .ok (.boolean false)) ∧
      (s.IsValue → u.IsValue → evaluate .eq [s, u] = .ok (.boolean false) ∧
        evaluate .neq [s, u] = .ok (.boolean true))) ∧
    ∀ s u r, evaluate .neq [s, u] = .ok (.boolean !r) ↔
      evaluate .eq [s, u] = .ok (.boolean r) := by
  refine ⟨fun s => Token.exists_value, fun hs hu => ⟨comparison_finds hs hu, one_of_three hs hu,
    holds_le_iff hs hu, fun hcs hcu => ⟨holds_eq_iff_of_canonical hs hu hcs hcu,
      Token.same_iff hs hu hcs hcu⟩⟩, fun hop hs ht hu => hop.holds hs ht hu,
    Token.quantityValue_boolean, Token.quantityValue_of_value, equality_finds,
    fun hnan => ⟨fun hs hu => ?_, fun hs hu => equality_nan hs hu hnan⟩, inequality_iff⟩
  obtain ⟨hle, hlt, hge, hgt⟩ := comparison_nan hs hu hnan
  simp only [List.forall_mem_cons]
  exact ⟨hle, hlt, hge, hgt, nofun⟩

/-- An integer between two doubles that are next to each other: it is equal to neither, and they
are in order through it. -/
theorem comparisons_exact_between :
    Holds .lt (.float (.ofInt 9007199254740992))
        (.integer ⟨9007199254740993, by decide, by decide⟩) ∧
      Holds .lt (.float (.ofInt 9007199254740992)) (.float (.ofInt 9007199254740994)) ∧
      evaluate .neq [.float .nan, .boolean true] = .ok (.boolean true) := by
  obtain ⟨-, hnumbers, htransitive, -, -, -, hnan, -⟩ := comparisons_exact
  have hbelow : (Token.float (.ofInt 9007199254740992)).value? =
      some (((9007199254740992 : Int) : ℝ) : EReal) :=
    (Token.value?_float _).trans (Binary64.value?_eq_int_iff.2 (by decide +kernel))
  have hbetween : (Token.integer ⟨9007199254740993, by decide, by decide⟩).value? =
      some (((9007199254740993 : Int) : ℝ) : EReal) := Token.value?_integer _
  have habove : (Token.float (.ofInt 9007199254740994)).value? =
      some (((9007199254740994 : Int) : ℝ) : EReal) :=
    (Token.value?_float _).trans (Binary64.value?_eq_int_iff.2 (by decide +kernel))
  have hfirst := (hnumbers hbelow hbetween).1.2.1.holds_iff.2
    (EReal.coe_lt_coe_iff.2 (Int.cast_lt.2 (by decide)))
  have hsecond := (hnumbers hbetween habove).1.2.1.holds_iff.2
    (EReal.coe_lt_coe_iff.2 (Int.cast_lt.2 (by decide)))
  exact ⟨hfirst, htransitive (.inl rfl) hbelow hbetween habove hfirst hsecond,
    ((hnan (s := .float .nan) (u := .boolean true) (.inl rfl)).2 trivial trivial).2⟩

end ReversePolish
