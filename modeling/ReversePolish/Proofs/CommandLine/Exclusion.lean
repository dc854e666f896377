import Mathlib.Data.List.Basic
import ReversePolish.CommandLine.Options

/-! # Switches that exclude each other

Reading arguments takes a switch only if none of its rivals was taken before, and sets an option
only for a switch that it takes (`Reading.IsFair`).  What one call preserves, a whole command line
does; so no command line gives both words of an expression and a prompt
(`Options.expression_eq_none`). -/

namespace ReversePolish.CommandLine

variable {s t : Switch} {c : Call} {o o' : Options} {r r' : Reading}

/-- Rivals are the others of a group, and so rivals of each other. -/
theorem Switch.mem_rivals_iff : t ∈ s.rivals ↔ ∃ group ∈ groups, s ∈ group ∧ t ∈ group ∧ t ≠ s := by
  simp only [rivals, List.mem_filter, List.mem_flatten, List.contains_iff_mem, decide_eq_true_eq]
  constructor
  · rintro ⟨⟨group, ⟨hgroup, hs⟩, ht⟩, hne⟩
    exact ⟨group, hgroup, hs, ht, hne⟩
  · rintro ⟨group, hgroup, hs, ht, hne⟩
    exact ⟨⟨group, ⟨hgroup, hs⟩, ht⟩, hne⟩

theorem Switch.mem_rivals_comm (h : t ∈ s.rivals) : s ∈ t.rivals := by
  obtain ⟨group, hgroup, hs, ht, hne⟩ := mem_rivals_iff.1 h
  exact mem_rivals_iff.2 ⟨group, hgroup, ht, hs, hne.symm⟩

/-- Only switches that do not exclude each other were taken, and an expression or a prompt is
there only if its switch was taken. -/
structure Reading.IsFair (r : Reading) : Prop where
  exclusive : ∀ s ∈ r.seen, ∀ t ∈ r.seen, t ∉ s.rivals
  expression : r.options.expression ≠ none → .expression ∈ r.seen
  prompt : r.options.prompt ≠ none → .prompt ∈ r.seen

theorem Reading.isFair_new : ({} : Reading).IsFair where
  exclusive := fun _ h => absurd h List.not_mem_nil
  expression := fun h => absurd rfl h
  prompt := fun h => absurd rfl h

/-! ### One call -/

/-- Only its own switch sets the expression, and only its own the prompt. -/
theorem Options.set_frame (h : o.set c = .ok o') :
    (o'.expression = o.expression ∨ c.1 = .expression) ∧
      (o'.prompt = o.prompt ∨ c.1 = .prompt) := by
  obtain ⟨s, values⟩ := c
  cases s with
  | expression => cases h; exact ⟨.inr rfl, .inl rfl⟩
  | prompt => cases h; exact ⟨.inl rfl, .inr rfl⟩
  | help => cases h
  | capacity | logLevel =>
      cases values with
      | nil => cases h; exact ⟨.inl rfl, .inl rfl⟩
      | cons value rest =>
          unfold set at h
          dsimp only at h
          split at h
          · cases h; exact ⟨.inl rfl, .inl rfl⟩
          · cases h
  | _ => cases h; exact ⟨.inl rfl, .inl rfl⟩

/-- A call that is taken sets options and is remembered, and none of its rivals was taken. -/
theorem Reading.call_eq_ok (h : r.call c = .ok r') :
    r.options.set c = .ok r'.options ∧ r'.seen = c.1 :: r.seen ∧
      ∀ t ∈ r.seen, t ∉ c.1.rivals := by
  unfold Reading.call at h
  cases hset : r.options.set c with
  | error refusal => rw [hset] at h; cases h
  | ok options =>
      rw [hset] at h
      simp only [bind, Except.bind] at h
      split at h
      · cases h
      next hnone =>
        cases h
        refine ⟨rfl, rfl, fun t ht hrival => ?_⟩
        exact absurd (List.contains_iff_mem.2 ht) (List.find?_eq_none.1 hnone t hrival)

/-- **A call that is taken keeps the reading fair.** -/
theorem Reading.IsFair.call (hr : r.IsFair) (h : r.call c = .ok r') : r'.IsFair := by
  obtain ⟨hset, hseen, hfree⟩ := Reading.call_eq_ok h
  obtain ⟨hexpression, hprompt⟩ := Options.set_frame hset
  refine ⟨?_, fun hne => ?_, fun hne => ?_⟩
  · rw [hseen]
    intro s hs t ht hrival
    -- Only the switch that was called is new, and it has looked for its rivals.
    rcases List.mem_cons.1 hs with rfl | hs <;> rcases List.mem_cons.1 ht with rfl | ht
    · obtain ⟨_, _, _, _, hne⟩ := Switch.mem_rivals_iff.1 hrival
      exact hne rfl
    · exact hfree t ht hrival
    · exact hfree s hs (Switch.mem_rivals_comm hrival)
    · exact hr.exclusive s hs t ht hrival
  · rw [hseen]
    rcases hexpression with heq | heq
    · exact List.mem_cons_of_mem _ (hr.expression (heq ▸ hne))
    · exact heq ▸ List.mem_cons_self
  · rw [hseen]
    rcases hprompt with heq | heq
    · exact List.mem_cons_of_mem _ (hr.prompt (heq ▸ hne))
    · exact heq ▸ List.mem_cons_self

theorem Reading.IsFair.calls (hr : r.IsFair) {calls : List Call}
    (h : calls.foldlM Reading.call r = .ok r') : r'.IsFair := by
  induction calls generalizing r with
  | nil => cases h; exact hr
  | cons c rest ih =>
      rw [List.foldlM_cons] at h
      cases hcall : r.call c with
      | error refusal => rw [hcall] at h; cases h
      | ok next =>
          rw [hcall] at h
          exact ih (hr.call hcall) h

/-! ### All arguments -/

/-- Reading arguments stays fair, however many are read. -/
theorem Reading.IsFair.takeAll (hr : r.IsFair) {fuel : Nat} {marked : List Marked}
    (h : r.takeAll fuel marked = .ok r') : r'.IsFair := by
  fun_induction Reading.takeAll r fuel marked with
  | case1 r => cases h; exact hr
  | case2 r fuel => cases h; exact hr
  | case3 r fuel argument following s short joined e htake => cases h
  | case4 r fuel argument following s short joined taken htake ih =>
      cases hcalls : taken.calls.foldlM Reading.call r with
      | error refusal => rw [hcalls] at h; cases h
      | ok next =>
          rw [hcalls] at h
          exact ih next (hr.calls hcalls) h
  | case5 r fuel argument mark following hmark ih =>
      exact ih ⟨hr.exclusive, hr.expression, hr.prompt⟩ h

theorem Reading.options_of_finish (h : r.finish = .ok o) : r.options = o := by
  unfold finish at h
  split at h
  · cases h
  split at h
  · cases h
  split at h
  · cases h
  split at h
  · cases h
  · exact Except.ok.inj h

/-- Options that are read come from a fair reading. -/
theorem Options.exists_reading {arguments : List String} (h : Options.parse arguments = .ok o) :
    ∃ r : Reading, r.IsFair ∧ r.options = o := by
  unfold Options.parse at h
  split at h
  · cases h
  next marked _ =>
    cases hread : Reading.takeAll {} marked.length marked with
    | error refusal => rw [hread] at h; cases h
    | ok r =>
        rw [hread] at h
        cases hfinish : r.finish with
        | error e => simp only [bind, Except.bind, hfinish, Except.mapError] at h; cases h
        | ok finished =>
            simp only [bind, Except.bind, hfinish, Except.mapError] at h
            obtain rfl := Except.ok.inj h
            exact ⟨r, Reading.isFair_new.takeAll hread, Reading.options_of_finish hfinish⟩

/-- **An expression and a prompt are never given together.** -/
theorem Options.expression_eq_none {arguments : List String}
    (h : Options.parse arguments = .ok o) (hprompt : o.prompt ≠ none) : o.expression = none := by
  obtain ⟨r, hr, rfl⟩ := Options.exists_reading h
  by_contra hexpression
  have hrival : Switch.prompt ∈ Switch.expression.rivals := by decide
  exact hr.exclusive _ (hr.expression hexpression) _ (hr.prompt hprompt) hrival

end ReversePolish.CommandLine
