import SvgPress.Engine
import Mathlib.Data.Nat.Find
import Mathlib.Order.Bounds.Basic
import Mathlib.Tactic.Common

/-!
# The passes of an optimization

Optimizing a text applies `optimizeOnce` to the text, to what that gives, and so on. Which of these
outcomes is the result is said without the state that is kept between two passes: it is the first
one that is an error, or that uses the budget up, or that is no shorter than the one before.
-/

namespace SvgPress

namespace Engine

/-- The pass of the given number over a text; it works on the text that the pass before it gave,
and where there is none, it does nothing. The pass of number zero gives the text itself. -/
def pass (e : Engine) (s : String) : Nat → Report Error String
  | 0 => .ok s
  | i + 1 =>
    match (e.pass s i).outcome with
    | .ok text => e.optimizeOnce text
    | .error cause => .error cause

/-- What is said by the first passes. -/
def said (e : Engine) (s : String) : Nat → Array Note
  | 0 => #[]
  | i + 1 => e.said s i ++ (e.pass s (i + 1)).notes

/-- The passes stop with the one of the given number. -/
def Stops (e : Engine) (s : String) (i : Nat) : Prop :=
  (∃ cause, (e.pass s i).outcome = .error cause) ∨ i = max e.budget 1 ∨
    2 ≤ i ∧ ∃ earlier text, (e.pass s (i - 1)).outcome = .ok earlier ∧
      (e.pass s i).outcome = .ok text ∧ earlier.utf8ByteSize ≤ text.utf8ByteSize

/-- After the pass of number `i` the next pass works on `input`, and `state` is what is known. -/
structure Standing (e : Engine) (s : String) (i : Nat) (state : PassState) (input : String) :
    Prop where
  budget_eq : state.budget = max e.budget 1
  used_eq : state.used = i
  lastSize_eq : state.lastSize = if i = 0 then none else some input.utf8ByteSize
  outcome_eq : (e.pass s i).outcome = .ok input
  used_lt : i < max e.budget 1

variable {e : Engine} {s input : String} {i k : Nat} {state : PassState}

theorem standing_start (e : Engine) (s : String) :
    e.Standing s 0 ⟨max e.budget 1, 0, none⟩ s :=
  ⟨rfl, rfl, rfl, rfl, Nat.lt_of_lt_of_le Nat.one_pos (Nat.le_max_right _ _)⟩

namespace Standing

theorem pass_succ (h : e.Standing s i state input) : e.pass s (i + 1) = e.optimizeOnce input := by
  rw [pass, h.outcome_eq]

/-- Taking in the outcome of a pass that stops the passes gives this outcome. -/
theorem complete_of_stops (h : e.Standing s i state input) (hs : e.Stops s (i + 1)) :
    Passes.complete state (e.optimizeOnce input).outcome =
      .done ((e.optimizeOnce input).outcome.map (⟨·, i + 1⟩)) := by
  cases ho : (e.optimizeOnce input).outcome with
  | error cause => rfl
  | ok text =>
    have hcond : (decide (state.budget ≤ state.used + 1) ||
        !Passes.shrinks state.lastSize text) = true := by
      rw [h.budget_eq, h.used_eq, h.lastSize_eq]
      rcases hs with ⟨cause, hc⟩ | hb | ⟨h2, earlier, text', he, ht, hle⟩
      · rw [h.pass_succ, ho] at hc
        simp at hc
      · simp [hb]
      · rw [Nat.add_sub_cancel, h.outcome_eq] at he
        rw [h.pass_succ, ho] at ht
        obtain rfl := Except.ok.inj he
        obtain rfl := Except.ok.inj ht
        have hi : i ≠ 0 := by omega
        simp only [Passes.shrinks, if_neg hi, Option.all_some, Bool.or_eq_true, Bool.not_eq_true',
          decide_eq_false_iff_not, Nat.not_lt]
        exact .inr hle
    simp only [Passes.complete]
    rw [if_pos hcond, h.used_eq]
    rfl

/-- Taking in the outcome of a pass that does not stop the passes sets the next one up. -/
theorem complete_of_not_stops (h : e.Standing s i state input) (hs : ¬ e.Stops s (i + 1)) :
    ∃ state' input', Passes.complete state (e.optimizeOnce input).outcome =
      .running state' input' ∧ e.Standing s (i + 1) state' input' := by
  cases ho : (e.optimizeOnce input).outcome with
  | error cause => exact absurd (.inl ⟨cause, by rw [h.pass_succ, ho]⟩) hs
  | ok text =>
    have hpass : (e.pass s (i + 1)).outcome = .ok text := by rw [h.pass_succ, ho]
    have hlt := h.used_lt
    have hne : i + 1 ≠ max e.budget 1 := fun hb => hs (.inr (.inl hb))
    have hshrinks : Passes.shrinks state.lastSize text = true := by
      rw [h.lastSize_eq]
      by_cases hi : i = 0
      · simp [hi, Passes.shrinks]
      · simp only [Passes.shrinks, if_neg hi, Option.all_some, decide_eq_true_eq]
        refine Nat.lt_of_not_le fun hle => hs (.inr (.inr ⟨by omega, input, text, ?_, hpass, hle⟩))
        rw [Nat.add_sub_cancel]
        exact h.outcome_eq
    have hbudget : ¬ state.budget ≤ state.used + 1 := by
      rw [h.budget_eq, h.used_eq]
      omega
    refine ⟨⟨state.budget, state.used + 1, some text.utf8ByteSize⟩, text, ?_, ?_⟩
    · simp [Passes.complete, hshrinks, hbudget]
    · refine ⟨h.budget_eq, by rw [h.used_eq], rfl, hpass, by omega⟩

end Standing

/-! ## The last pass -/

/-- The number of the last pass. -/
def IsLast (e : Engine) (s : String) (k : Nat) : Prop :=
  IsLeast {i | 1 ≤ i ∧ e.Stops s i} k

theorem exists_isLast (e : Engine) (s : String) : ∃ k, e.IsLast s k := by
  classical
  have hex : ∃ i, 1 ≤ i ∧ e.Stops s i := ⟨_, Nat.le_max_right _ _, .inr (.inl rfl)⟩
  exact ⟨Nat.find hex, Nat.find_spec hex, fun i hi => Nat.find_min' hex hi⟩

namespace IsLast

theorem le_budget (h : e.IsLast s k) : k ≤ max e.budget 1 :=
  h.2 ⟨Nat.le_max_right _ _, .inr (.inl rfl)⟩

theorem not_stops (h : e.IsLast s k) (h1 : 1 ≤ i) (hi : i < k) : ¬ e.Stops s i :=
  fun hs => absurd (h.2 ⟨h1, hs⟩) (Nat.not_le.2 hi)

theorem stops (h : e.IsLast s k) : e.Stops s k :=
  h.1.2

/-- What holds at the start, and is carried on by every pass after which there is another, holds
before the last pass. -/
theorem standing_induction (h : e.IsLast s k) {motive : Nat → PassState → String → Prop}
    (start : motive 0 ⟨max e.budget 1, 0, none⟩ s)
    (next : ∀ i state input state' input', e.Standing s i state input →
      Passes.complete state (e.optimizeOnce input).outcome = .running state' input' →
      motive i state input → motive (i + 1) state' input') :
    ∃ i state input, k = i + 1 ∧ e.Standing s i state input ∧ motive i state input := by
  have key : ∀ i < k, ∃ state input, e.Standing s i state input ∧ motive i state input := by
    intro i
    induction i with
    | zero => exact fun _ => ⟨_, _, standing_start e s, start⟩
    | succ i ih =>
      intro hi
      obtain ⟨state, input, hst, hm⟩ := ih (Nat.lt_of_succ_lt hi)
      obtain ⟨state', input', hc, hst'⟩ :=
        hst.complete_of_not_stops (h.not_stops (Nat.le_add_left 1 i) hi)
      exact ⟨state', input', hst', next i state input state' input' hst hc hm⟩
  obtain ⟨i, rfl⟩ : ∃ i, k = i + 1 := ⟨k - 1, (Nat.sub_add_cancel h.1.1).symm⟩
  obtain ⟨state, input, hst, hm⟩ := key i (Nat.lt_succ_self i)
  exact ⟨i, state, input, rfl, hst, hm⟩

/-- The result is what the last pass gives, and all passes up to it have been heard. -/
theorem optimize_eq (h : e.IsLast s k) :
    e.optimize s = ⟨e.said s k, (e.pass s k).outcome.map (⟨·, k⟩)⟩ := by
  obtain ⟨i, state, input, rfl, hst, hrun⟩ := h.standing_induction
    (motive := fun i state input =>
      e.optimize s = e.runPasses (e.budget + 1 - i) (e.said s i) (.running state input))
    rfl fun i state input state' input' hst hc hrun => by
      have hbound : e.budget + 1 - i = (e.budget + 1 - (i + 1)) + 1 := by
        have hlt := hst.used_lt
        omega
      rw [hrun, hbound, runPasses, hc, said, hst.pass_succ]
  have hbound : e.budget + 1 - i = (e.budget - i) + 1 := by
    have hlt := hst.used_lt
    omega
  rw [hrun, hbound, runPasses, hst.complete_of_stops h.stops, said, hst.pass_succ]
  cases e.budget - i <;> rfl

/-- Before the last pass, every text is shorter than the one before it. -/
theorem shrinks (h : e.IsLast s k) (h1 : 1 ≤ i) (hi : i + 1 < k) :
    ∃ earlier text, (e.pass s i).outcome = .ok earlier ∧ (e.pass s (i + 1)).outcome = .ok text ∧
      text.utf8ByteSize < earlier.utf8ByteSize := by
  have hok : ∀ j, 1 ≤ j → j < k → ∃ text, (e.pass s j).outcome = .ok text := by
    intro j hj hjk
    cases ho : (e.pass s j).outcome with
    | error cause => exact absurd (.inl ⟨cause, ho⟩) (h.not_stops hj hjk)
    | ok text => exact ⟨text, rfl⟩
  obtain ⟨earlier, he⟩ := hok i h1 (Nat.lt_of_succ_lt hi)
  obtain ⟨text, ht⟩ := hok (i + 1) (Nat.le_add_left 1 i) hi
  refine ⟨earlier, text, he, ht, Nat.lt_of_not_le fun hle => ?_⟩
  exact h.not_stops (Nat.le_add_left 1 i) hi
    (.inr (.inr ⟨by omega, earlier, text, by rwa [Nat.add_sub_cancel], ht, hle⟩))

end IsLast

/-- If every pass makes its text shorter, the passes go on until the budget is used up. -/
theorem isLast_of_shrinks (h : ∀ i < max e.budget 1, ∃ earlier text,
      (e.pass s i).outcome = .ok earlier ∧ (e.pass s (i + 1)).outcome = .ok text ∧
        text.utf8ByteSize < earlier.utf8ByteSize) : e.IsLast s (max e.budget 1) := by
  refine ⟨⟨Nat.le_max_right _ _, .inr (.inl rfl)⟩, ?_⟩
  rintro i ⟨h1, hs⟩
  refine Nat.le_of_not_lt fun hi => ?_
  obtain ⟨i, rfl⟩ : ∃ j, i = j + 1 := ⟨i - 1, (Nat.sub_add_cancel h1).symm⟩
  obtain ⟨earlier, text, he, ht, hlt⟩ := h i (Nat.lt_of_succ_lt hi)
  rcases hs with ⟨cause, hc⟩ | hb | ⟨-, earlier', text', he', ht', hle⟩
  · rw [ht] at hc
    exact absurd hc (by simp)
  · exact Nat.lt_irrefl _ (hb ▸ hi)
  · obtain rfl := Except.ok.inj (he.symm.trans he')
    obtain rfl := Except.ok.inj (ht.symm.trans ht')
    exact Nat.not_le.2 hlt hle

/-- The result of an optimization is the outcome of the first pass that stops the passes, with its
number. It is within the budget, no later pass is heard, and before it the texts get shorter. With
a budget for one pass the result is the outcome of the first pass, which no budget changes. -/
theorem exists_pass_eq_optimize (e : Engine) (s : String) :
    ∃ k, IsLeast {i | 1 ≤ i ∧ e.Stops s i} k ∧
      e.optimize s = ⟨e.said s k, (e.pass s k).outcome.map (⟨·, k⟩)⟩ ∧
      k ≤ max e.budget 1 ∧
      (∀ i, 1 ≤ i → i + 1 < k → ∃ earlier text, (e.pass s i).outcome = .ok earlier ∧
        (e.pass s (i + 1)).outcome = .ok text ∧ text.utf8ByteSize < earlier.utf8ByteSize) ∧
      ({ e with budget := passBudget false }.optimize s).outcome =
        (e.optimizeOnce s).outcome.map (⟨·, 1⟩) ∧
      ∀ budget, ({ e with budget }.pass s 1) = e.optimizeOnce s := by
  obtain ⟨k, h⟩ := e.exists_isLast s
  refine ⟨k, h, h.optimize_eq, h.le_budget, fun i h1 hi => h.shrinks h1 hi, ?_, fun _ => rfl⟩
  obtain ⟨one, h1⟩ := { e with budget := passBudget false }.exists_isLast s
  obtain rfl : one = 1 := Nat.le_antisymm h1.le_budget h1.1.1
  rw [h1.optimize_eq]
  rfl

end Engine

end SvgPress
