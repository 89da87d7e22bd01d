import SvgPress.Proofs.Markup.Reading
import SvgPress.Proofs.Optimizer.Iterates
import SvgPress.Task
import Mathlib.Algebra.BigOperators.Group.Finset.Basic

/-!
# Optimizing in steps and at once

A task that is stepped goes through the same passes as an optimization that is done at once. It
delivers the same outcome, once, at a step whose number is known from the texts of the passes: each
pass takes a step for every chunk of tokens, one for the pipeline and one for writing, and a pass
that fails takes no steps after that.
-/

namespace SvgPress

/-- The number of steps that a reader takes for a text. -/
def Markup.readSteps (s : String) : Nat :=
  (tokenCount s + (Reader.defaultChunk - 1)) / Reader.defaultChunk

namespace Engine

/-- The number of steps that a task takes for a pass over a text. -/
def passSteps (e : Engine) (text : String) : Nat :=
  Markup.readSteps text +
    match Markup.parse text with
    | .error _ => 0
    | .ok d =>
      match (e.pipeline.apply d).outcome with
      | .error _ => 1
      | .ok _ => 2

/-- The text that the pass after the one of the given number works on. -/
def passText (e : Engine) (s : String) (i : Nat) : String :=
  (e.pass s i).outcome.toOption.getD ""

/-! ## The stages of a pass -/

variable {e : Engine} {text : String} {d : Document}

theorem optimizeOnce_of_parse_error {cause : Error} (h : Markup.parse text = .error cause) :
    e.optimizeOnce text = ⟨#[], .error cause⟩ := by
  simp only [optimizeOnce, h, bind, Report.bind, Report.ofExcept]

theorem optimizeOnce_of_parse_ok (h : Markup.parse text = .ok d) :
    e.optimizeOnce text = (e.pipeline.apply d).bind fun d =>
      Report.ofExcept ((Markup.write e.style d).mapError .serialize) := by
  simp only [optimizeOnce, h, bind, Report.bind, Report.ofExcept, Array.empty_append]

theorem optimizeOnce_of_apply_error {notes : Array Note} {cause : Error}
    (h : Markup.parse text = .ok d) (ha : e.pipeline.apply d = ⟨notes, .error cause⟩) :
    e.optimizeOnce text = ⟨notes, .error cause⟩ := by
  rw [optimizeOnce_of_parse_ok h, ha]
  rfl

theorem optimizeOnce_of_apply_ok {notes : Array Note} {d' : Document}
    (h : Markup.parse text = .ok d) (ha : e.pipeline.apply d = ⟨notes, .ok d'⟩) :
    e.optimizeOnce text = ⟨notes, (Markup.write e.style d').mapError .serialize⟩ := by
  rw [optimizeOnce_of_parse_ok h, ha]
  simp only [Report.bind, Report.ofExcept, Array.append_empty]

end Engine

namespace Task

/-- Take one step, and add what is said to what has been said. -/
def stepOn (run : Array Note × Task) : Array Note × Task :=
  (run.1 ++ run.2.step.1, run.2.step.2)

/-- So many steps lead from one run to another; nothing is delivered before the last of them. -/
inductive Leads : Nat → Array Note × Task → Array Note × Task → Prop
  | refl (run : Array Note × Task) : Leads 0 run run
  /-- A step of a task that has not delivered, and the steps after it. -/
  | step {run last : Array Note × Task} {n : Nat} (hdone : run.2.isDone = false)
      (hd : run.2.delivered = []) (rest : Leads n (stepOn run) last) : Leads (n + 1) run last

namespace Leads

variable {run mid last : Array Note × Task} {m n : Nat}

theorem trans (h : Leads m run mid) (h' : Leads n mid last) : Leads (m + n) run last := by
  induction h with
  | refl => rwa [Nat.zero_add]
  | step hdone hd _ ih =>
    rw [Nat.succ_add]
    exact .step hdone hd (ih h')

theorem iterate_eq (h : Leads n run last) : stepOn^[n] run = last := by
  induction h with
  | refl => rfl
  | step _ _ _ ih => rwa [Function.iterate_succ_apply]

theorem of_lt (h : Leads n run last) (hm : m < n) :
    (stepOn^[m] run).2.isDone = false ∧ (stepOn^[m] run).2.delivered = [] := by
  induction h generalizing m with
  | refl => exact absurd hm (Nat.not_lt_zero m)
  | step hdone hd _ ih =>
    cases m with
    | zero => exact ⟨hdone, hd⟩
    | succ m =>
      rw [Function.iterate_succ_apply]
      exact ih (Nat.lt_of_succ_lt_succ hm)

end Leads

/-- The task of an engine where the passes stand. -/
def standing (e : Engine) (passes : Passes) : Task :=
  settle ⟨e, .done, []⟩ passes

/-- The task where the reader of a pass has delivered. -/
def afterReading (e : Engine) (state : PassState) : Except Error Document → Task
  | .ok d => ⟨e, .rewrite state d, []⟩
  | .error cause => standing e (Passes.complete state (.error cause))

variable {e : Engine} {said : Array Note} {state : PassState}

/-- Reading takes a step for every chunk, and then the document goes to the pipeline or the fault to
the passes. -/
theorem leads_read (e : Engine) (said : Array Note) (state : PassState) {scanner : Markup.Scanner}
    {builder : Markup.Builder} {count chunk : Nat} {outcome : Except Error Document}
    (h : Markup.Decides scanner builder count outcome) (hc : 0 < chunk) :
    Leads ((count + (chunk - 1)) / chunk)
      (said, ⟨e, .read state ⟨chunk, some (scanner, builder)⟩, []⟩)
      (said, afterReading e state outcome) := by
  induction hn : count using Nat.strong_induction_on generalizing scanner builder count with
  | _ n ih =>
    subst hn
    by_cases hle : count ≤ chunk
    · have hpos := h.pos
      have hone : (count + (chunk - 1)) / chunk = 1 := by
        rw [Nat.div_eq_iff hc]
        omega
      rw [hone]
      refine .step rfl rfl ?_
      have hstep := h.step_of_le hle
      have hon : stepOn (said, ⟨e, .read state ⟨chunk, some (scanner, builder)⟩, []⟩) =
          (said, afterReading e state outcome) := by
        cases outcome with
        | ok d =>
          simp only [stepOn, step, hstep, Array.append_empty]
          rfl
        | error cause =>
          simp only [stepOn, step, hstep, Array.append_empty]
          rfl
      rw [hon]
      exact .refl _
    · obtain ⟨scanner', builder', hstep, hd⟩ := h.step_of_lt (Nat.lt_of_not_le hle)
      have hmore : (count + (chunk - 1)) / chunk = (count - chunk + (chunk - 1)) / chunk + 1 := by
        rw [← Nat.add_div_right _ hc]
        congr 1
        omega
      rw [hmore]
      refine .step rfl rfl ?_
      have hon : stepOn (said, ⟨e, .read state ⟨chunk, some (scanner, builder)⟩, []⟩) =
          (said, ⟨e, .read state ⟨chunk, some (scanner', builder')⟩, []⟩) := by
        simp only [stepOn, step, hstep, Array.append_empty]
      rw [hon]
      exact ih (count - chunk) (by omega) hd rfl

/-- The steps of a pass hand its outcome to the passes. -/
theorem leads_pass (e : Engine) (said : Array Note) (state : PassState) (input : String) :
    Leads (e.passSteps input) (said, standing e (.running state input))
      (said ++ (e.optimizeOnce input).notes,
        standing e (Passes.complete state (e.optimizeOnce input).outcome)) := by
  have hread := leads_read e said state (Markup.decides_parse input)
    (show 0 < Markup.Reader.defaultChunk by decide)
  cases hp : Markup.parse input with
  | error cause =>
    rw [hp] at hread
    rw [Engine.optimizeOnce_of_parse_error hp, Array.append_empty, Engine.passSteps, hp]
    exact hread
  | ok d =>
    rw [hp] at hread
    rcases happly : e.pipeline.apply d with ⟨notes, outcome⟩
    cases outcome with
    | error cause =>
      rw [Engine.optimizeOnce_of_apply_error hp happly, Engine.passSteps, hp]
      simp only [happly]
      refine hread.trans (.step rfl rfl ?_)
      have hon : stepOn (said, afterReading e state (.ok d)) =
          (said ++ notes, standing e (Passes.complete state (.error cause))) := by
        simp only [stepOn, afterReading, step, happly]
        rfl
      rw [hon]
      exact .refl _
    | ok d' =>
      rw [Engine.optimizeOnce_of_apply_ok hp happly, Engine.passSteps, hp]
      simp only [happly]
      refine hread.trans (.step rfl rfl ?_)
      have hon : stepOn (said, afterReading e state (.ok d)) =
          (said ++ notes, ⟨e, .write state d', []⟩) := by
        simp only [stepOn, afterReading, step, happly]
      rw [hon]
      refine .step rfl rfl ?_
      have hon' : stepOn (said ++ notes, ⟨e, .write state d', []⟩) =
          (said ++ notes, standing e
            (Passes.complete state ((Markup.write e.style d').mapError .serialize))) := by
        simp only [stepOn, step, Array.append_empty]
        cases Passes.complete state ((Markup.write e.style d').mapError .serialize) <;> rfl
      rw [hon']
      exact .refl _

/-- The steps of all passes lead to a task that has delivered the result. -/
theorem leads_optimize {s : String} {k : Nat} (h : e.IsLast s k) :
    Leads (∑ i ∈ Finset.range k, e.passSteps (e.passText s i)) (#[], start e s)
      ((e.optimize s).notes, ⟨e, .done, [(e.optimize s).outcome]⟩) := by
  obtain ⟨i, state, input, rfl, hst, hleads⟩ := h.standing_induction
    (motive := fun i state input =>
      Leads (∑ j ∈ Finset.range i, e.passSteps (e.passText s j)) (#[], start e s)
        (e.said s i, standing e (.running state input)))
    (.refl _) fun i state input state' input' hst hc hleads => by
      have htext : e.passText s i = input := by rw [Engine.passText, hst.outcome_eq]; rfl
      have hpass := leads_pass e (e.said s i) state input
      rw [hc] at hpass
      rw [Finset.sum_range_succ, htext, Engine.said, hst.pass_succ]
      exact hleads.trans hpass
  have htext : e.passText s i = input := by rw [Engine.passText, hst.outcome_eq]; rfl
  have hpass := leads_pass e (e.said s i) state input
  rw [hst.complete_of_stops h.stops] at hpass
  rw [Finset.sum_range_succ, htext, h.optimize_eq, Engine.said, hst.pass_succ]
  exact hleads.trans hpass

theorem iterate_stepOn_of_done (n : Nat) (said : Array Note) {t : Task} (h : t.work = .done) :
    stepOn^[n] (said, t) = (said, t) := by
  have hstep : t.step = (#[], t) := by rw [step, h]
  have hon : stepOn (said, t) = (said, t) := by rw [stepOn, hstep, Array.append_empty]
  induction n with
  | zero => rfl
  | succ n ih => rw [Function.iterate_succ_apply, hon, ih]

/-- A task delivers the result of the optimization at once, and once only: with `k` passes, at the
step whose number is the sum of the steps of the passes. Before that step it is not done and has
delivered nothing; afterwards it stays as it is. -/
theorem delivers_optimize (e : Engine) (s : String) :
    ∃ k, e.IsLast s k ∧
      (∀ n < ∑ i ∈ Finset.range k, e.passSteps (e.passText s i),
        (stepOn^[n] (#[], start e s)).2.isDone = false ∧
        (stepOn^[n] (#[], start e s)).2.delivered = []) ∧
      ∀ n ≥ ∑ i ∈ Finset.range k, e.passSteps (e.passText s i),
        (stepOn^[n] (#[], start e s)).2.isDone = true ∧
        (stepOn^[n] (#[], start e s)).2.delivered = [(e.optimize s).outcome] ∧
        (stepOn^[n] (#[], start e s)).1 = (e.optimize s).notes := by
  obtain ⟨k, h⟩ := e.exists_isLast s
  have hleads := leads_optimize h
  refine ⟨k, h, fun n hn => hleads.of_lt hn, fun n hn => ?_⟩
  obtain ⟨more, rfl⟩ := Nat.exists_eq_add_of_le' hn
  rw [Function.iterate_add_apply, hleads.iterate_eq, iterate_stepOn_of_done more _ rfl]
  exact ⟨rfl, rfl, rfl⟩

end Task

end SvgPress
