import SvgPress.Proofs.Markup.Reading
import Mathlib.Algebra.Order.Floor.Div

/-!
# Reading in chunks

A reader that is stepped hands out what reading the text at once gives, whatever the size of its
chunks: at the step in which the deciding token falls, and only there. The steps after that say that
nothing is left.
-/

namespace SvgPress.Markup

namespace Reader

/-- The reader after some steps. -/
def after (r : Reader) (n : Nat) : Reader :=
  (fun r => r.step.2)^[n] r

/-- What a step hands out; `n` steps have been taken before it. -/
def answer (r : Reader) (n : Nat) : Option (Except Error Document) :=
  (r.after n).step.1

theorem answer_succ (r : Reader) (n : Nat) : r.answer (n + 1) = r.step.2.answer n := by
  rw [answer, after, Function.iterate_succ_apply]
  rfl

/-- A reader that has handed its outcome out says so from then on. -/
theorem answer_of_state_eq_none (chunk n : Nat) :
    (Reader.mk chunk none).answer n = some (.error (.parse .finished none)) := by
  induction n with
  | zero => rfl
  | succ n ih => rw [answer_succ]; exact ih

end Reader

/-- What the steps of a reader hand out when the tokens ahead of it decide its text. -/
theorem Decides.exists_answer {scanner : Scanner} {builder : Builder} {count chunk : Nat}
    {outcome : Except Error Document} (h : Decides scanner builder count outcome)
    (hc : 0 < chunk) :
    ∃ last, last + 1 = count ⌈/⌉ chunk ∧
      (∀ n < last, (Reader.mk chunk (some (scanner, builder))).answer n = none) ∧
      (Reader.mk chunk (some (scanner, builder))).answer last = some outcome ∧
      ∀ n > last, (Reader.mk chunk (some (scanner, builder))).answer n =
        some (.error (.parse .finished none)) := by
  -- The induction is on the tokens ahead: a step that does not decide takes a whole chunk of them.
  induction hn : count using Nat.strong_induction_on generalizing scanner builder count with
  | _ k ih =>
    subst hn
    have hpos := h.pos
    by_cases hle : count ≤ chunk
    · have hone : count ⌈/⌉ chunk = 1 := by
        rw [Nat.ceilDiv_eq_add_pred_div, Nat.div_eq_iff hc]
        omega
      have hstep := h.step_of_le hle
      refine ⟨0, hone.symm, fun n hn => absurd hn (Nat.not_lt_zero n), ?_, fun n hn => ?_⟩
      · show (Reader.mk chunk (some (scanner, builder))).step.1 = some outcome
        rw [hstep]
      · obtain ⟨n, rfl⟩ : ∃ m, n = m + 1 := ⟨n - 1, by omega⟩
        rw [Reader.answer_succ, hstep]
        exact Reader.answer_of_state_eq_none chunk n
    · obtain ⟨scanner', builder', hstep, hd⟩ := h.step_of_lt (Nat.lt_of_not_le hle)
      obtain ⟨last, hlast, hbefore, hat, hafter⟩ := ih (count - chunk) (by omega) hd rfl
      have hmore : count ⌈/⌉ chunk = (count - chunk) ⌈/⌉ chunk + 1 := by
        rw [Nat.ceilDiv_eq_add_pred_div, Nat.ceilDiv_eq_add_pred_div, ← Nat.add_div_right _ hc]
        congr 1
        omega
      have hnext : ∀ n, (Reader.mk chunk (some (scanner, builder))).answer (n + 1) =
          (Reader.mk chunk (some (scanner', builder'))).answer n := by
        intro n
        rw [Reader.answer_succ, hstep]
      refine ⟨last + 1, by rw [hmore, hlast], fun n hn => ?_, ?_, fun n hn => ?_⟩
      · cases n with
        | zero =>
          show (Reader.mk chunk (some (scanner, builder))).step.1 = none
          rw [hstep]
        | succ n =>
          rw [hnext]
          exact hbefore n (by omega)
      · rw [hnext]
        exact hat
      · obtain ⟨n, rfl⟩ : ∃ m, n = m + 1 := ⟨n - 1, by omega⟩
        rw [hnext]
        exact hafter n (by omega)

/-- A loop that hands the outcome over hands over what the steps give. -/
theorem Reader.deliver_eq {α : Type} (receive : Except Error Document → α) (bound : Nat)
    (r : Reader) : r.deliver receive bound = receive (r.run bound) := by
  induction bound generalizing r with
  | zero => rfl
  | succ bound ih =>
    rw [deliver, run]
    cases r.step with
    | mk answer r' =>
      cases answer with
      | none => exact ih r'
      | some outcome => rfl

/-- Reading a text step by step hands over what reading it at once gives. -/
theorem parseThen_eq {α : Type} (s : String) (receive : Except Error Document → α) :
    parseThen s receive = receive (parse s) :=
  Reader.deliver_eq receive _ _

/-- However many tokens a step may read, stepping a reader hands out the outcome of the text once:
at the step that reads the token which decides the text, with nothing before it, and with nothing
but the remark that the reader is done after it. -/
theorem Reader.answer_withChunk (s : String) (tokens : Nat) :
    ∃ count last, Decides (Scanner.ofString s) .empty count (parse s) ∧
      last + 1 = count ⌈/⌉ max tokens 1 ∧
      (∀ n < last, ((ofString s).withChunk tokens).answer n = none) ∧
      ((ofString s).withChunk tokens).answer last = some (parse s) ∧
      (∀ n > last, ((ofString s).withChunk tokens).answer n =
        some (.error (.parse .finished none))) ∧
      SyntaxError.finished.message = "parser already finished" ∧
      ∀ (α : Type) (receive : Except Error Document → α), parseThen s receive = receive (parse s) := by
  have hd := decides_parse s
  have hc : 0 < max tokens 1 := Nat.lt_of_lt_of_le Nat.one_pos (Nat.le_max_right _ _)
  obtain ⟨last, hlast, hbefore, hat, hafter⟩ := hd.exists_answer hc
  exact ⟨tokenCount s, last, hd, hlast, hbefore, hat, hafter, rfl, fun _ => parseThen_eq s⟩

/-- Four tokens and the end of the input, two tokens a step: the third step hands the document out,
and the fourth says that nothing is left. -/
example :
    let r := (Reader.ofString "<svg>a</svg><!-- -->").withChunk 2
    (r.answer 1).isNone ∧ (r.answer 2).isSome ∧
      r.answer 3 = some (.error (.parse .finished none)) := by
  refine ⟨?_, ?_, ?_⟩ <;> cbv

end SvgPress.Markup
