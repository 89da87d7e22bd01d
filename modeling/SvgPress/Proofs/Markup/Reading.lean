import SvgPress.Markup.Reader
import SvgPress.Proofs.Markup.Heads
import SvgPress.Proofs.Outcome

/-!
# Reading, token by token

Every token but the end of the input takes at least one character off the text, so reading comes to
a decision after finitely many tokens. How many tokens a text takes to be decided, and what is
decided, depends on nothing else; reading in chunks decides the same after as many tokens.
-/

namespace SvgPress.Markup

/-! ## Tokens until the decision -/

/-- The tokens from here on decide the text with the given outcome; the number counts them, the
last one, which may be a fault, included. -/
inductive Decides : Scanner → Builder → Nat → Except Error Document → Prop
  /-- This token decides. -/
  | last {scanner : Scanner} {builder : Builder} {outcome : Except Error Document}
      (h : advance scanner builder = .done outcome) : Decides scanner builder 1 outcome
  /-- A later token decides. -/
  | next {scanner scanner' : Scanner} {builder builder' : Builder} {count : Nat}
      {outcome : Except Error Document} (h : advance scanner builder = .running scanner' builder')
      (later : Decides scanner' builder' count outcome) :
      Decides scanner builder (count + 1) outcome

/-- Reading goes on exactly after a token that does not end the input and is taken in. -/
theorem advance_eq_running_iff {scanner scanner' : Scanner} {builder builder' : Builder} :
    advance scanner builder = .running scanner' builder' ↔
      ∃ token, scanner.next = .ok (token, scanner') ∧ token ≠ .endOfInput ∧
        builder.feed token = .ok builder' := by
  unfold advance
  split
  · rename_i hnext
    simp [hnext]
  · rename_i hnext
    simp [hnext]
  · rename_i token after hne hnext
    cases hfeed : builder.feed token with
    | error cause => simp [hnext, hfeed]
    | ok builder₁ => simpa [hnext, hfeed] using fun _ _ => hne

/-- Reading ends with a document exactly at the end of the input. -/
theorem advance_eq_done_ok_iff {scanner : Scanner} {builder : Builder} {d : Document} :
    advance scanner builder = .done (.ok d) ↔
      ∃ after, scanner.next = .ok (.endOfInput, after) ∧ builder.finish = .ok d := by
  unfold advance
  split
  · rename_i hnext
    simp [hnext]
  · rename_i hnext
    simp [hnext, Outcome.mapError_eq_ok_iff]
  · rename_i token after hne hnext
    cases hfeed : builder.feed token with
    | error cause => simpa [hnext] using fun he => absurd he hne
    | ok builder₁ => simpa [hnext] using fun he => absurd he hne

theorem length_lt_of_advance {scanner scanner' : Scanner} {builder builder' : Builder}
    (h : advance scanner builder = .running scanner' builder') :
    scanner'.rest.length < scanner.rest.length := by
  obtain ⟨token, hnext, hne, -⟩ := advance_eq_running_iff.1 h
  exact (heads_of_next hnext hne).1.length_lt

/-- Every text is decided, by no more tokens than it has characters, and the end of the input. -/
theorem exists_decides (scanner : Scanner) (builder : Builder) :
    ∃ count outcome, Decides scanner builder count outcome ∧ count ≤ scanner.rest.length + 1 := by
  induction hn : scanner.rest.length using Nat.strong_induction_on generalizing scanner builder with
  | _ n ih =>
    subst hn
    cases ha : advance scanner builder with
    | done outcome => exact ⟨1, outcome, .last ha, Nat.le_add_left 1 _⟩
    | running scanner' builder' =>
      have hlt := length_lt_of_advance ha
      obtain ⟨count, outcome, hd, hle⟩ := ih _ hlt scanner' builder' rfl
      exact ⟨count + 1, outcome, .next ha hd, by omega⟩

theorem Decides.pos {scanner : Scanner} {builder : Builder} {count : Nat}
    {outcome : Except Error Document} (h : Decides scanner builder count outcome) : 0 < count := by
  cases h with
  | last => exact Nat.one_pos
  | next => exact Nat.succ_pos _

theorem Decides.advanceBy_of_le {scanner : Scanner} {builder : Builder} {count tokens : Nat}
    {outcome : Except Error Document} (h : Decides scanner builder count outcome)
    (hle : count ≤ tokens) : advanceBy tokens scanner builder = .done outcome := by
  induction h generalizing tokens with
  | last h =>
    obtain ⟨tokens, rfl⟩ : ∃ n, tokens = n + 1 := ⟨tokens - 1, by omega⟩
    rw [advanceBy, h]
  | next h _ ih =>
    obtain ⟨tokens, rfl⟩ : ∃ n, tokens = n + 1 := ⟨tokens - 1, by omega⟩
    rw [advanceBy, h]
    exact ih (by omega)

/-- Reading fewer tokens leaves the others to be read. -/
theorem Decides.advanceBy_of_lt {scanner : Scanner} {builder : Builder} {count tokens : Nat}
    {outcome : Except Error Document} (h : Decides scanner builder count outcome)
    (hlt : tokens < count) : ∃ scanner' builder',
      advanceBy tokens scanner builder = .running scanner' builder' ∧
      Decides scanner' builder' (count - tokens) outcome := by
  induction h generalizing tokens with
  | last h =>
    obtain rfl : tokens = 0 := by omega
    exact ⟨_, _, rfl, .last h⟩
  | @next _ _ _ _ count _ h later ih =>
    cases tokens with
    | zero => exact ⟨_, _, rfl, .next h later⟩
    | succ tokens =>
      obtain ⟨scanner', builder', hrun, hd⟩ := ih (Nat.lt_of_succ_lt_succ hlt)
      refine ⟨scanner', builder', ?_, ?_⟩
      · rw [advanceBy, h]
        exact hrun
      · rwa [Nat.add_sub_add_right]

/-! ## Steps of a reader -/

/-- A step that reads enough tokens hands the outcome out. -/
theorem Decides.step_of_le {scanner : Scanner} {builder : Builder} {count chunk : Nat}
    {outcome : Except Error Document} (h : Decides scanner builder count outcome)
    (hle : count ≤ chunk) :
    (Reader.mk chunk (some (scanner, builder))).step = (some outcome, ⟨chunk, none⟩) := by
  simp only [Reader.step, h.advanceBy_of_le hle]

/-- A step that reads fewer tokens leaves the others to the steps after it. -/
theorem Decides.step_of_lt {scanner : Scanner} {builder : Builder} {count chunk : Nat}
    {outcome : Except Error Document} (h : Decides scanner builder count outcome)
    (hlt : chunk < count) : ∃ scanner' builder',
      (Reader.mk chunk (some (scanner, builder))).step =
        (none, ⟨chunk, some (scanner', builder')⟩) ∧
      Decides scanner' builder' (count - chunk) outcome := by
  obtain ⟨scanner', builder', hrun, hd⟩ := h.advanceBy_of_lt hlt
  exact ⟨scanner', builder', by simp only [Reader.step, hrun], hd⟩

theorem Decides.run_eq {scanner : Scanner} {builder : Builder} {count chunk bound : Nat}
    {outcome : Except Error Document} (h : Decides scanner builder count outcome)
    (hc : 0 < chunk) (hle : count ≤ bound) :
    (Reader.mk chunk (some (scanner, builder))).run bound = outcome := by
  induction bound generalizing scanner builder count with
  | zero =>
    have hpos := h.pos
    omega
  | succ bound ih =>
    by_cases hcount : count ≤ chunk
    · simp only [Reader.run, h.step_of_le hcount]
    · obtain ⟨scanner', builder', hs, hd⟩ := h.step_of_lt (Nat.lt_of_not_le hcount)
      simp only [Reader.run, hs]
      exact ih hd (by omega)

/-- What the tokens of a text decide is what reading it gives. -/
theorem Decides.parse_eq {s : String} {count : Nat} {outcome : Except Error Document}
    (h : Decides (Scanner.ofString s) .empty count outcome) : parse s = outcome := by
  obtain ⟨count', outcome', h', hle⟩ := exists_decides (Scanner.ofString s) .empty
  have hrun : ∀ {n o}, Decides (Scanner.ofString s) .empty n o → n ≤ max count count' →
      (Reader.ofString s).run (max count count') = o :=
    fun hd hn => hd.run_eq (Nat.succ_pos _) hn
  have he : outcome = outcome' :=
    (hrun h (Nat.le_max_left _ _)).symm.trans (hrun h' (Nat.le_max_right _ _))
  rw [parse, Reader.finish, he]
  exact h'.run_eq (Nat.succ_pos _) hle

/-- The number of tokens, no more than `bound`, up to the one that decides the text. -/
def decidingTokens : (bound : Nat) → Scanner → Builder → Nat
  | 0, _, _ => 0
  | bound + 1, scanner, builder =>
    match advance scanner builder with
    | .running scanner builder => decidingTokens bound scanner builder + 1
    | .done _ => 1

/-- The number of tokens that decide a text: those before its end or its first fault, and one for
that. -/
def tokenCount (s : String) : Nat :=
  decidingTokens ((Scanner.ofString s).rest.length + 1) (Scanner.ofString s) .empty

theorem Decides.decidingTokens_eq {scanner : Scanner} {builder : Builder} {count bound : Nat}
    {outcome : Except Error Document} (h : Decides scanner builder count outcome)
    (hle : count ≤ bound) : decidingTokens bound scanner builder = count := by
  induction h generalizing bound with
  | last h =>
    obtain ⟨bound, rfl⟩ : ∃ n, bound = n + 1 := ⟨bound - 1, by omega⟩
    rw [decidingTokens, h]
  | next h _ ih =>
    obtain ⟨bound, rfl⟩ : ∃ n, bound = n + 1 := ⟨bound - 1, by omega⟩
    rw [decidingTokens, h]
    simp only [ih (Nat.le_of_succ_le_succ hle)]

/-- Every text is decided by as many tokens as it has, with what reading it gives. -/
theorem decides_parse (s : String) :
    Decides (Scanner.ofString s) .empty (tokenCount s) (parse s) := by
  obtain ⟨count, outcome, h, hle⟩ := exists_decides (Scanner.ofString s) .empty
  rw [tokenCount, h.decidingTokens_eq hle, h.parse_eq]
  exact h

end SvgPress.Markup
