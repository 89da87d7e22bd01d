import SvgPress.Proofs.Number.Spelled
import SvgPress.Proofs.Path.Rereading

/-!
# What the reader of path data takes off the text

Everything that the reader goes on over is ASCII: white space and a comma, a command letter, the
characters of a number, a flag. A number, a flag and a round of the loop take a character off; a
round without a letter does so because the command that repeats has arguments.
-/

namespace SvgPress.Path

open Text Binary64

/-! ## Going on over ASCII -/

/-- The second text is what the first one leaves after ASCII characters. -/
def Passes (cs rest : List Char) : Prop :=
  ∃ passed, cs = passed ++ rest ∧ ∀ c ∈ passed, c.val ≤ 127

/-- The second text is what the first one leaves after ASCII characters, of which there is one. -/
structure Consumes (cs rest : List Char) : Prop where
  passes : Passes cs rest
  lt : rest.length < cs.length

section Passing

variable {total : ℕ} {cs mid rest : List Char} {c : Char}

theorem Passes.refl (cs : List Char) : Passes cs cs :=
  ⟨[], rfl, nofun⟩

theorem Passes.trans (h : Passes cs mid) (h' : Passes mid rest) : Passes cs rest := by
  obtain ⟨passed, rfl, hp⟩ := h
  obtain ⟨passed', rfl, hp'⟩ := h'
  exact ⟨passed ++ passed', (List.append_assoc _ _ _).symm,
    fun c hc => (List.mem_append.1 hc).elim (hp c) (hp' c)⟩

theorem Passes.length_le (h : Passes cs rest) : rest.length ≤ cs.length := by
  obtain ⟨passed, rfl, -⟩ := h
  simp

theorem Passes.trans_consumes (h : Passes cs mid) (h' : Consumes mid rest) : Consumes cs rest :=
  ⟨h.trans h'.passes, h'.lt.trans_le h.length_le⟩

theorem Consumes.trans_passes (h : Consumes cs mid) (h' : Passes mid rest) : Consumes cs rest :=
  ⟨h.passes.trans h', h'.length_le.trans_lt h.lt⟩

theorem consumes_cons (hc : c.val ≤ 127) (cs : List Char) : Consumes (c :: cs) cs :=
  ⟨⟨[c], rfl, by simpa using hc⟩, by simp⟩

theorem passes_skipSpace (cs : List Char) : Passes cs (skipSpace cs) := by
  refine ⟨cs.takeWhile isPathSpace, List.takeWhile_append_dropWhile.symm, fun c hc => ?_⟩
  have hspace : isPathSpace c = true := List.all_eq_true.1 List.all_takeWhile c hc
  simp only [isPathSpace, Bool.or_eq_true, beq_iff_eq] at hspace
  rcases hspace with (((rfl | rfl) | rfl) | rfl) | rfl <;> decide

/-- Separators are ASCII. -/
theorem passes_skipSeparator (cs : List Char) : Passes cs (skipSeparator cs) := by
  have hspace := passes_skipSpace cs
  unfold skipSeparator
  split
  case h_1 rest hcomma =>
    rw [hcomma] at hspace
    exact hspace.trans ((consumes_cons (by decide) rest).passes.trans (passes_skipSpace rest))
  case h_2 => exact hspace

/-- A number is taken off with its sign, its point and its exponent, and there is a digit. -/
theorem consumes_take {x : Binary64} (h : take cs = some (x, rest)) : Consumes cs rest := by
  obtain ⟨d, mid, exponent, hdecimal, hexponent, -⟩ := take_eq_some_iff.1 h
  obtain ⟨sign, hcs, hsign, -⟩ := exists_of_takeSign cs
  obtain ⟨whole, point, part, hmantissa, hdigit, hne, hpoint, -⟩ := exists_of_takeDecimal hdecimal
  obtain ⟨power, rfl, -, hpower⟩ := exists_of_takeExponent hexponent
  have hpointed : ∀ c ∈ point, c.val ≤ 127 := by
    rcases hpoint with rfl | ⟨rfl, -⟩
    · simp only [List.mem_singleton, forall_eq]
      decide
    · exact nofun
  have hsplit : cs = (sign ++ (whole ++ (point ++ (part ++ power)))) ++ rest := by
    rw [hcs, hmantissa]
    simp only [List.append_assoc]
  refine ⟨⟨_, hsplit, fun c hc => ?_⟩, ?_⟩
  · simp only [List.mem_append] at hc
    rcases hc with hc | hc | hc | hc | hc
    · exact val_le_of_mem_sign hsign hc
    · exact val_le_of_isDigit (hdigit c (List.mem_append_left _ hc))
    · exact hpointed c hc
    · exact val_le_of_isDigit (hdigit c (List.mem_append_right _ hc))
    · exact hpower c hc
  · have hpos : 0 < (whole ++ part).length := List.length_pos_iff.2 hne
    rw [List.length_append] at hpos
    rw [hsplit]
    simp only [List.length_append]
    omega

theorem consumes_readNumber {x : Binary64} (h : readNumber total cs = .ok (x, rest)) :
    Consumes cs rest :=
  (passes_skipSeparator cs).trans_consumes (consumes_take (readNumber_eq_ok h))

theorem consumes_readFlag {b : Bool} (h : readFlag total cs = .ok (b, rest)) :
    Consumes cs rest := by
  refine (passes_skipSeparator cs).trans_consumes ?_
  rw [readFlag_eq_ok h]
  exact consumes_cons (by cases b <;> decide) rest

/-- An argument takes a character at least, and nothing but ASCII. -/
theorem consumes_readArgument {kind : ArgumentKind} {a : Argument}
    (h : readArgument total kind cs = .ok (a, rest)) : Consumes cs rest := by
  cases kind with
  | number =>
    obtain ⟨⟨x, left⟩, hx, heq⟩ := Outcome.map_eq_ok_iff.1 h
    obtain ⟨-, rfl⟩ := Prod.mk.inj heq
    exact consumes_readNumber hx
  | flag =>
    obtain ⟨⟨b, left⟩, hb, heq⟩ := Outcome.map_eq_ok_iff.1 h
    obtain ⟨-, rfl⟩ := Prod.mk.inj heq
    exact consumes_readFlag hb

/-- Numbers that are not finite are refused. -/
theorem isFinite_of_readNumber {x : Binary64} (h : readNumber total cs = .ok (x, rest)) :
    x.isFinite = true := by
  unfold readNumber at h
  simp only at h
  split at h
  case h_1 => exact absurd h (by simp)
  case h_2 =>
    split at h
    case isTrue hfinite =>
      obtain ⟨rfl, -⟩ := Prod.mk.inj (Except.ok.inj h)
      exact hfinite
    case isFalse => exact absurd h (by simp)

theorem isFinite_of_readArgument {kind : ArgumentKind} {x : Binary64}
    (h : readArgument total kind cs = .ok (.number x, rest)) : x.isFinite = true := by
  cases kind with
  | number =>
    obtain ⟨⟨y, left⟩, hy, heq⟩ := Outcome.map_eq_ok_iff.1 h
    obtain ⟨hyx, -⟩ := Prod.mk.inj heq
    obtain rfl := Argument.number.inj hyx
    exact isFinite_of_readNumber hy
  | flag =>
    obtain ⟨⟨b, left⟩, -, heq⟩ := Outcome.map_eq_ok_iff.1 h
    exact absurd (Prod.mk.inj heq).1 (by simp)

/-- The text begins with the letter of the command. -/
def BeginsWith (cs : List Char) (command : Command × Bool) : Prop :=
  ∃ c rest, cs = c :: rest ∧ c.isAlpha = true ∧
    Command.ofLetter? c.toLower = some command.1 ∧ c.isLower = command.2

theorem val_le_of_isAlpha (h : c.isAlpha = true) : c.val ≤ 127 := by
  rw [isAlpha_eq] at h
  simp only [Bool.or_eq_true, Bool.and_eq_true, decide_eq_true_eq] at h
  rcases h with ⟨-, h⟩ | ⟨-, h⟩ <;> exact UInt32.le_trans h (by decide)

/-- Either the letter is read, or the text stays as it is and the command repeats. -/
theorem readCommand_eq_ok {previous : Option (Command × Bool)} {command : Command × Bool}
    (h : readCommand previous (c :: cs) = .ok (command, rest)) :
    (BeginsWith (c :: cs) command ∧ c.val ≤ 127 ∧ rest = cs) ∨
      impliedCommand previous = .ok command ∧ rest = c :: cs := by
  rw [readCommand] at h
  split at h
  case isTrue hletter =>
    split at h
    case h_1 name hname =>
      obtain ⟨rfl, rfl⟩ := Prod.mk.inj (Except.ok.inj h)
      exact .inl ⟨⟨c, cs, rfl, hletter, hname, rfl⟩, val_le_of_isAlpha hletter, rfl⟩
    case h_2 => exact absurd h (by simp)
  case isFalse =>
    obtain ⟨implied, himplied, heq⟩ := Outcome.map_eq_ok_iff.1 h
    obtain ⟨rfl, rfl⟩ := Prod.mk.inj heq
    exact .inr ⟨himplied, rfl⟩

/-- Only the closing of a path has no arguments. -/
theorem signature_eq_nil_iff {command : Command} :
    command.signature = [] ↔ command = .closePath := by
  cases command <;> decide

/-- Nothing repeats at the start or after a closepath, and what repeats is no closepath. -/
theorem impliedCommand_eq_ok {previous : Option (Command × Bool)} {command : Command × Bool}
    (h : impliedCommand previous = .ok command) :
    (∃ earlier, previous = some earlier ∧ earlier.1 ≠ .closePath) ∧
      command.1 ≠ .closePath := by
  rcases previous with _ | ⟨earlier, relative⟩
  · exact absurd h (by simp [impliedCommand])
  · cases earlier
    case closePath => exact absurd h (by simp [impliedCommand])
    all_goals
      obtain rfl := Except.ok.inj h
      exact ⟨⟨_, rfl, nofun⟩, nofun⟩

theorem passes_readArguments {kinds : List ArgumentKind} {args : List Argument}
    (h : readArguments total kinds cs = .ok (args, rest)) : Passes cs rest := by
  induction kinds generalizing cs args with
  | nil =>
    obtain ⟨-, rfl⟩ := Prod.mk.inj (Except.ok.inj h)
    exact .refl cs
  | cons kind kinds ih =>
    obtain ⟨⟨a, mid⟩, ha, h⟩ := Outcome.bind_eq_ok_iff.1 h
    obtain ⟨⟨others, left⟩, hothers, h⟩ := Outcome.bind_eq_ok_iff.1 h
    obtain ⟨-, rfl⟩ := Prod.mk.inj (Except.ok.inj h)
    exact (consumes_readArgument ha).passes.trans (ih hothers)

/-- Arguments, if there are any, take a character. -/
theorem consumes_readArguments {kinds : List ArgumentKind} {args : List Argument}
    (h : readArguments total kinds cs = .ok (args, rest)) (hk : kinds ≠ []) :
    Consumes cs rest := by
  cases kinds with
  | nil => exact absurd rfl hk
  | cons kind kinds =>
    obtain ⟨⟨a, mid⟩, ha, h⟩ := Outcome.bind_eq_ok_iff.1 h
    obtain ⟨⟨others, left⟩, hothers, h⟩ := Outcome.bind_eq_ok_iff.1 h
    obtain ⟨-, rfl⟩ := Prod.mk.inj (Except.ok.inj h)
    exact (consumes_readArgument ha).trans_passes (passes_readArguments hothers)

/-- A round takes off its letter, or the argument that a command without a letter must have. -/
theorem consumes_round {previous : Option (Command × Bool)} {command : Command × Bool}
    {args : List Argument} (h : readCommand previous (c :: cs) = .ok (command, mid))
    (hargs : readArguments total command.1.signature mid = .ok (args, rest)) :
    Consumes (c :: cs) (skipSeparator rest) := by
  refine Consumes.trans_passes ?_ (passes_skipSeparator rest)
  rcases readCommand_eq_ok h with ⟨-, hletter, rfl⟩ | ⟨himplied, rfl⟩
  · exact (consumes_cons hletter mid).trans_passes (passes_readArguments hargs)
  · have hclose := (impliedCommand_eq_ok himplied).2
    exact consumes_readArguments hargs (signature_eq_nil_iff.not.2 hclose)

/-- One round of the loop, and the rounds after it. -/
theorem readSegments_cons {previous : Option (Command × Bool)} {command : Command × Bool}
    {args : List Argument} (h : readCommand previous (c :: cs) = .ok (command, mid))
    (hargs : readArguments total command.1.signature mid = .ok (args, rest)) (bound : ℕ) :
    readSegments total (bound + 1) previous (c :: cs) =
      (readSegments total bound (some command) (skipSeparator rest)).map
        (⟨command.1, command.2, args⟩ :: ·) := by
  rw [readSegments]
  · simp only [h, hargs, bind, Except.bind]
    cases readSegments total bound (some command) (skipSeparator rest) <;> rfl
  · exact List.cons_ne_nil c cs

/-- A fault in a command or in its arguments is the fault of the path data. -/
theorem readSegments_eq_error {previous : Option (Command × Bool)} {e : PathError}
    (h : readCommand previous (c :: cs) = .error e ∨
      ∃ command mid, readCommand previous (c :: cs) = .ok (command, mid) ∧
        readArguments total command.1.signature mid = .error e) (bound : ℕ) :
    readSegments total (bound + 1) previous (c :: cs) = .error e := by
  rw [readSegments]
  · rcases h with h | ⟨command, mid, h, hargs⟩
    · simp only [h, bind, Except.bind]
    · simp only [h, hargs, bind, Except.bind]
  · exact List.cons_ne_nil c cs

end Passing

end SvgPress.Path
