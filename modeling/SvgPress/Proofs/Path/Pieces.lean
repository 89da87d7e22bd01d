import SvgPress.Path.Parser
import SvgPress.Proofs.Outcome
import SvgPress.Proofs.Path.Notation

/-!
# Pieces of path data

Pieces that are written one after the other are found again one by one: what stands between two of
them is skipped by the reader, and no number goes on into the piece after it. Together they are as
long as the pieces and the spaces between them.
-/

namespace SvgPress.Path

open Text Binary64

/-! ## Where a piece begins -/

/-- A character that a piece can begin with. White space and a comma would be skipped before the
piece; a letter of an exponent would continue the number before it. -/
structure IsStart (c : Char) : Prop where
  notSpace : isPathSpace c = false
  notComma : c ≠ ','
  notExponent : c ≠ 'e' ∧ c ≠ 'E'

/-- A piece is a text with a first character that a piece can begin with. -/
def IsPiece (piece : List Char) : Prop :=
  ∃ c text, piece = c :: text ∧ IsStart c

theorem isStart_commandLetter (command : Command) (relative : Bool) :
    IsStart (commandLetter command relative) := by
  cases command <;> cases relative <;> exact ⟨rfl, by decide, by decide⟩

theorem isStart_of_isNumeric {c : Char} (h : (isNumeric c || c == '-') = true) : IsStart c := by
  have hother : ∀ c', (isNumeric c' || c' == '-') = false → c ≠ c' := by
    rintro _ hc rfl
    exact Bool.false_ne_true (hc.symm.trans h)
  refine ⟨?_, hother ',' (by decide), hother 'e' (by decide), hother 'E' (by decide)⟩
  simp [isPathSpace, hother ' ' (by decide), hother '\t' (by decide), hother '\n' (by decide),
    hother '\r' (by decide), hother '\x0c' (by decide)]

/-- A letter lies between two of the same case. -/
theorem isAlpha_eq (c : Char) : c.isAlpha = (decide ('A'.val ≤ c.val ∧ c.val ≤ 'Z'.val) ||
    decide ('a'.val ≤ c.val) && decide (c.val ≤ 'z'.val)) :=
  rfl

/-- What an argument begins with is not taken for a command. -/
theorem isAlpha_eq_false_of_isNumeric {c : Char} (h : (isNumeric c || c == '-') = true) :
    c.isAlpha = false := by
  simp only [isNumeric, isDigit, Bool.or_eq_true, Bool.and_eq_true, decide_eq_true_eq,
    beq_iff_eq] at h
  rcases h with (⟨-, hc⟩ | rfl) | rfl
  · have hval : c.val.toNat ≤ 57 := UInt32.le_iff_toNat_le.1 hc
    rw [← Bool.not_eq_true, isAlpha_eq]
    simp only [Bool.or_eq_true, Bool.and_eq_true, decide_eq_true_eq, UInt32.le_iff_toNat_le]
    rintro (⟨hlow, -⟩ | ⟨hlow, -⟩)
    · have hupper : 65 ≤ c.val.toNat := hlow
      omega
    · have hlower : 97 ≤ c.val.toNat := hlow
      omega
  · rfl
  · rfl

/-- An argument is written as a digit, a point or a minus, and what follows it. -/
theorem formatArgument_eq (places : ℕ) (a : Argument) :
    ∃ c text, formatArgument places a = c :: text ∧ (isNumeric c || c == '-') = true := by
  rcases a with x | _ | _
  · obtain ⟨c, hc, hstart⟩ := (Option.any_eq_true _ _).1 (formatNumber_ends places x).1
    obtain ⟨text, htext⟩ := List.head?_eq_some_iff.1 hc
    exact ⟨c, text, htext, hstart⟩
  · exact ⟨'0', [], rfl, rfl⟩
  · exact ⟨'1', [], rfl, rfl⟩

/-- Whether an argument is a number with a minus. -/
def Argument.isNegative : Argument → Bool
  | .number x => x.negative
  | .flag _ => false

/-- Only what is negative is written with a minus. -/
theorem formatArgument_sign (places : ℕ) (a : Argument) :
    (formatArgument places a).head?.any isNumeric = true ∨
      a.isNegative = true ∧ ∃ text, formatArgument places a = '-' :: text := by
  rcases a with x | _ | _
  · exact formatNumber_sign places x
  · exact .inl rfl
  · exact .inl rfl

theorem formatArgument_last (places : ℕ) (a : Argument) :
    (formatArgument places a).getLast?.any isNumeric = true := by
  rcases a with x | _ | _
  · exact (formatNumber_ends places x).2
  · rfl
  · rfl

theorem isPiece_formatArgument (places : ℕ) (a : Argument) : IsPiece (formatArgument places a) := by
  obtain ⟨c, text, htext, hc⟩ := formatArgument_eq places a
  exact ⟨c, text, htext, isStart_of_isNumeric hc⟩

theorem isPiece_of_mem_arguments {places : ℕ} {args : List Argument} {more : List (List Char)}
    (hmore : ∀ p ∈ more, IsPiece p) {piece : List Char}
    (h : piece ∈ args.map (formatArgument places) ++ more) : IsPiece piece := by
  rcases List.mem_append.1 h with h | h
  · obtain ⟨a, -, rfl⟩ := List.mem_map.1 h
    exact isPiece_formatArgument places a
  · exact hmore piece h

theorem isPiece_commandLetter (command : Command) (relative : Bool) :
    IsPiece [commandLetter command relative] :=
  ⟨_, [], rfl, isStart_commandLetter command relative⟩

/-- Segments are written as pieces. -/
theorem isPiece_of_mem_pieces {places : ℕ} {previous : Option (Command × Bool)}
    {segments : List Segment} {piece : List Char} (h : piece ∈ pieces places previous segments) :
    IsPiece piece := by
  induction segments generalizing previous piece with
  | nil => exact absurd h List.not_mem_nil
  | cons s segments ih =>
    rw [pieces, List.append_assoc, List.mem_append] at h
    rcases h with h | h
    · split at h
      · exact absurd h List.not_mem_nil
      · obtain rfl := List.mem_singleton.1 h
        exact isPiece_commandLetter _ _
    · exact isPiece_of_mem_arguments (fun _ hp => ih hp) h

/-! ## What stands after a piece -/

/-- The text after a piece that others follow. -/
def after (first : List Char) : List (List Char) → List Char
  | [] => []
  | second :: rest =>
    if merges first second then ' ' :: join (second :: rest) else join (second :: rest)

theorem join_cons (first : List Char) (rest : List (List Char)) :
    join (first :: rest) = first ++ after first rest := by
  cases rest with
  | nil => simp [join, after]
  | cons second rest =>
    rw [join, after]
    split <;> rfl

theorem skipSpace_start {c : Char} (hc : IsStart c) (text : List Char) :
    skipSpace (c :: text) = c :: text := by
  simp [skipSpace, hc.notSpace]

theorem skipSeparator_start {c : Char} (hc : IsStart c) (text : List Char) :
    skipSeparator (c :: text) = c :: text := by
  unfold skipSeparator
  rw [skipSpace_start hc]
  split
  case h_1 rest heq => exact absurd (List.cons.inj heq).1 hc.notComma
  case h_2 => rfl

section Joined

variable {first : List Char} {rest : List (List Char)}

/-- Joined pieces begin as a piece does, or there are none. -/
theorem join_eq_start (h : ∀ p ∈ rest, IsPiece p) :
    join rest = [] ∨ ∃ c text, join rest = c :: text ∧ IsStart c := by
  cases rest with
  | nil => exact .inl rfl
  | cons second rest =>
    obtain ⟨c, text, rfl, hc⟩ := h second List.mem_cons_self
    exact .inr ⟨c, text ++ after (c :: text) rest, by rw [join_cons, List.cons_append], hc⟩

theorem skipSpace_join (h : ∀ p ∈ rest, IsPiece p) : skipSpace (join rest) = join rest := by
  rcases join_eq_start h with heq | ⟨c, text, heq, hc⟩
  · rw [heq]
    rfl
  · rw [heq, skipSpace_start hc]

theorem skipSeparator_join (h : ∀ p ∈ rest, IsPiece p) : skipSeparator (join rest) = join rest := by
  rcases join_eq_start h with heq | ⟨c, text, heq, hc⟩
  · rw [heq]
    rfl
  · rw [heq, skipSeparator_start hc]

/-- The space between two pieces is skipped. -/
theorem skipSeparator_after (h : ∀ p ∈ rest, IsPiece p) (first : List Char) :
    skipSeparator (after first rest) = join rest := by
  cases rest with
  | nil => rfl
  | cons second rest =>
    have hspace : ∀ cs, skipSeparator (' ' :: cs) = skipSeparator cs := fun cs => by
      simp [skipSeparator, skipSpace, isPathSpace]
    rw [after]
    split
    · rw [hspace, skipSeparator_join h]
    · exact skipSeparator_join h

/-- A piece that could continue a number stands behind a space. -/
theorem endsNumber_after (h : ∀ p ∈ rest, IsPiece p) (hlast : first.getLast?.any isNumeric = true) :
    EndsNumber (after first rest) := by
  cases rest with
  | nil => exact endsNumber_nil
  | cons second rest =>
    obtain ⟨c, text, rfl, hc⟩ := h second List.mem_cons_self
    rw [after]
    split
    case isTrue =>
      intro c' hc'
      obtain rfl := Option.some.inj hc'
      decide
    case isFalse hmerges =>
      rw [join_cons]
      intro c' hc'
      obtain rfl := Option.some.inj hc'
      refine ⟨?_, hc.notExponent⟩
      simpa [merges, hlast] using hmerges

/-- Every piece takes a character. -/
theorem length_le_length_join (h : ∀ p ∈ rest, IsPiece p) : rest.length ≤ (join rest).length := by
  induction rest with
  | nil => exact Nat.zero_le _
  | cons second rest ih =>
    obtain ⟨c, text, rfl, -⟩ := h second List.mem_cons_self
    have hrest := ih fun p hp => h p (List.mem_cons_of_mem _ hp)
    have hafter : (join rest).length ≤ (after (c :: text) rest).length := by
      cases rest with
      | nil => exact Nat.zero_le _
      | cons third rest =>
        rw [after]
        split
        · exact Nat.le_succ _
        · exact le_rfl
    rw [join_cons, List.length_append, List.length_cons, List.length_cons]
    omega

end Joined

/-! ## The length of joined pieces -/

/-- The length of pieces with the spaces between them; a number, which would go on in a digit, may
end in front of the first. -/
def joinedLength : (numeric : Bool) → List (List Char) → ℕ
  | _, [] => 0
  | numeric, piece :: rest =>
    (numeric && piece.head?.any isNumeric).toNat + piece.length +
      joinedLength (piece.getLast?.any isNumeric) rest

theorem length_after (first : List Char) (rest : List (List Char)) :
    (after first rest).length = joinedLength (first.getLast?.any isNumeric) rest := by
  induction rest generalizing first with
  | nil => rfl
  | cons second rest ih =>
    rw [after, joinedLength, join_cons, ← ih second, merges]
    split
    case isTrue h => simp [h]; omega
    case isFalse h => simp [h]

theorem length_join (pieces : List (List Char)) : (join pieces).length = joinedLength false pieces := by
  cases pieces with
  | nil => rfl
  | cons first rest =>
    rw [join_cons, List.length_append, length_after, joinedLength]
    simp

theorem joinedLength_letter (numeric : Bool) (command : Command) (relative : Bool)
    (rest : List (List Char)) :
    joinedLength numeric ([commandLetter command relative] :: rest) = 1 + joinedLength false rest := by
  have hletter : isNumeric (commandLetter command relative) = false := by
    cases command <;> cases relative <;> rfl
  simp [joinedLength, hletter]

/-! ## Bytes -/

theorem utf8Size_of_mem_formatArgument (places : ℕ) (a : Argument) :
    ∀ c ∈ formatArgument places a, c.utf8Size = 1 := by
  rcases a with x | _ | _
  · exact utf8Size_of_mem_formatNumber places x
  · exact List.forall_mem_singleton.2 rfl
  · exact List.forall_mem_singleton.2 rfl

theorem utf8Size_of_mem_pieces (places : ℕ) (previous : Option (Command × Bool))
    (segments : List Segment) :
    ∀ piece ∈ pieces places previous segments, ∀ c ∈ piece, c.utf8Size = 1 := by
  induction segments generalizing previous with
  | nil => exact nofun
  | cons s segments ih =>
    have hletter : (commandLetter s.command s.relative).utf8Size = 1 := by
      cases s.command <;> cases s.relative <;> rfl
    rw [pieces]
    refine List.forall_mem_append.2 ⟨List.forall_mem_append.2 ⟨?_, ?_⟩, ih _⟩
    · split
      · exact nofun
      · exact List.forall_mem_singleton.2 (List.forall_mem_singleton.2 hletter)
    · exact List.forall_mem_map.2 fun a _ => utf8Size_of_mem_formatArgument places a

theorem utf8Size_of_mem_join {ps : List (List Char)} (h : ∀ piece ∈ ps, ∀ c ∈ piece, c.utf8Size = 1) :
    ∀ c ∈ join ps, c.utf8Size = 1 := by
  induction ps using join.induct with
  | case1 => exact nofun
  | case2 piece => exact h piece List.mem_cons_self
  | case3 first second rest hmerges ih =>
    obtain ⟨hfirst, hrest⟩ := List.forall_mem_cons.1 h
    rw [join, if_pos hmerges]
    exact List.forall_mem_append.2 ⟨hfirst, List.forall_mem_cons.2 ⟨rfl, ih hrest⟩⟩
  | case4 first second rest hmerges ih =>
    obtain ⟨hfirst, hrest⟩ := List.forall_mem_cons.1 h
    rw [join, if_neg hmerges]
    exact List.forall_mem_append.2 ⟨hfirst, ih hrest⟩

/-- Path data is written in ASCII, so its size is the length that is counted for the pieces. -/
theorem utf8ByteSize_print (places : ℕ) (segments : List Segment) :
    (print places segments).utf8ByteSize = joinedLength false (pieces places none segments) := by
  rw [← length_join, ← byteLength_eq_length, print, ← byteLength_toList, String.toList_ofList]
  exact utf8Size_of_mem_join (utf8Size_of_mem_pieces places none segments)

end SvgPress.Path
