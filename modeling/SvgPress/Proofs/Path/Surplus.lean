import SvgPress.Proofs.Path.Lengths
import SvgPress.Proofs.Path.Words

/-!
# The length of written path data

What is written for the segments that were read is longer than the data by no more than what the
single words gain: each is charged for the characters that its new notation has more than the old
one, and for the space in front of it where the data had none. What stands between the words, and
every command letter, is paid for by the data.
-/

namespace SvgPress.Path

open Text Binary64

/-! ## What a word gains -/

/-- A text without the sign in front of it. -/
def unsigned (text : List Char) : List Char :=
  (takeSign text).2

namespace Word

/-- Whether nothing stands between the digits of another argument and those of the word. -/
def touches (w : Word) : Bool :=
  w.adjacent && unsigned w.text == w.text

/-- The characters that a word gains when it is written again: those of the longer notation, and a
space where there was none. -/
def surplus (places : ℕ) (w : Word) : ℕ :=
  w.touches.toNat +
    ((unsigned (formatArgument places w.argument)).length - (unsigned w.text).length)

end Word

theorem length_unsigned (text : List Char) :
    unsigned text = text ∨ text.length = (unsigned text).length + 1 := by
  unfold unsigned takeSign
  split
  · exact .inr rfl
  · exact .inr rfl
  · exact .inl rfl

theorem unsigned_minus (text : List Char) : unsigned ('-' :: text) = text := rfl

theorem unsigned_of_isNumeric {text : List Char} (h : text.head?.any isNumeric = true) :
    unsigned text = text := by
  unfold unsigned takeSign
  split
  · exact absurd h Bool.false_ne_true
  · exact absurd h Bool.false_ne_true
  · rfl

/-- A number with a minus is spelled with one. -/
theorem IsSpelled.length_eq {text : List Char} {a : Argument} (h : IsSpelled text a)
    (ha : a.isNegative = true) : text.length = (unsigned text).length + 1 := by
  cases h with
  | flag b => exact absurd ha Bool.false_ne_true
  | number n =>
    have hsign : n.sign = ['-'] := eq_of_beq (n.negative_value.symm.trans ha)
    rw [unsigned, n.takeSign_text, Numeral.text, hsign, List.singleton_append, List.length_cons]

/-! ## What pays for the written text -/

/-- What the data has left over for a space: something that is no argument stood in it after the
last number, and nothing has been written there. -/
def credit (numeric adjacent : Bool) : ℕ :=
  (numeric && !adjacent).toNat

@[simp] theorem credit_adjacent (numeric : Bool) : credit numeric true = 0 := by
  cases numeric <;> rfl

@[simp] theorem credit_false (adjacent : Bool) : credit false adjacent = 0 := rfl

theorem credit_le_one (numeric adjacent : Bool) : credit numeric adjacent ≤ 1 := Bool.toNat_le _

/-- A word pays for its new notation and the space in front of it, with the gap in front of it. -/
theorem Word.written_le {w : Word} (h : IsSpelled w.text w.argument) (places : ℕ) {numeric : Bool}
    {gap : ℕ} (hgap : numeric = true → w.adjacent = false → 0 < gap) :
    (numeric && (formatArgument places w.argument).head?.any isNumeric).toNat +
        (formatArgument places w.argument).length ≤
      gap + w.text.length + w.surplus places := by
  unfold surplus touches
  rcases formatArgument_sign places w.argument with hhead | ⟨hnegative, text, htext⟩
  · rw [hhead, unsigned_of_isNumeric hhead, Bool.and_true]
    rcases length_unsigned w.text with hsame | hsigned
    · rw [hsame, beq_self_eq_true, Bool.and_true]
      cases numeric <;> cases hadjacent : w.adjacent <;> simp [hadjacent] at hgap ⊢ <;> omega
    · have hspace := Bool.toNat_le numeric
      omega
  · -- A minus is in the data too, and it needs no space.
    have hlength := h.length_eq hnegative
    have hspace : ('-' :: text).head?.any isNumeric = false := rfl
    rw [htext, unsigned_minus, hspace, Bool.and_false, Bool.toNat_false, List.length_cons]
    omega

section Written

variable {total : ℕ} {cs rest : List Char}

/-- Arguments pay for what is written for them; the data in front of them may have left a credit. -/
theorem joinedLength_arguments (places : ℕ) {kinds : List ArgumentKind} {args : List Argument}
    (h : readArguments total kinds cs = .ok (args, rest)) (numeric adjacent : Bool)
    (more : List (List Char)) :
    joinedLength numeric (args.map (formatArgument places) ++ more) + rest.length +
        credit (numeric || !kinds.isEmpty) (adjacent || !kinds.isEmpty) ≤
      joinedLength (numeric || !kinds.isEmpty) more + cs.length + credit numeric adjacent +
        ((argumentWords total adjacent kinds cs).map (Word.surplus places)).sum := by
  induction kinds generalizing cs args rest numeric adjacent with
  | nil =>
    obtain ⟨rfl, rfl⟩ := Prod.mk.inj (Except.ok.inj h)
    simp
  | cons kind kinds ih =>
    obtain ⟨⟨a, mid⟩, ha, h⟩ := Outcome.bind_eq_ok_iff.1 h
    obtain ⟨⟨others, left⟩, hothers, h⟩ := Outcome.bind_eq_ok_iff.1 h
    obtain ⟨rfl, rfl⟩ := Prod.mk.inj (Except.ok.inj h)
    obtain ⟨text, htext, hspelled⟩ := exists_text_of_readArgument ha
    have hskip := (skipSeparator_suffix cs).length_le
    have hlength : (skipSeparator cs).length = text.length + mid.length := by
      rw [htext, List.length_append]
    have hrest := ih hothers true true
    rw [argumentWords_cons ha htext, List.map_cons, List.map_cons, List.sum_cons, List.cons_append,
      joinedLength, formatArgument_last]
    generalize hw : (⟨adjacent && (skipSeparator cs).length == cs.length, text, a⟩ : Word) = w
    obtain ⟨rfl, rfl⟩ : w.text = text ∧ w.argument = a := by rw [← hw]; exact ⟨rfl, rfl⟩
    have hgap : numeric = true → w.adjacent = false →
        0 < cs.length - (skipSeparator cs).length + credit numeric adjacent := by
      rintro rfl hadjacent
      rw [← hw] at hadjacent
      rcases Bool.and_eq_false_iff.1 hadjacent with rfl | hmore
      · simp [credit]
      · have hne := ne_of_beq_false hmore
        omega
    have hfirst := Word.written_le hspelled places hgap
    simp only [List.isEmpty_cons, Bool.not_false, Bool.or_true, Bool.true_or, credit_adjacent]
      at hrest ⊢
    omega

theorem isImplied_of_impliedCommand {previous : Option (Command × Bool)} {command : Command}
    {relative : Bool} (h : impliedCommand previous = .ok (command, relative)) :
    isImplied previous command relative = true := by
  cases previous with
  | none => exact absurd h (by simp [impliedCommand])
  | some earlier =>
    obtain ⟨earlier, wasRelative⟩ := earlier
    cases earlier
    case closePath => exact absurd h (by simp [impliedCommand])
    all_goals
      obtain ⟨rfl, rfl⟩ := Prod.mk.inj (Except.ok.inj h)
      simp [isImplied]

/-- A command letter in the data pays for one that is written, or leaves a credit; where the data has
none, none is written. -/
theorem joinedLength_letter_le {previous : Option (Command × Bool)} {command : Command}
    {relative : Bool} {c : Char} {start : List Char}
    (h : readCommand previous (c :: cs) = .ok ((command, relative), start))
    (numeric adjacent : Bool) (more : List (List Char)) :
    joinedLength numeric
          ((if isImplied previous command relative then [] else [[commandLetter command relative]]) ++
            more) + start.length +
        credit (isImplied previous command relative && numeric)
          (adjacent && start.length == (c :: cs).length) ≤
      joinedLength (isImplied previous command relative && numeric) more + (c :: cs).length +
        credit numeric adjacent := by
  rcases readCommand_eq_ok h with ⟨-, -, rfl⟩ | ⟨himplied, rfl⟩
  · cases isImplied previous command relative with
    | true =>
      have hcredit := credit_le_one numeric (adjacent && start.length == (c :: start).length)
      simp only [if_true, List.nil_append, Bool.true_and, List.length_cons] at hcredit ⊢
      omega
    | false =>
      simp only [Bool.false_eq_true, if_false, List.singleton_append, joinedLength_letter,
        Bool.false_and, credit_false, List.length_cons]
      omega
  · rw [isImplied_of_impliedCommand himplied]
    simp

/-- What stands between two segments leaves a credit. -/
theorem credit_skipSeparator_le (numeric adjacent : Bool) (cs : List Char) :
    (skipSeparator cs).length + credit numeric (adjacent && (skipSeparator cs).length == cs.length) ≤
      cs.length + credit numeric adjacent := by
  have hskip := (skipSeparator_suffix cs).length_le
  cases numeric
  · simpa [credit] using hskip
  cases adjacent
  · simpa [credit] using hskip
  cases hsame : (skipSeparator cs).length == cs.length
  · have hne := ne_of_beq_false hsame
    simp [credit]
    omega
  · simpa [credit] using hskip

/-- After a command the reader is behind an argument exactly if the command has arguments; the letter
of a command without arguments is always written. -/
theorem credit_between_le (previous : Option (Command × Bool)) (command : Command)
    (relative numeric adjacent same : Bool) :
    credit (isImplied previous command relative && numeric || !command.signature.isEmpty)
        (!command.signature.isEmpty && same) ≤
      credit (isImplied previous command relative && numeric || !command.signature.isEmpty)
        ((adjacent || !command.signature.isEmpty) && same) := by
  cases hempty : command.signature.isEmpty with
  | false => simp
  | true =>
    have hletter : isImplied previous command relative = false := by
      by_contra himplied
      exact (impliedCommand_of_isImplied (Bool.not_eq_false _ ▸ himplied)).2
        (List.isEmpty_iff.1 hempty)
    rw [hletter]
    simp

/-- Segments pay for what is written for them. -/
theorem joinedLength_pieces (places : ℕ) {bound : ℕ} {previous : Option (Command × Bool)}
    {segments : List Segment} (h : readSegments total bound previous cs = .ok segments)
    (numeric adjacent : Bool) :
    joinedLength numeric (pieces places previous segments) ≤
      cs.length + credit numeric adjacent +
        ((segmentWords total bound adjacent previous cs).map (Word.surplus places)).sum := by
  induction bound generalizing previous cs segments numeric adjacent with
  | zero =>
    have hnil : segments = [] := by
      cases cs <;> exact (Except.ok.inj h).symm
    rw [hnil]
    exact Nat.zero_le _
  | succ bound ih =>
    cases cs with
    | nil =>
      rw [← Except.ok.inj h]
      exact Nat.zero_le _
    | cons c cs =>
      obtain ⟨⟨⟨command, relative⟩, mid⟩, hcommand, h⟩ := Outcome.bind_eq_ok_iff.1 h
      obtain ⟨⟨args, left⟩, hargs, h⟩ := Outcome.bind_eq_ok_iff.1 h
      obtain ⟨others, hothers, h⟩ := Outcome.bind_eq_ok_iff.1 h
      obtain rfl := Except.ok.inj h
      rw [segmentWords_cons hcommand hargs, List.map_append, List.sum_append, pieces,
        List.append_assoc]
      simp only
      generalize hnumeric : (isImplied previous command relative && numeric) = numeric₁
      generalize hadjacent : (adjacent && mid.length == (c :: cs).length) = adjacent₁
      have hletter := joinedLength_letter_le hcommand numeric adjacent
        (args.map (formatArgument places) ++ pieces places (some (command, relative)) others)
      have harguments := joinedLength_arguments places hargs numeric₁ adjacent₁
        (pieces places (some (command, relative)) others)
      have hskip := credit_skipSeparator_le (numeric₁ || !command.signature.isEmpty)
        (adjacent₁ || !command.signature.isEmpty) left
      have hrest := ih hothers (numeric₁ || !command.signature.isEmpty)
        (!command.signature.isEmpty && (skipSeparator left).length == left.length)
      have hcredit := credit_between_le previous command relative numeric adjacent₁
        ((skipSeparator left).length == left.length)
      rw [hnumeric] at hletter hcredit
      rw [hadjacent] at hletter
      omega

end Written

/-! ## Words that gain nothing -/

/-- A word of ordinary size that is spelled without an exponent. -/
structure Word.IsPlain (places : ℕ) (w : Word) : Prop where
  noExponent : 'e' ∉ w.text ∧ 'E' ∉ w.text
  isOrdinary : ∀ x, w.argument = .number x → IsOrdinary places x

theorem length_formatNumber_le {places : ℕ} {n : Numeral} (hpower : n.exponent = 0)
    (h : IsOrdinary places n.value) :
    (unsigned (formatNumber places n.value)).length ≤ n.body.length := by
  have hbody : 1 ≤ n.body.length := by
    obtain ⟨c, rest, hbody, -⟩ := n.exists_body_eq
    rw [hbody]
    exact Nat.succ_pos _
  unfold formatNumber
  split
  case h_2 => exact hbody
  case h_1 negative s e hround =>
    split
    case isTrue => exact hbody
    case isFalse hs =>
      have hlength := length_layout_of_numeral .toEven hpower h hs hround
      obtain ⟨hhead, -⟩ := layout_ends (shortest .toEven s e)
      cases negative with
      | true => rwa [if_pos rfl, unsigned_minus]
      | false => rwa [if_neg Bool.false_ne_true, unsigned_of_isNumeric hhead]

theorem IsSpelled.length_formatArgument_le {places : ℕ} {text : List Char} {a : Argument}
    (h : IsSpelled text a) (hexponent : 'e' ∉ text ∧ 'E' ∉ text)
    (hordinary : ∀ x, a = .number x → IsOrdinary places x) :
    (unsigned (formatArgument places a)).length ≤ (unsigned text).length := by
  cases h with
  | flag b => cases b <;> exact le_rfl
  | number n =>
    simp only [Numeral.text, Numeral.body, List.mem_append, not_or] at hexponent
    have hpower := n.isPower hexponent.1.2.2 hexponent.2.2.2
    rw [unsigned, unsigned, n.takeSign_text]
    exact length_formatNumber_le hpower (hordinary _ rfl)

/-- A plain word gains a space where nothing stood in front of it, and nothing else. -/
theorem Word.surplus_of_isPlain {places : ℕ} {w : Word} (h : IsSpelled w.text w.argument)
    (hplain : w.IsPlain places) : w.surplus places = w.touches.toNat := by
  have hlength := h.length_formatArgument_le hplain.noExponent hplain.isOrdinary
  rw [surplus, Nat.sub_eq_zero_of_le hlength, Nat.add_zero]

/-! ## Path data -/

section PathData

variable {data : String} {segments : List Segment}

theorem spelling_words (h : parse data = .ok segments) :
    Spelling (words data) (segments.flatMap Segment.arguments) data.toList :=
  (spelling_segmentWords h false).mono (List.dropWhile_suffix _).sublist

theorem length_print_le (h : parse data = .ok segments) (places : ℕ) :
    (print places segments).utf8ByteSize ≤
      data.utf8ByteSize + ((words data).map (Word.surplus places)).sum := by
  have hjoined := joinedLength_pieces places h false false
  have hspace : (skipSpace data.toList).length ≤ data.toList.length :=
    (List.dropWhile_suffix _).length_le
  have hbytes := length_le_byteLength data.toList
  calc (print places segments).utf8ByteSize
    _ = joinedLength false (pieces places none segments) := utf8ByteSize_print places segments
    _ ≤ (skipSpace data.toList).length + ((words data).map (Word.surplus places)).sum := hjoined
    _ ≤ data.utf8ByteSize + ((words data).map (Word.surplus places)).sum := by
        rw [← byteLength_toList]
        omega

/-- Path data of plain words with something between them are not written longer. -/
theorem length_print_le_of_isPlain (h : parse data = .ok segments) {places : ℕ}
    (hplain : ∀ w ∈ words data, w.IsPlain places ∧ w.touches = false) :
    (print places segments).utf8ByteSize ≤ data.utf8ByteSize := by
  have hsum : ((words data).map (Word.surplus places)).sum = 0 := by
    refine List.sum_eq_zero (List.forall_mem_map.2 fun w hw => ?_)
    obtain ⟨hplain, htouches⟩ := hplain w hw
    rw [Word.surplus_of_isPlain ((spelling_words h).spelled w hw) hplain, htouches]
    rfl
  have hlength := length_print_le h places
  rwa [hsum, Nat.add_zero] at hlength

/-- What is written for path data that has been read is longer than the data by no more than its
words gain, and a word of ordinary size that is spelled without an exponent gains at most the space
that separates it from an argument right in front of it. -/
theorem utf8ByteSize_print_le (h : parse data = .ok segments) (places : ℕ) :
    (words data).map Word.argument = segments.flatMap Segment.arguments ∧
      ((words data).flatMap Word.text).Sublist data.toList ∧
        (print places segments).utf8ByteSize ≤
            data.utf8ByteSize + ((words data).map (Word.surplus places)).sum ∧
          ∀ w ∈ words data, w.IsPlain places → w.surplus places = w.touches.toNat :=
  ⟨(spelling_words h).arguments, (spelling_words h).sublist, length_print_le h places,
    fun w hw => Word.surplus_of_isPlain ((spelling_words h).spelled w hw)⟩

/-- The segments of `M1.5.5l-1e3 2`. -/
def steepLine : List Segment :=
  [⟨.moveTo, false, [.number (ofDecimal false ⟨15, -1⟩), .number (ofDecimal false ⟨5, -1⟩)]⟩,
    ⟨.lineTo, true, [.number (ofDecimal true ⟨1, 3⟩), .number (ofDecimal false ⟨2, 0⟩)]⟩]

/-- A number that begins right after another one and a power of ten are written with one more byte
each; all other words of the line fit in the place of their text. -/
theorem utf8ByteSize_print_le_of_steepLine :
    parse "M1.5.5l-1e3 2" = .ok steepLine ∧ print 3 steepLine = "M1.5 .5l-1000 2" ∧
      (words "M1.5.5l-1e3 2").map (Word.surplus 3) = [0, 1, 1, 0] ∧
        (words "M1.5.5l-1e3 2").map Word.argument = steepLine.flatMap Segment.arguments ∧
          ((words "M1.5.5l-1e3 2").flatMap Word.text).Sublist "M1.5.5l-1e3 2".toList ∧
            (print 3 steepLine).utf8ByteSize ≤ "M1.5.5l-1e3 2".utf8ByteSize +
                ((words "M1.5.5l-1e3 2").map (Word.surplus 3)).sum ∧
              ∀ w ∈ words "M1.5.5l-1e3 2", w.IsPlain 3 → w.surplus 3 = w.touches.toNat := by
  have h : parse "M1.5.5l-1e3 2" = .ok steepLine := Outcome.eq_ok_of_toOption (by decide +kernel)
  have hprint : print 3 steepLine = "M1.5 .5l-1000 2" := by decide +kernel
  have hsurplus : (words "M1.5.5l-1e3 2").map (Word.surplus 3) = [0, 1, 1, 0] := by
    decide +kernel
  exact ⟨h, hprint, hsurplus, utf8ByteSize_print_le h 3⟩

/-- Path data can come out longer: a power of ten is written out. -/
theorem print_lengthens :
    ∃ segments, parse "M1e5 0" = .ok segments ∧ print 3 segments = "M100000 0" ∧
      "M1e5 0".utf8ByteSize < (print 3 segments).utf8ByteSize :=
  ⟨[⟨.moveTo, false, [.number (ofDecimal false ⟨1, 5⟩), .number (ofDecimal false ⟨0, 0⟩)]⟩],
    Outcome.eq_ok_of_toOption (by decide +kernel), by decide +kernel, by decide +kernel⟩

end PathData

end SvgPress.Path
