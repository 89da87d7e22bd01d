import SvgPress.Proofs.Path.Pieces

/-!
# Reading written path data

Path data that is written and read again has the same segments: each command is read where its
letter was written or left out, each flag is the same flag, and each number is the rounded one that
its notation denotes.
-/

namespace SvgPress.Path

open Text Binary64

/-! ## Segments as the reader makes them -/

/-- The number of an argument is in the form of the format. -/
def Argument.IsCanonical : Argument → Prop
  | .number x => x.IsCanonical
  | .flag _ => True

/-- The arguments fit the command. -/
structure Segment.IsValid (s : Segment) : Prop where
  kinds : s.arguments.map Argument.kind = s.command.signature
  canonical : ∀ a ∈ s.arguments, a.IsCanonical

section Read

variable {total : ℕ} {text rest : List Char}

theorem readNumber_eq_ok {x : Binary64} (h : readNumber total text = .ok (x, rest)) :
    take (skipSeparator text) = some (x, rest) := by
  unfold readNumber at h
  simp only at h
  split at h
  case h_1 => exact absurd h (by simp)
  case h_2 htake =>
    split at h
    · obtain ⟨rfl, rfl⟩ := Prod.mk.inj (Except.ok.inj h)
      exact htake
    · exact absurd h (by simp)

theorem readFlag_eq_ok {b : Bool} (h : readFlag total text = .ok (b, rest)) :
    skipSeparator text = (if b then '1' else '0') :: rest := by
  unfold readFlag at h
  split at h
  case h_1 left hskip =>
    obtain ⟨rfl, rfl⟩ := Prod.mk.inj (Except.ok.inj h)
    exact hskip
  case h_2 left hskip =>
    obtain ⟨rfl, rfl⟩ := Prod.mk.inj (Except.ok.inj h)
    exact hskip
  case h_3 => exact absurd h (by simp)

theorem isCanonical_of_readArgument {kind : ArgumentKind} {a : Argument}
    (h : readArgument total kind text = .ok (a, rest)) : a.kind = kind ∧ a.IsCanonical := by
  cases kind with
  | number =>
    obtain ⟨⟨x, left⟩, hx, heq⟩ := Outcome.map_eq_ok_iff.1 h
    obtain ⟨rfl, -⟩ := Prod.mk.inj heq
    exact ⟨rfl, isCanonical_of_take (readNumber_eq_ok hx)⟩
  | flag =>
    obtain ⟨⟨b, left⟩, -, heq⟩ := Outcome.map_eq_ok_iff.1 h
    obtain ⟨rfl, -⟩ := Prod.mk.inj heq
    exact ⟨rfl, trivial⟩

theorem isCanonical_of_readArguments {kinds : List ArgumentKind} {args : List Argument}
    (h : readArguments total kinds text = .ok (args, rest)) :
    args.map Argument.kind = kinds ∧ ∀ a ∈ args, a.IsCanonical := by
  induction kinds generalizing text args rest with
  | nil =>
    obtain ⟨rfl, -⟩ := Prod.mk.inj (Except.ok.inj h)
    exact ⟨rfl, nofun⟩
  | cons kind kinds ih =>
    obtain ⟨⟨a, mid⟩, ha, h⟩ := Outcome.bind_eq_ok_iff.1 h
    obtain ⟨⟨others, left⟩, hothers, h⟩ := Outcome.bind_eq_ok_iff.1 h
    obtain ⟨rfl, -⟩ := Prod.mk.inj (Except.ok.inj h)
    obtain ⟨hkind, hcanonical⟩ := isCanonical_of_readArgument ha
    obtain ⟨hkinds, hall⟩ := ih hothers
    exact ⟨by rw [List.map_cons, hkind, hkinds], List.forall_mem_cons.2 ⟨hcanonical, hall⟩⟩

/-- The segments that are read have the arguments that their commands ask for. -/
theorem isValid_of_readSegments {bound : ℕ} {previous : Option (Command × Bool)}
    {segments : List Segment} (h : readSegments total bound previous text = .ok segments) :
    ∀ s ∈ segments, s.IsValid := by
  induction bound generalizing previous text segments with
  | zero =>
    have hnil : segments = [] := by
      cases text <;> exact (Except.ok.inj h).symm
    rw [hnil]
    exact nofun
  | succ bound ih =>
    cases text with
    | nil =>
      rw [← Except.ok.inj h]
      exact nofun
    | cons c text =>
      obtain ⟨⟨⟨command, relative⟩, mid⟩, -, h⟩ := Outcome.bind_eq_ok_iff.1 h
      obtain ⟨⟨args, left⟩, hargs, h⟩ := Outcome.bind_eq_ok_iff.1 h
      obtain ⟨others, hothers, h⟩ := Outcome.bind_eq_ok_iff.1 h
      obtain rfl := Except.ok.inj h
      obtain ⟨hkinds, hcanonical⟩ := isCanonical_of_readArguments hargs
      exact List.forall_mem_cons.2 ⟨⟨hkinds, hcanonical⟩, ih hothers⟩

end Read

/-! ## Reading what is written -/

/-- What an argument is after it has been written and read. -/
def Argument.reread (places : ℕ) : Argument → Argument
  | .number x => .number (noted places x)
  | .flag b => .flag b

/-- What a command is after it has been written and read; a closepath has one letter only. -/
def rereadCommand (c : Command × Bool) : Command × Bool :=
  (c.1, c.2 || c.1 = .closePath)

/-- What a segment is after it has been written and read. -/
def Segment.reread (places : ℕ) (s : Segment) : Segment where
  command := s.command
  relative := s.relative || s.command = .closePath
  arguments := s.arguments.map (Argument.reread places)

section Written

variable {places : ℕ} {text : List Char} {more : List (List Char)}

/-- An argument is read from where it is written, up to the next piece. -/
theorem readArgument_format (total : ℕ) {a : Argument} (ha : a.IsCanonical)
    (hmore : ∀ p ∈ more, IsPiece p)
    (htext : skipSeparator text = join (formatArgument places a :: more)) :
    ∃ left, readArgument total a.kind text = .ok (a.reread places, left) ∧
      skipSeparator left = join more := by
  rw [join_cons] at htext
  refine ⟨after (formatArgument places a) more, ?_, skipSeparator_after hmore _⟩
  rcases a with x | _ | _
  · have hend := endsNumber_after hmore (formatNumber_ends places x).2
    have htake := take_formatNumber ha places hend
    refine Outcome.map_eq_ok_iff.2 ⟨(noted places x, _), ?_, rfl⟩
    unfold readNumber
    simp only
    rw [htext]
    simp only [formatArgument, htake, isFinite_noted, if_true]
  · refine Outcome.map_eq_ok_iff.2 ⟨(false, _), ?_, rfl⟩
    unfold readFlag
    rw [htext]
    rfl
  · refine Outcome.map_eq_ok_iff.2 ⟨(true, _), ?_, rfl⟩
    unfold readFlag
    rw [htext]
    rfl

theorem readArguments_format (total : ℕ) {args : List Argument}
    (hargs : ∀ a ∈ args, a.IsCanonical) (hmore : ∀ p ∈ more, IsPiece p)
    (htext : skipSeparator text = join (args.map (formatArgument places) ++ more)) :
    ∃ left, readArguments total (args.map Argument.kind) text =
        .ok (args.map (Argument.reread places), left) ∧ skipSeparator left = join more := by
  induction args generalizing text with
  | nil => exact ⟨text, rfl, htext⟩
  | cons a args ih =>
    have hpieces : ∀ p ∈ args.map (formatArgument places) ++ more, IsPiece p := fun _ =>
      isPiece_of_mem_arguments hmore
    obtain ⟨ha, hargs⟩ := List.forall_mem_cons.1 hargs
    obtain ⟨mid, hmid, hskip⟩ := readArgument_format total ha hpieces htext
    obtain ⟨left, hleft, hrest⟩ := ih hargs hskip
    refine ⟨left, ?_, hrest⟩
    exact Outcome.bind_eq_ok_iff.2 ⟨_, hmid, Outcome.bind_eq_ok_iff.2 ⟨_, hleft, rfl⟩⟩

/-- A letter that is written is read as its command. -/
theorem readCommand_letter (previous : Option (Command × Bool)) (command : Command)
    (relative : Bool) (rest : List Char) :
    readCommand previous (commandLetter command relative :: rest) =
      .ok (rereadCommand (command, relative), rest) := by
  cases command <;> cases relative <;> rfl

/-- A command whose letter is left out is the one that the reader supplies. -/
theorem impliedCommand_of_isImplied {previous : Option (Command × Bool)} {command : Command}
    {relative : Bool} (h : isImplied previous command relative = true) :
    impliedCommand (previous.map rereadCommand) = .ok (rereadCommand (command, relative)) ∧
      command.signature ≠ [] := by
  cases previous with
  | none => exact absurd h Bool.false_ne_true
  | some earlier =>
    obtain ⟨earlier, wasRelative⟩ := earlier
    simp only [isImplied, Bool.and_eq_true, Bool.or_eq_true, beq_iff_eq, bne_iff_ne] at h
    obtain ⟨rfl, ⟨rfl, rfl⟩ | ⟨⟨rfl, hmove⟩, hclose⟩⟩ := h
    · cases relative <;> exact ⟨rfl, by decide⟩
    · cases earlier
      case closePath => exact absurd rfl hclose
      case moveTo => exact absurd rfl hmove
      all_goals cases relative <;> exact ⟨rfl, by decide⟩

/-- A command without a letter is read from the one before it. -/
theorem readCommand_implied {previous : Option (Command × Bool)} {command : Command}
    {relative : Bool} (h : isImplied previous command relative = true) {c : Char}
    (hc : c.isAlpha = false) (rest : List Char) :
    readCommand (previous.map rereadCommand) (c :: rest) =
      .ok (rereadCommand (command, relative), c :: rest) := by
  rw [readCommand, hc, if_neg Bool.false_ne_true, (impliedCommand_of_isImplied h).1]
  rfl

/-- The first pieces of a segment, up to its arguments, are read as its command. -/
theorem readCommand_pieces (places : ℕ) {s : Segment} (hs : s.IsValid)
    (previous : Option (Command × Bool)) (segments : List Segment) :
    ∃ rest,
      readCommand (previous.map rereadCommand) (join (pieces places previous (s :: segments))) =
        .ok (rereadCommand (s.command, s.relative), rest) ∧
      skipSeparator rest = join (s.arguments.map (formatArgument places) ++
        pieces places (some (s.command, s.relative)) segments) := by
  generalize hmore : pieces places (some (s.command, s.relative)) segments = more
  have hpieces : ∀ p ∈ s.arguments.map (formatArgument places) ++ more, IsPiece p := fun _ =>
    isPiece_of_mem_arguments fun _ hp => isPiece_of_mem_pieces (hmore ▸ hp)
  rw [pieces, hmore, List.append_assoc]
  split
  case isFalse =>
    rw [List.singleton_append, join_cons]
    exact ⟨_, readCommand_letter _ _ _ _, skipSeparator_after hpieces _⟩
  case isTrue himplied =>
    rw [List.nil_append]
    refine ⟨_, ?_, skipSeparator_join hpieces⟩
    cases hargs : s.arguments with
    | nil =>
      have hkinds := hs.kinds
      rw [hargs] at hkinds
      exact absurd hkinds.symm (impliedCommand_of_isImplied himplied).2
    | cons a args =>
      obtain ⟨c, text, htext, hc⟩ := formatArgument_eq places a
      rw [List.map_cons, List.cons_append, join_cons, htext, List.cons_append]
      exact readCommand_implied himplied (isAlpha_eq_false_of_isNumeric hc) _

theorem length_pieces_lt {s : Segment} (hs : s.IsValid) (previous : Option (Command × Bool))
    (segments : List Segment) :
    (pieces places (some (s.command, s.relative)) segments).length <
      (pieces places previous (s :: segments)).length := by
  rw [pieces, List.length_append, List.length_append, List.length_map]
  split
  case isFalse =>
    rw [List.length_singleton]
    omega
  case isTrue himplied =>
    have hkinds := hs.kinds ▸ (impliedCommand_of_isImplied himplied).2
    have hargs : s.arguments.length ≠ 0 := by simpa using hkinds
    omega

theorem length_le_length_pieces {segments : List Segment} (hs : ∀ s ∈ segments, s.IsValid)
    (previous : Option (Command × Bool)) :
    segments.length ≤ (pieces places previous segments).length := by
  induction segments generalizing previous with
  | nil => exact Nat.zero_le _
  | cons s segments ih =>
    obtain ⟨hs, hsegments⟩ := List.forall_mem_cons.1 hs
    have hrest := ih hsegments (some (s.command, s.relative))
    have hfirst : (pieces places (some (s.command, s.relative)) segments).length < _ :=
      length_pieces_lt hs previous segments
    rw [List.length_cons]
    omega

/-- Written segments are read one by one; the command that the reader has read last is the one that
was written last. -/
theorem readSegments_pieces (total : ℕ) {segments : List Segment}
    (hs : ∀ s ∈ segments, s.IsValid) (previous : Option (Command × Bool)) {bound : ℕ}
    (hb : segments.length ≤ bound) :
    readSegments total bound (previous.map rereadCommand) (join (pieces places previous segments)) =
      .ok (segments.map (Segment.reread places)) := by
  induction segments generalizing previous bound with
  | nil => cases bound <;> rfl
  | cons s segments ih =>
    obtain ⟨hfirst, hsegments⟩ := List.forall_mem_cons.1 hs
    obtain ⟨mid, hcommand, hmid⟩ := readCommand_pieces places hfirst previous segments
    obtain ⟨left, hargs, hleft⟩ := readArguments_format total hfirst.canonical
      (fun p => isPiece_of_mem_pieces) hmid
    rw [hfirst.kinds] at hargs
    cases bound with
    | zero => exact absurd hb (by simp)
    | succ bound =>
      have hrest := ih hsegments (some (s.command, s.relative)) (Nat.le_of_succ_le_succ hb)
      rw [← hleft] at hrest
      have hne : 0 < (join (pieces places previous (s :: segments))).length :=
        calc 0
          _ < (s :: segments).length := Nat.succ_pos _
          _ ≤ (pieces places previous (s :: segments)).length := length_le_length_pieces hs previous
          _ ≤ _ := length_le_length_join fun p => isPiece_of_mem_pieces
      cases hjoin : join (pieces places previous (s :: segments)) with
      | nil => exact absurd hne (by simp [hjoin])
      | cons c text =>
        rw [hjoin] at hcommand
        exact Outcome.bind_eq_ok_iff.2 ⟨_, hcommand, Outcome.bind_eq_ok_iff.2
          ⟨_, hargs, Outcome.bind_eq_ok_iff.2 ⟨_, hrest, rfl⟩⟩⟩

end Written

/-- Valid segments that are written are read as they are, but for the rounding. -/
theorem parse_print {segments : List Segment} (hs : ∀ s ∈ segments, s.IsValid) (places : ℕ) :
    parse (print places segments) = .ok (segments.map (Segment.reread places)) := by
  have hpieces : ∀ p ∈ pieces places none segments, IsPiece p := fun p => isPiece_of_mem_pieces
  have hlength := (length_le_length_pieces hs none).trans (length_le_length_join hpieces)
  unfold parse print
  simp only [String.toList_ofList, skipSpace_join hpieces]
  exact readSegments_pieces _ hs none hlength

/-! ## What is read -/

/-- An argument and what it has become: a flag is kept, a number is the rounded one, and that is the
number that its notation denotes. -/
inductive Argument.ReadsAs (places : ℕ) : Argument → Argument → Prop where
  | flag (b : Bool) : ReadsAs places (.flag b) (.flag b)
  | number {x y : Binary64} :
    ofString? (String.ofList (formatNumber places x)) = some y → y = noted places x →
      ReadsAs places (.number x) (.number y)

/-- A segment and what it has become: the same letter, and argument by argument the same. -/
structure Segment.ReadsAs (places : ℕ) (s s' : Segment) : Prop where
  command : s'.command = s.command
  relative : s'.relative = (s.relative || s.command = .closePath)
  arguments : List.Forall₂ (Argument.ReadsAs places) s.arguments s'.arguments

theorem Argument.readsAs_reread {places : ℕ} {a : Argument} (ha : a.IsCanonical) :
    a.ReadsAs places (a.reread places) := by
  cases a with
  | number x => exact .number (ofString?_formatNumber ha places) rfl
  | flag b => exact .flag b

theorem Segment.readsAs_reread {places : ℕ} {s : Segment} (hs : s.IsValid) :
    s.ReadsAs places (s.reread places) where
  command := rfl
  relative := rfl
  arguments := List.forall₂_map_right_iff.2
    (List.forall₂_same.2 fun a ha => Argument.readsAs_reread (hs.canonical a ha))

/-- Path data that has been read is written so that it is read as the same path: as many segments in
the same order, each with its letter, its flags and its numbers as they are written. -/
theorem parse_print_of_parse {data : String} {segments : List Segment}
    (h : parse data = .ok segments) (places : ℕ) :
    ∃ again, parse (print places segments) = .ok again ∧
      List.Forall₂ (Segment.ReadsAs places) segments again := by
  have hvalid := isValid_of_readSegments h
  refine ⟨_, parse_print hvalid places, List.forall₂_map_right_iff.2 ?_⟩
  exact List.forall₂_same.2 fun s hs => Segment.readsAs_reread (hvalid s hs)

/-- The segments of `M.5-.25a5,5 0 01 1 1.0004Zl2-1e-9`. -/
def closedArc : List Segment :=
  [⟨.moveTo, false, [.number (ofDecimal false ⟨5, -1⟩), .number (ofDecimal true ⟨25, -2⟩)]⟩,
    ⟨.arc, true,
      [.number (ofDecimal false ⟨5, 0⟩), .number (ofDecimal false ⟨5, 0⟩),
        .number (ofDecimal false ⟨0, 0⟩), .flag false, .flag true,
        .number (ofDecimal false ⟨1, 0⟩), .number (ofDecimal false ⟨10004, -4⟩)]⟩,
    ⟨.closePath, false, []⟩,
    ⟨.lineTo, true, [.number (ofDecimal false ⟨2, 0⟩), .number (ofDecimal true ⟨1, -9⟩)]⟩]

/-- An arc with its flags run together, a closed path, a line after it and numbers with too many
places are written in the form of the writer, and this is read as the same segments, rounded. -/
theorem parse_print_of_parse_closedArc :
    parse "M.5-.25a5,5 0 01 1 1.0004Zl2-1e-9" = .ok closedArc ∧
      print 3 closedArc = "M.5-.25a5 5 0 0 1 1 1zl2 0" ∧
        ∃ again, parse (print 3 closedArc) = .ok again ∧
          List.Forall₂ (Segment.ReadsAs 3) closedArc again := by
  have h : parse "M.5-.25a5,5 0 01 1 1.0004Zl2-1e-9" = .ok closedArc :=
    Outcome.eq_ok_of_toOption (by decide +kernel)
  have hprint : print 3 closedArc = "M.5-.25a5 5 0 0 1 1 1zl2 0" := by decide +kernel
  exact ⟨h, hprint, parse_print_of_parse h 3⟩

end SvgPress.Path
