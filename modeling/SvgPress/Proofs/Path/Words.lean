import SvgPress.Proofs.Path.Consuming

/-!
# The words of path data

Path data spells its arguments as words, with command letters and separators between them. The words
are found by reading the data: they spell the arguments of the segments that are read, in their
order, and their texts stand in the data one after the other.
-/

namespace SvgPress.Path

open Text Binary64

/-! ## Words -/

/-- An argument as path data spells it. -/
structure Word where
  /-- Whether another argument ends right where the text begins. -/
  adjacent : Bool
  /-- The text of the argument. -/
  text : List Char
  /-- What is read from the text. -/
  argument : Argument

/-- The words of the arguments of a command; an argument may end right before the text. -/
def argumentWords (total : ℕ) : (adjacent : Bool) → List ArgumentKind → List Char → List Word
  | _, [], _ => []
  | adjacent, kind :: kinds, cs =>
    match readArgument total kind cs with
    | .error _ => []
    | .ok (argument, rest) =>
      let start := skipSeparator cs
      ⟨adjacent && start.length == cs.length, start.take (start.length - rest.length), argument⟩ ::
        argumentWords total true kinds rest

/-- The words of at most `bound` segments; an argument may end right before the text. -/
def segmentWords (total : ℕ) :
    (bound : ℕ) → (adjacent : Bool) → (previous : Option (Command × Bool)) → List Char → List Word
  | _, _, _, [] => []
  | 0, _, _, _ :: _ => []
  | bound + 1, adjacent, previous, cs =>
    match readCommand previous cs with
    | .error _ => []
    | .ok ((command, relative), start) =>
      match readArguments total command.signature start with
      | .error _ => []
      | .ok (_, rest) =>
        argumentWords total (adjacent && start.length == cs.length) command.signature start ++
          segmentWords total bound
            (!command.signature.isEmpty && (skipSeparator rest).length == rest.length)
            (some (command, relative)) (skipSeparator rest)

/-- The words of path data. -/
def words (data : String) : List Word :=
  let cs := data.toList
  segmentWords cs.length cs.length false none (skipSpace cs)

/-! ## What words are read as -/

/-- What an argument is read from. -/
inductive IsSpelled : List Char → Argument → Prop where
  | flag (b : Bool) : IsSpelled [if b then '1' else '0'] (.flag b)
  | number (n : Numeral) : IsSpelled n.text (.number n.value)

/-- Words that spell arguments, one after the other within a text. -/
structure Spelling (ws : List Word) (args : List Argument) (text : List Char) : Prop where
  arguments : ws.map Word.argument = args
  spelled : ∀ w ∈ ws, IsSpelled w.text w.argument
  sublist : (ws.flatMap Word.text).Sublist text

section Read

variable {total : ℕ} {text cs rest : List Char} {a : Argument} {kind : ArgumentKind}

theorem Spelling.nil (text : List Char) : Spelling [] [] text :=
  ⟨rfl, nofun, List.nil_sublist _⟩

/-- Words of two texts, one behind the other, spell the arguments of both. -/
theorem Spelling.append {ws ws' : List Word} {args args' : List Argument} {text' : List Char}
    (h : Spelling ws args text) (h' : Spelling ws' args' text') :
    Spelling (ws ++ ws') (args ++ args') (text ++ text') where
  arguments := by rw [List.map_append, h.arguments, h'.arguments]
  spelled := fun w hw => (List.mem_append.1 hw).elim (h.spelled w) (h'.spelled w)
  sublist := by
    rw [List.flatMap_append]
    exact h.sublist.append h'.sublist

/-- What words spell in a part of a text they spell in the text. -/
theorem Spelling.mono {ws : List Word} {args : List Argument} {text' : List Char}
    (h : Spelling ws args text) (hsub : text.Sublist text') : Spelling ws args text' :=
  ⟨h.arguments, h.spelled, h.sublist.trans hsub⟩

/-- Reading an argument takes a text that spells it, behind the separator. -/
theorem exists_text_of_readArgument (h : readArgument total kind cs = .ok (a, rest)) :
    ∃ text, skipSeparator cs = text ++ rest ∧ IsSpelled text a := by
  cases kind with
  | number =>
    obtain ⟨⟨x, left⟩, hx, heq⟩ := Outcome.map_eq_ok_iff.1 h
    obtain ⟨rfl, rfl⟩ := Prod.mk.inj heq
    obtain ⟨n, hn, rfl⟩ := exists_numeral_of_take (readNumber_eq_ok hx)
    exact ⟨n.text, hn, .number n⟩
  | flag =>
    obtain ⟨⟨b, left⟩, hb, heq⟩ := Outcome.map_eq_ok_iff.1 h
    obtain ⟨rfl, rfl⟩ := Prod.mk.inj heq
    exact ⟨[if b then '1' else '0'], readFlag_eq_ok hb, .flag b⟩

theorem skipSeparator_suffix (cs : List Char) : skipSeparator cs <:+ cs := by
  have hspace : ∀ cs, skipSpace cs <:+ cs := fun _ => List.dropWhile_suffix _
  unfold skipSeparator
  split
  case h_1 rest hcomma =>
    exact ((hspace rest).trans (List.suffix_cons _ _)).trans (hcomma ▸ hspace cs)
  case h_2 => exact hspace cs

/-- The first word is the text that reading the first argument takes. -/
theorem argumentWords_cons {text : List Char} (h : readArgument total kind cs = .ok (a, rest))
    (htext : skipSeparator cs = text ++ rest) (adjacent : Bool) (kinds : List ArgumentKind) :
    argumentWords total adjacent (kind :: kinds) cs =
      ⟨adjacent && (skipSeparator cs).length == cs.length, text, a⟩ ::
        argumentWords total true kinds rest := by
  have hcut : (text ++ rest).take ((text ++ rest).length - rest.length) = text := by
    rw [List.length_append, Nat.add_sub_cancel, List.take_left]
  rw [argumentWords, h]
  simp only [htext, hcut]

theorem segmentWords_cons {bound : ℕ} {previous : Option (Command × Bool)} {command : Command}
    {relative : Bool} {c : Char} {start : List Char} {args : List Argument}
    (h : readCommand previous (c :: cs) = .ok ((command, relative), start))
    (hargs : readArguments total command.signature start = .ok (args, rest)) (adjacent : Bool) :
    segmentWords total (bound + 1) adjacent previous (c :: cs) =
      argumentWords total (adjacent && start.length == (c :: cs).length) command.signature start ++
        segmentWords total bound
          (!command.signature.isEmpty && (skipSeparator rest).length == rest.length)
          (some (command, relative)) (skipSeparator rest) := by
  rw [segmentWords]
  · simp only [h, hargs]
  · exact List.cons_ne_nil c cs

/-- The words of some arguments spell them, within what reading the arguments takes. -/
theorem spelling_argumentWords {kinds : List ArgumentKind} {args : List Argument}
    (h : readArguments total kinds cs = .ok (args, rest)) (adjacent : Bool) :
    ∃ front, cs = front ++ rest ∧ Spelling (argumentWords total adjacent kinds cs) args front := by
  induction kinds generalizing cs args rest adjacent with
  | nil =>
    obtain ⟨rfl, rfl⟩ := Prod.mk.inj (Except.ok.inj h)
    exact ⟨[], rfl, .nil []⟩
  | cons kind kinds ih =>
    obtain ⟨⟨a, mid⟩, ha, h⟩ := Outcome.bind_eq_ok_iff.1 h
    obtain ⟨⟨others, left⟩, hothers, h⟩ := Outcome.bind_eq_ok_iff.1 h
    obtain ⟨rfl, rfl⟩ := Prod.mk.inj (Except.ok.inj h)
    obtain ⟨text, htext, hspelled⟩ := exists_text_of_readArgument ha
    obtain ⟨front, rfl, hfront⟩ := ih hothers true
    obtain ⟨gap, hgap⟩ := skipSeparator_suffix cs
    refine ⟨gap ++ text ++ front, by rw [← hgap, htext]; simp, ?_⟩
    rw [argumentWords_cons ha htext, ← List.singleton_append, ← List.singleton_append (x := a)]
    refine Spelling.append ⟨rfl, by simpa using hspelled, ?_⟩ hfront
    simp

/-- The words of segments spell the arguments of the segments that are read; separators and command
letters stand between them. -/
theorem spelling_segmentWords {bound : ℕ} {previous : Option (Command × Bool)}
    {segments : List Segment} (h : readSegments total bound previous cs = .ok segments)
    (adjacent : Bool) :
    Spelling (segmentWords total bound adjacent previous cs)
      (segments.flatMap Segment.arguments) cs := by
  induction bound generalizing previous cs segments adjacent with
  | zero =>
    have hnil : segments = [] := by
      cases cs <;> exact (Except.ok.inj h).symm
    rw [hnil]
    cases cs <;> exact .nil _
  | succ bound ih =>
    cases cs with
    | nil =>
      rw [← Except.ok.inj h]
      exact .nil _
    | cons c cs =>
      obtain ⟨⟨⟨command, relative⟩, mid⟩, hcommand, h⟩ := Outcome.bind_eq_ok_iff.1 h
      obtain ⟨⟨args, left⟩, hargs, h⟩ := Outcome.bind_eq_ok_iff.1 h
      obtain ⟨others, hothers, h⟩ := Outcome.bind_eq_ok_iff.1 h
      obtain rfl := Except.ok.inj h
      rw [segmentWords_cons hcommand hargs]
      obtain ⟨front, rfl, hfront⟩ := spelling_argumentWords hargs
        (adjacent && mid.length == (c :: cs).length)
      have hleft : (front ++ skipSeparator left).Sublist (front ++ left) :=
        (List.Sublist.refl front).append (skipSeparator_suffix left).sublist
      refine (hfront.append (ih hothers _)).mono (hleft.trans ?_)
      rcases readCommand_eq_ok hcommand with ⟨-, -, hmid⟩ | ⟨-, hmid⟩
      · rw [hmid]
        exact List.sublist_cons_self c cs
      · rw [hmid]

end Read

end SvgPress.Path
