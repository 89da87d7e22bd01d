import Mathlib.Logic.Relation
import SvgPress.Proofs.Cutting
import SvgPress.Proofs.Path.Consuming

/-!
# The run of the reader of path data

The reader is told step by step: at the top of its loop it looks for a command, then it reads the
arguments of the command one by one, then it closes the segment. No number of rounds is set
beforehand here. Every step goes on over ASCII characters only, so wherever the reader comes to, the
bytes in front of it are as many as the characters, and a text is cut there between two characters.
-/

namespace SvgPress.Path

open Text Binary64 Relation

/-! ## The machine -/

/-- One round of the loop: the text that it finds, the segment that it reads and the text that it
leaves. -/
structure Round where
  /-- The text at the start of the round. -/
  start : List Char
  /-- What is read. -/
  segment : Segment
  /-- The text at the end of the round, after the separator. -/
  rest : List Char

/-- The command of a segment, as the next round remembers it. -/
def Round.command (r : Round) : Command × Bool :=
  (r.segment.command, r.segment.relative)

/-- How far the reader has come. -/
inductive Stage where
  /-- At the top of the loop. -/
  | top (done : List Round) (text : List Char)
  /-- In a round that began at `start`, with some arguments read and some missing. -/
  | within (done : List Round) (start : List Char) (command : Command × Bool)
    (read : List Argument) (missing : List ArgumentKind) (text : List Char)

namespace Stage

/-- The text that is left. -/
def text : Stage → List Char
  | top _ text | within _ _ _ _ _ text => text

/-- The rounds that are done. -/
def done : Stage → List Round
  | top done _ | within done _ _ _ _ _ => done

end Stage

/-- The command of the last round. -/
def latest (done : List Round) : Option (Command × Bool) :=
  done.getLast?.map Round.command

theorem latest_concat (done : List Round) (r : Round) :
    latest (done ++ [r]) = some r.command := by
  rw [latest, List.getLast?_concat, Option.map_some]

/-- What the reader does next, on data of `total` characters. -/
inductive Step (total : ℕ) : Stage → Stage → Prop where
  | command {done : List Round} {c : Char} {cs rest : List Char} {command : Command × Bool}
      (h : readCommand (latest done) (c :: cs) = .ok (command, rest)) :
      Step total (.top done (c :: cs))
        (.within done (c :: cs) command [] command.1.signature rest)
  | argument {done : List Round} {start cs rest : List Char} {command : Command × Bool}
      {read : List Argument} {kind : ArgumentKind} {missing : List ArgumentKind} {a : Argument}
      (h : readArgument total kind cs = .ok (a, rest)) :
      Step total (.within done start command read (kind :: missing) cs)
        (.within done start command (read ++ [a]) missing rest)
  | segment {done : List Round} {start cs : List Char} {command : Command × Bool}
      {read : List Argument} :
      Step total (.within done start command read [] cs)
        (.top (done ++ [⟨start, ⟨command.1, command.2, read⟩, skipSeparator cs⟩])
          (skipSeparator cs))

/-- The reader stops, with the segments or with an error. -/
inductive Ends (total : ℕ) : Stage → Except PathError (List Segment) → Prop where
  | finished {done : List Round} : Ends total (.top done []) (.ok (done.map Round.segment))
  | command {done : List Round} {c : Char} {cs : List Char} {e : PathError}
      (h : readCommand (latest done) (c :: cs) = .error e) :
      Ends total (.top done (c :: cs)) (.error e)
  | argument {done : List Round} {start cs : List Char} {command : Command × Bool}
      {read : List Argument} {kind : ArgumentKind} {missing : List ArgumentKind} {e : PathError}
      (h : readArgument total kind cs = .error e) :
      Ends total (.within done start command read (kind :: missing) cs) (.error e)

/-- Where the reader begins. -/
def Stage.initial (data : String) : Stage :=
  .top [] (skipSpace data.toList)

/-- The reader comes to this stage when it reads the data. -/
def Reached (data : String) (stage : Stage) : Prop :=
  ReflTransGen (Step data.length) (.initial data) stage

section Run

variable {total : ℕ} {stage stage' stage'' : Stage}

/-- There is one thing to do at most. -/
theorem Step.unique (h : Step total stage stage') (h' : Step total stage stage'') :
    stage' = stage'' := by
  cases h with
  | command hread =>
    cases h' with
    | command hread' =>
      obtain ⟨rfl, rfl⟩ := Prod.mk.inj (Except.ok.inj (hread.symm.trans hread'))
      rfl
  | argument hread =>
    cases h' with
    | argument hread' =>
      obtain ⟨rfl, rfl⟩ := Prod.mk.inj (Except.ok.inj (hread.symm.trans hread'))
      rfl
  | segment =>
    cases h' with
    | segment => rfl

theorem Ends.not_step {outcome : Except PathError (List Segment)}
    (h : Ends total stage outcome) : ¬ Step total stage stage' := by
  intro hstep
  cases h with
  | finished => cases hstep
  | command herror =>
    cases hstep with
    | command hread => exact absurd (herror.symm.trans hread) (by simp)
  | argument herror =>
    cases hstep with
    | argument hread => exact absurd (herror.symm.trans hread) (by simp)

/-- Wherever the reader comes to, it goes on from there to where it ends. -/
theorem exists_last_of_reached {start last : Stage} {outcome : Except PathError (List Segment)}
    (hlast : ReflTransGen (Step total) start last) (hends : Ends total last outcome)
    (h : ReflTransGen (Step total) start stage) : ReflTransGen (Step total) stage last := by
  have hunique : Relator.RightUnique (Step total) := fun _ _ _ => Step.unique
  rcases ReflTransGen.total_of_right_unique hunique hlast h with hbeyond | hbefore
  · rcases hbeyond.cases_head with rfl | ⟨next, hnext, -⟩
    · exact .refl
    · exact absurd hnext hends.not_step
  · exact hbefore

/-- The arguments of a command are read one by one. -/
theorem run_readArguments (done : List Round) (start : List Char) (command : Command × Bool)
    (kinds : List ArgumentKind) (read : List Argument) (cs : List Char) :
    (∃ args rest, readArguments total kinds cs = .ok (args, rest) ∧
        ReflTransGen (Step total) (.within done start command read kinds cs)
          (.within done start command (read ++ args) [] rest)) ∨
      ∃ e last, readArguments total kinds cs = .error e ∧
        ReflTransGen (Step total) (.within done start command read kinds cs) last ∧
          Ends total last (.error e) := by
  induction kinds generalizing read cs with
  | nil => exact .inl ⟨[], cs, rfl, by rw [List.append_nil]⟩
  | cons kind kinds ih =>
    cases hread : readArgument total kind cs with
    | error e =>
      refine .inr ⟨e, _, ?_, .refl, .argument hread⟩
      rw [readArguments, hread]
      rfl
    | ok found =>
      obtain ⟨a, mid⟩ := found
      have hstep : Step total (.within done start command read (kind :: kinds) cs)
          (.within done start command (read ++ [a]) kinds mid) := .argument hread
      rcases ih (read ++ [a]) mid with ⟨args, rest, hargs, hrun⟩ | ⟨e, last, hargs, hrun, hends⟩
      · refine .inl ⟨a :: args, rest, ?_, ?_⟩
        · rw [readArguments, hread]
          simp only [bind, Except.bind, hargs]
          rfl
        · rw [List.append_assoc] at hrun
          exact .head hstep hrun
      · refine .inr ⟨e, last, ?_, .head hstep hrun, hends⟩
        rw [readArguments, hread]
        simp only [bind, Except.bind, hargs]

/-- The loop of the reader, whatever number of rounds it is allowed: each round takes a character
off, so as many rounds as there are characters are enough. -/
theorem run_readSegments (done : List Round) {bound : ℕ} {cs : List Char}
    (hb : cs.length ≤ bound) :
    ∃ last, ReflTransGen (Step total) (.top done cs) last ∧
      Ends total last ((readSegments total bound (latest done) cs).map
        (done.map Round.segment ++ ·)) := by
  induction bound generalizing done cs with
  | zero =>
    have hfinished : Ends total (.top done []) (.ok (done.map Round.segment)) := .finished
    obtain rfl := List.eq_nil_of_length_eq_zero (Nat.le_zero.1 hb)
    refine ⟨_, .refl, ?_⟩
    simpa [readSegments, Except.map] using hfinished
  | succ bound ih =>
    cases cs with
    | nil =>
      have hfinished : Ends total (.top done []) (.ok (done.map Round.segment)) := .finished
      refine ⟨_, .refl, ?_⟩
      simpa [readSegments, Except.map] using hfinished
    | cons c cs =>
      cases hread : readCommand (latest done) (c :: cs) with
      | error e =>
        rw [readSegments_eq_error (.inl hread)]
        exact ⟨_, .refl, .command hread⟩
      | ok found =>
        obtain ⟨command, mid⟩ := found
        have hcommand : Step total (.top done (c :: cs))
            (.within done (c :: cs) command [] command.1.signature mid) := .command hread
        rcases run_readArguments done (c :: cs) command command.1.signature [] mid with
          ⟨args, rest, hargs, hrun⟩ | ⟨e, last, hargs, hrun, hends⟩
        · let r : Round := ⟨c :: cs, ⟨command.1, command.2, args⟩, skipSeparator rest⟩
          have hround : ReflTransGen (Step total) (.top done (c :: cs))
              (.top (done ++ [r]) (skipSeparator rest)) := (hrun.head hcommand).tail .segment
          have hb' : (skipSeparator rest).length ≤ bound := by
            have hshorter := (consumes_round hread hargs).lt
            omega
          obtain ⟨last, hloop, hends⟩ := ih (done ++ [r]) hb'
          refine ⟨last, hround.trans hloop, ?_⟩
          rw [readSegments_cons hread hargs]
          rw [latest_concat, Round.command] at hends
          cases hrest : readSegments total bound (some command) (skipSeparator rest) with
          | error e => simpa [r, hrest, Except.map] using hends
          | ok others => simpa [r, hrest, Except.map] using hends
        · rw [readSegments_eq_error (.inr ⟨command, mid, hread, hargs⟩)]
          exact ⟨last, hrun.head hcommand, hends⟩

/-- The reader stops with what it makes of the data. -/
theorem exists_last_parse (data : String) :
    ∃ last, Reached data last ∧ Ends data.length last (parse data) := by
  have hbound : (skipSpace data.toList).length ≤ data.length :=
    (passes_skipSpace data.toList).length_le
  have hmap : ∀ outcome : Except PathError (List Segment),
      outcome.map (([] : List Round).map Round.segment ++ ·) = outcome := by
    intro outcome
    cases outcome <;> rfl
  obtain ⟨last, hlast, hends⟩ := run_readSegments [] hbound
  rw [hmap] at hends
  refine ⟨last, hlast, ?_⟩
  rw [parse, String.length_toList]
  exact hends

end Run

/-! ## What holds on the way -/

/-- The reader may stand in front of this text: what is in front of the text is ASCII, so it has as
many bytes as characters, and the data may be cut there. -/
structure Stands (data : String) (cs : List Char) : Prop where
  passes : Passes data.toList cs
  bytes : data.utf8ByteSize = (data.length - cs.length) + (String.ofList cs).utf8ByteSize
  valid : (String.Pos.Raw.mk (data.length - cs.length)).IsValid data

theorem utf8ByteSize_ofList_of_ascii {cs : List Char} (h : ∀ c ∈ cs, c.val ≤ 127) :
    (String.ofList cs).utf8ByteSize = cs.length := by
  rw [← byteLength_toList, String.toList_ofList,
    byteLength_eq_length fun c hc => Char.utf8Size_eq_one_iff.2 (h c hc)]

theorem Stands.of_passes {data : String} {cs : List Char} (h : Passes data.toList cs) :
    Stands data cs := by
  obtain ⟨passed, hdata, hascii⟩ := h
  have hsplit : data = String.ofList passed ++ String.ofList cs := by
    rw [← String.ofList_append, ← hdata, String.ofList_toList]
  have hbytes := utf8ByteSize_ofList_of_ascii hascii
  have hlength : data.length - cs.length = passed.length := by
    rw [← String.length_toList, hdata, List.length_append, Nat.add_sub_cancel]
  refine ⟨⟨passed, hdata, hascii⟩, ?_, ?_⟩
  · rw [hlength, ← hbytes, ← String.utf8ByteSize_append, ← hsplit]
  · rw [hlength, ← hbytes]
    exact String.Pos.Raw.isValid_iff_exists_append.2 ⟨_, _, hsplit, rfl⟩

namespace Round

/-- The round has taken a character off, and the arguments that it has read fit the command. -/
structure IsSound (data : String) (r : Round) : Prop where
  start : Passes data.toList r.start
  consumes : Consumes r.start r.rest
  kinds : r.segment.arguments.map Argument.kind = r.segment.command.signature
  finite : ∀ x, Argument.number x ∈ r.segment.arguments → x.isFinite = true

/-- The command letter stands at the start of the round. -/
def IsLettered (r : Round) : Prop :=
  BeginsWith r.start r.command

/-- The second round begins where the first one ends, and after a closepath it has its letter. -/
def Follows (r r' : Round) : Prop :=
  r'.start = r.rest ∧ (r.segment.command = .closePath → r'.IsLettered)

end Round

/-- Rounds that the reader has done, with the text that they have left. -/
structure Rounds (data : String) (done : List Round) (text : List Char) : Prop where
  sound : ∀ r ∈ done, r.IsSound data
  first : ∀ r ∈ done.head?, r.start = skipSpace data.toList ∧ r.IsLettered
  chain : done.IsChain Round.Follows
  none : done = [] → text = skipSpace data.toList
  last : ∀ r ∈ done.getLast?, text = r.rest

/-- A round under way: what has been read and what is missing make up the arguments of the command,
and if nothing has been taken off the text then something is missing. -/
structure Opened (done : List Round) (start : List Char) (command : Command × Bool)
    (read : List Argument) (missing : List ArgumentKind) (text : List Char) : Prop where
  lettered : (∀ earlier, latest done = some earlier → earlier.1 = .closePath) →
    BeginsWith start command
  kinds : read.map Argument.kind ++ missing = command.1.signature
  finite : ∀ x, Argument.number x ∈ read → x.isFinite = true
  passes : Passes start text
  owes : text.length < start.length ∨ missing ≠ []

/-- What holds at every stage. -/
def Stage.Sound (data : String) : Stage → Prop
  | .top done text => Rounds data done text
  | .within done start command read missing text =>
    Rounds data done start ∧ Opened done start command read missing text

section Invariant

variable {data : String} {done : List Round} {text start : List Char} {stage stage' : Stage}

theorem Rounds.passes (h : Rounds data done text) : Passes data.toList text := by
  cases hlast : done.getLast? with
  | none =>
    rw [h.none (List.getLast?_eq_none_iff.1 hlast)]
    exact passes_skipSpace _
  | some r =>
    have hr := h.sound r (List.mem_of_getLast? hlast)
    rw [h.last r hlast]
    exact hr.start.trans hr.consumes.passes

/-- A round that is closed joins the rounds that are done. -/
theorem Rounds.concat {command : Command × Bool} {read : List Argument}
    (h : Rounds data done start) (hround : Opened done start command read [] text) :
    Rounds data (done ++ [⟨start, ⟨command.1, command.2, read⟩, skipSeparator text⟩])
      (skipSeparator text) := by
  have hconsumes : Consumes start (skipSeparator text) :=
    Consumes.trans_passes ⟨hround.passes, hround.owes.resolve_right fun h => h rfl⟩
      (passes_skipSeparator text)
  have hkinds : read.map Argument.kind = command.1.signature := by
    simpa using hround.kinds
  refine ⟨?_, ?_, ?_, fun hnil => absurd hnil (by simp), fun r hr => ?_⟩
  · intro r hr
    rcases List.mem_append.1 hr with hr | hr
    · exact h.sound r hr
    · rw [List.mem_singleton.1 hr]
      exact ⟨h.passes, hconsumes, hkinds, hround.finite⟩
  · intro r hr
    cases done with
    | nil =>
      obtain rfl := Option.some.inj hr
      exact ⟨h.none rfl, hround.lettered nofun⟩
    | cons first others => exact h.first r hr
  · refine List.isChain_append.2 ⟨h.chain, List.isChain_singleton _, fun r hr r' hr' => ?_⟩
    obtain rfl := Option.some.inj hr'
    refine ⟨h.last r hr, fun hclose => hround.lettered fun earlier hearlier => ?_⟩
    rw [latest, Option.mem_def.1 hr] at hearlier
    obtain rfl := Option.some.inj hearlier
    exact hclose
  · rw [List.getLast?_concat] at hr
    obtain rfl := Option.some.inj hr
    rfl

theorem Step.sound (h : Step data.length stage stage') (hs : stage.Sound data) :
    stage'.Sound data := by
  cases h with
  | @command done c cs rest command hread =>
    refine ⟨hs, ?_⟩
    rcases readCommand_eq_ok hread with ⟨hletter, hascii, rfl⟩ | ⟨himplied, rfl⟩
    · have hrest := consumes_cons hascii rest
      exact ⟨fun _ => hletter, rfl, nofun, hrest.passes, .inl hrest.lt⟩
    · obtain ⟨⟨earlier, hlatest, hearlier⟩, hcommand⟩ := impliedCommand_eq_ok himplied
      exact ⟨fun hclose => absurd (hclose earlier hlatest) hearlier, rfl, nofun, .refl _,
        .inr (signature_eq_nil_iff.not.2 hcommand)⟩
  | @argument done start cs rest command read kind missing a hread =>
    obtain ⟨hdone, hround⟩ := hs
    have hconsumes := consumes_readArgument hread
    refine ⟨hdone, hround.lettered, ?_, fun x hx => ?_, hround.passes.trans hconsumes.passes,
      .inl (hround.passes.trans_consumes hconsumes).lt⟩
    · rw [← hround.kinds, List.map_append, List.append_assoc, List.map_singleton,
        (isCanonical_of_readArgument hread).1]
      rfl
    · rcases List.mem_append.1 hx with hx | hx
      · exact hround.finite x hx
      · rw [← List.mem_singleton.1 hx] at hread
        exact isFinite_of_readArgument hread
  | segment => exact hs.1.concat hs.2

theorem Reached.sound (h : Reached data stage) : stage.Sound data := by
  induction h with
  | refl => exact ⟨nofun, nofun, .nil, fun _ => rfl, nofun⟩
  | tail _ hstep ih => exact hstep.sound ih

theorem Stage.Sound.rounds (h : stage.Sound data) : ∀ r ∈ stage.done, r.IsSound data := by
  cases stage with
  | top done text => exact Rounds.sound h
  | within => exact h.1.sound

theorem Stage.Sound.passes (h : stage.Sound data) : Passes data.toList stage.text := by
  cases stage with
  | top done text => exact Rounds.passes h
  | within => exact h.1.passes.trans h.2.passes

end Invariant

/-! ## The reader is safe -/

/-- The third and the fourth argument of an arc, counted from none, are its flags. -/
theorem exists_flags_of_kinds {s : Segment}
    (h : s.arguments.map Argument.kind = s.command.signature) (harc : s.command = .arc) :
    ∃ b b', s.arguments[3]? = some (.flag b) ∧ s.arguments[4]? = some (.flag b') := by
  have hflag : ∀ {i : ℕ}, s.command.signature[i]? = some .flag →
      ∃ b, s.arguments[i]? = some (.flag b) := by
    intro i hi
    rw [← h, List.getElem?_map] at hi
    obtain ⟨a, ha, hkind⟩ := Option.map_eq_some_iff.1 hi
    cases a with
    | number x => exact absurd hkind (by simp [Argument.kind])
    | flag b => exact ⟨b, ha⟩
  obtain ⟨b, hb⟩ := hflag (i := 3) (by rw [harc]; rfl)
  obtain ⟨b', hb'⟩ := hflag (i := 4) (by rw [harc]; rfl)
  exact ⟨b, b', hb, hb'⟩

/-- Whatever the text is, the reader ends, with segments or with an error of path data. Wherever it
comes to on its way, all that is in front of it is ASCII, and so is a number that it takes off, so
that the text is cut between characters; each number, each flag and each round takes a character
off. The segments that it ends with have the arguments of their commands, with flags where an arc
has them and finite numbers; the first of them has its letter in the text, and so has each one
after a closepath. -/
theorem parse_safe (data : String) :
    (∃ last, Reached data last ∧ Ends data.length last (parse data) ∧
        ∀ stage, Reached data stage → ReflTransGen (Step data.length) stage last) ∧
      (∀ stage, Reached data stage →
        Stands data stage.text ∧ (∀ r ∈ stage.done, Consumes r.start r.rest) ∧
          ∀ x rest, take (skipSeparator stage.text) = some (x, rest) →
            Stands data (skipSeparator stage.text) ∧ Stands data rest) ∧
      (∀ cs, (∀ x rest, readNumber data.length cs = .ok (x, rest) → Consumes cs rest) ∧
        ∀ b rest, readFlag data.length cs = .ok (b, rest) → Consumes cs rest) ∧
      ∀ segments, parse data = .ok segments →
        (∀ s ∈ segments, s.arguments.map Argument.kind = s.command.signature ∧
          (∀ x, Argument.number x ∈ s.arguments → x.isFinite = true) ∧
            (s.command = .arc → ∃ b b',
              s.arguments[3]? = some (.flag b) ∧ s.arguments[4]? = some (.flag b'))) ∧
          ∃ rounds, Reached data (.top rounds []) ∧ rounds.map Round.segment = segments ∧
            (∀ r ∈ rounds.head?, r.start = skipSpace data.toList ∧ r.IsLettered) ∧
              rounds.IsChain Round.Follows := by
  obtain ⟨last, hlast, hparse⟩ := exists_last_parse data
  refine ⟨⟨last, hlast, hparse, fun stage => exists_last_of_reached hlast hparse⟩,
    fun stage hstage => ?_,
    fun cs => ⟨fun _ _ => consumes_readNumber, fun _ _ => consumes_readFlag⟩,
    fun segments hsegments => ?_⟩
  · have hsound := hstage.sound
    have hskip := hsound.passes.trans (passes_skipSeparator stage.text)
    exact ⟨.of_passes hsound.passes, fun r hr => (hsound.rounds r hr).consumes,
      fun x rest htake => ⟨.of_passes hskip, .of_passes (hskip.trans (consumes_take htake).passes)⟩⟩
  · rw [hsegments] at hparse
    cases hparse with
    | @finished rounds =>
      have hrounds : Rounds data rounds [] := Reached.sound hlast
      refine ⟨fun s hs => ?_, rounds, hlast, rfl, hrounds.first, hrounds.chain⟩
      obtain ⟨r, hr, rfl⟩ := List.mem_map.1 hs
      have hr := hrounds.sound r hr
      exact ⟨hr.kinds, hr.finite, exists_flags_of_kinds hr.kinds⟩

example : parse "M0 0é" = .error (.expectedNumber 4) := by rfl

end SvgPress.Path
