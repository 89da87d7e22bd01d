import SvgPress.Proofs.Markup.Legible
import SvgPress.Proofs.Markup.Reading
import Mathlib.Data.List.Chain

/-!
# Sequences of tokens

Legible tokens that are written one after the other are read one after the other, if no two runs of
character data meet. What they make of an empty builder is then what reading their text gives.
-/

namespace SvgPress.Markup

/-- The text of tokens that are written one after the other. -/
def textOf (ts : List Token) : List Char :=
  ts.flatMap Token.written

@[simp] theorem textOf_nil : textOf [] = [] := rfl

@[simp] theorem textOf_cons (t : Token) (ts : List Token) :
    textOf (t :: ts) = t.written ++ textOf ts :=
  List.flatMap_cons

@[simp] theorem textOf_append (ts ts' : List Token) :
    textOf (ts ++ ts') = textOf ts ++ textOf ts' :=
  List.flatMap_append

/-! ## Runs of character data -/

/-- No two runs of character data meet. -/
def Parted (ts : List Token) : Prop :=
  ts.IsChain fun s t => s.isText = true → t.isText = false

/-- Whether tokens start with character data. -/
def startsText (ts : List Token) : Bool :=
  ts.head?.any (·.isText)

/-- Whether tokens end with character data. -/
def endsText (ts : List Token) : Bool :=
  ts.getLast?.any (·.isText)

variable {ts ts' : List Token}

theorem parted_append (h : Parted ts) (h' : Parted ts')
    (hm : endsText ts = true → startsText ts' = false) : Parted (ts ++ ts') := by
  refine List.isChain_append.2 ⟨h, h', fun s hs t ht hst => ?_⟩
  have hend : endsText ts = true := by
    rw [endsText, Option.mem_def.1 hs]
    exact hst
  have hstart := hm hend
  rw [startsText, Option.mem_def.1 ht] at hstart
  exact hstart

theorem startsText_append (hne : ts ≠ []) : startsText (ts ++ ts') = startsText ts := by
  obtain ⟨t, ts, rfl⟩ := List.exists_cons_of_ne_nil hne
  rfl

theorem endsText_append (hne : ts' ≠ []) : endsText (ts ++ ts') = endsText ts' := by
  obtain ⟨ts', t, rfl⟩ := List.eq_nil_or_concat ts' |>.resolve_left hne
  rw [endsText, endsText, List.concat_eq_append, ← List.append_assoc, List.getLast?_concat,
    List.getLast?_concat]

theorem endsText_append_eq_false (h : endsText ts = false) (h' : endsText ts' = false) :
    endsText (ts ++ ts') = false := by
  by_cases hne : ts' = []
  · rwa [hne, List.append_nil]
  · rwa [endsText_append hne]

/-! ## Reading -/

/-- The names of the open elements and the builder after a token. -/
def takeIn (state : List String × Builder) (t : Token) :
    Except SyntaxError (List String × Builder) := do
  let names ← track state.1 t
  let builder ← state.2.feed t
  return (names, builder)

/-- The names of the open elements and the builder after some tokens. -/
def takeAll (state : List String × Builder) (ts : List Token) :
    Except SyntaxError (List String × Builder) :=
  ts.foldlM takeIn state

theorem takeIn_eq_ok_iff {state state' : List String × Builder} {t : Token} :
    takeIn state t = .ok state' ↔
      track state.1 t = .ok state'.1 ∧ state.2.feed t = .ok state'.2 := by
  obtain ⟨names', b'⟩ := state'
  simp only [takeIn, Outcome.bind_eq_ok_iff]
  constructor
  · rintro ⟨names, hn, b, hb, h⟩
    obtain ⟨rfl, rfl⟩ := Prod.mk.inj (Except.ok.inj h)
    exact ⟨hn, hb⟩
  · rintro ⟨hn, hb⟩
    exact ⟨names', hn, b', hb, rfl⟩

theorem takeAll_cons_eq_ok_iff {state state' : List String × Builder} {t : Token} :
    takeAll state (t :: ts) = .ok state' ↔
      ∃ mid, takeIn state t = .ok mid ∧ takeAll mid ts = .ok state' := by
  rw [takeAll, List.foldlM_cons, Outcome.bind_eq_ok_iff]
  rfl

/-- A legible token that is taken in is read where its text stands. -/
theorem advance_of_takeIn {t : Token} (hl : t.Legible) {names : List String} {b : Builder}
    {state' : List String × Builder} (h : takeIn (names, b) t = .ok state') {rest : List Char}
    (hr : t.isText = true → Marked rest) (position : Nat) : ∃ position',
      advance ⟨t.written ++ rest, position, names⟩ b = .running ⟨rest, position', state'.1⟩ state'.2 := by
  obtain ⟨ht, hf⟩ := takeIn_eq_ok_iff.1 h
  obtain ⟨position', hn⟩ := hl.next_eq position names state'.1 rest ht hr
  exact ⟨position', advance_eq_running_iff.2 ⟨t, hn, hl.more, hf⟩⟩

/-- Markup follows a run of character data. -/
theorem marked_of_parted {t : Token} (hl : ∀ s ∈ t :: ts, s.Legible) (hp : Parted (t :: ts))
    (ht : t.isText = true) : Marked (textOf ts) := by
  cases ts with
  | nil => simp [Marked]
  | cons next ts =>
    have hnext : next.isText = false := (List.isChain_cons_cons.1 hp).1 ht
    exact marked_written (hl next (by simp)).more hnext _

/-- Legible tokens are read one after the other, up to the end of the input. -/
theorem decides_of_takeAll (hl : ∀ t ∈ ts, t.Legible) (hp : Parted ts) {names : List String}
    {b : Builder} {state' : List String × Builder} (h : takeAll (names, b) ts = .ok state')
    {d : Document} (hf : state'.2.finish = .ok d) (position : Nat) :
    ∃ count, Decides ⟨textOf ts, position, names⟩ b count (.ok d) := by
  induction ts generalizing names b position with
  | nil =>
    obtain rfl := Except.ok.inj h
    exact ⟨1, .last (advance_eq_done_ok_iff.2 ⟨_, rfl, hf⟩)⟩
  | cons t ts ih =>
    obtain ⟨⟨names', b'⟩, ht, hrest⟩ := takeAll_cons_eq_ok_iff.1 h
    obtain ⟨position', hadvance⟩ :=
      advance_of_takeIn (hl t List.mem_cons_self) ht (marked_of_parted hl hp) position
    obtain ⟨count, hd⟩ := ih (fun t' ht' => hl t' (List.mem_cons_of_mem _ ht')) hp.tail hrest position'
    rw [textOf_cons]
    exact ⟨count + 1, .next hadvance hd⟩

/-- If legible tokens with paired tags are read up to the end of the input, they are taken in. -/
theorem exists_takeAll_of_decides (hl : ∀ t ∈ ts, t.Legible) (hp : Parted ts)
    {names names' : List String} (hn : ts.foldlM track names = .ok names') {b : Builder}
    {position count : Nat} {d : Document}
    (h : Decides ⟨textOf ts, position, names⟩ b count (.ok d)) :
    ∃ state', takeAll (names, b) ts = .ok state' ∧ state'.2.finish = .ok d := by
  induction ts generalizing names b position count with
  | nil =>
    refine ⟨(names, b), rfl, ?_⟩
    cases h with
    | last h =>
      obtain ⟨-, -, hfinish⟩ := advance_eq_done_ok_iff.1 h
      exact hfinish
    | next h =>
      obtain ⟨_, hnext, hne, -⟩ := advance_eq_running_iff.1 h
      exact absurd (Prod.mk.inj (Except.ok.inj hnext)).1.symm hne
  | cons t ts ih =>
    rw [List.foldlM_cons, Outcome.bind_eq_ok_iff] at hn
    obtain ⟨names₁, ht, hn⟩ := hn
    obtain ⟨position₁, hnext⟩ := (hl t List.mem_cons_self).next_eq position names names₁ (textOf ts)
      ht (marked_of_parted hl hp)
    have hmore := (hl t List.mem_cons_self).more
    rw [textOf_cons] at h
    cases h with
    | last h =>
      obtain ⟨_, hend, -⟩ := advance_eq_done_ok_iff.1 h
      exact absurd (Prod.mk.inj (Except.ok.inj (hnext.symm.trans hend))).1 hmore
    | next h later =>
      obtain ⟨_, hnext', -, hf⟩ := advance_eq_running_iff.1 h
      obtain ⟨rfl, rfl⟩ := Prod.mk.inj (Except.ok.inj (hnext.symm.trans hnext'))
      obtain ⟨state', htake, hfinish⟩ :=
        ih (fun t ht => hl t (List.mem_cons_of_mem _ ht)) hp.tail hn later
      exact ⟨state', takeAll_cons_eq_ok_iff.2 ⟨_, takeIn_eq_ok_iff.2 ⟨ht, hf⟩, htake⟩, hfinish⟩

/-- A text that legible tokens make up starts with markup, so nothing of it is a byte order mark. -/
theorem scanner_ofString {s : String} (hs : s.toList = textOf ts) (hl : ∀ t ∈ ts, t.Legible)
    (hstart : startsText ts = false) : Scanner.ofString s = ⟨textOf ts, 0, []⟩ := by
  have hmark : ∀ rest, s.toList ≠ '\uFEFF' :: rest := by
    intro rest he
    rw [hs] at he
    cases ts with
    | nil => simp at he
    | cons t ts =>
      have hm := marked_written (hl t List.mem_cons_self).more hstart (textOf ts)
      rw [textOf_cons] at he
      have hc := hm '\uFEFF' (by simp [he])
      exact absurd hc (by decide)
  unfold Scanner.ofString
  split
  · rename_i rest he
    exact absurd he (hmark rest)
  · rw [hs]

/-- A text that legible tokens make up describes the document that they build. -/
theorem parse_of_takeAll {s : String} (hs : s.toList = textOf ts) (hl : ∀ t ∈ ts, t.Legible)
    (hp : Parted ts) (hstart : startsText ts = false) {state' : List String × Builder}
    (h : takeAll ([], .empty) ts = .ok state') {d : Document} (hf : state'.2.finish = .ok d) :
    parse s = .ok d := by
  obtain ⟨count, hd⟩ := decides_of_takeAll hl hp h hf 0
  rw [← scanner_ofString hs hl hstart] at hd
  exact hd.parse_eq

/-- The document that a text of legible tokens with paired tags describes is the one they build. -/
theorem exists_takeAll_of_parse {s : String} (hs : s.toList = textOf ts)
    (hl : ∀ t ∈ ts, t.Legible) (hp : Parted ts) (hstart : startsText ts = false)
    {names' : List String} (hn : ts.foldlM track [] = .ok names') {d : Document}
    (h : parse s = .ok d) :
    ∃ state', takeAll ([], .empty) ts = .ok state' ∧ state'.2.finish = .ok d := by
  have hd := decides_parse s
  rw [h, scanner_ofString hs hl hstart] at hd
  exact exists_takeAll_of_decides hl hp hn hd

end SvgPress.Markup
