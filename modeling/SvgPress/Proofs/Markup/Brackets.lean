import SvgPress.Proofs.Markup.Feeding
import SvgPress.Proofs.Tree.Forest

/-!
# Tokens as brackets

Start and end tags are brackets. Every token stands at a level, the number of elements that are open
there; tokens in which every bracket has its partner denote a forest. Which tokens make up a
document, and which may begin one, is said by their levels alone.
-/

namespace SvgPress.Markup

open SvgPress.Text

/-! ## Levels -/

/-- The number of open elements after a token, given the number before it. -/
def Token.levelAfter (level : Nat) : Token → Nat
  | .start _ => level + 1
  | .close _ => level - 1
  | _ => level

/-- The number of open elements after tokens. -/
def levelAfter (level : Nat) (ts : List Token) : Nat :=
  ts.foldl Token.levelAfter level

/-- The tokens, each with the number of elements that are open before it. -/
def leveled : (level : Nat) → List Token → List (Nat × Token)
  | _, [] => []
  | level, t :: ts => (level, t) :: leveled (t.levelAfter level) ts

/-- Whether an element begins with the token. -/
def Token.beginsElement : Token → Bool
  | .start _ | .empty _ => true
  | _ => false

/-- Whether the token is character data that has no place outside of elements. -/
def Token.isStray : Token → Bool
  | .cdata _ => true
  | .text raw => !(expand raw).toOption.all allBlank
  | _ => false

/-- The attributes and the references of a token can be read, and it does not end the input. -/
def Token.IsDecodable : Token → Prop
  | .declaration tag => ∃ declaration, Builder.declarationOf tag = .ok declaration
  | .start tag | .empty tag => ∃ e, tag.element = .ok e
  | .text raw => ∃ content, expand raw = .ok content
  | .endOfInput => False
  | _ => True

/-- The number of elements that begin at a level. -/
def elementsAt (level : Nat) (ts : List (Nat × Token)) : Nat :=
  ts.countP fun (n, t) => n == level && t.beginsElement

/-- Every end tag has an open element, and outside of elements there are no two elements, and no
character data but blanks. -/
structure MayBegin (ts : List Token) : Prop where
  matched : ∀ name, (0, Token.close name) ∉ leveled 0 ts
  one_element : elementsAt 0 (leveled 0 ts) ≤ 1
  no_stray : ∀ t, (0, t) ∈ leveled 0 ts → t.isStray = false

/-- Start and end tags are balanced, and outside of elements there is exactly one element, and no
character data but blanks. -/
structure IsDocument (ts : List Token) : Prop where
  matched : ∀ name, (0, Token.close name) ∉ leveled 0 ts
  closed : levelAfter 0 ts = 0
  one_element : elementsAt 0 (leveled 0 ts) = 1
  no_stray : ∀ t, (0, t) ∈ leveled 0 ts → t.isStray = false

/-- The tokens can go on so that they make up a document. -/
def Completable (ts : List Token) : Prop :=
  ∃ rest, (∀ t ∈ rest, t.IsDecodable) ∧ IsDocument (ts ++ rest)

variable {ts ts' : List Token} {t : Token} {level : Nat}

theorem Builder.Adds.levelAfter_eq {b : Builder} {kind : NodeKind} (h : b.Adds t kind)
    (level : Nat) : t.levelAfter level = level := by
  cases h <;> rfl

theorem Builder.Adds.beginsElement_eq {b : Builder} {kind : NodeKind} (h : b.Adds t kind) :
    t.beginsElement = kind.element?.isSome := by
  cases h <;> rfl

@[simp] theorem levelAfter_nil : levelAfter level [] = level := rfl

@[simp] theorem levelAfter_cons :
    levelAfter level (t :: ts) = levelAfter (t.levelAfter level) ts := rfl

@[simp] theorem levelAfter_append :
    levelAfter level (ts ++ ts') = levelAfter (levelAfter level ts) ts' :=
  List.foldl_append

@[simp] theorem leveled_append :
    leveled level (ts ++ ts') = leveled level ts ++ leveled (levelAfter level ts) ts' := by
  induction ts generalizing level with
  | nil => rfl
  | cons t ts ih => simp [leveled, ih]

@[simp] theorem elementsAt_append {ps ps' : List (Nat × Token)} :
    elementsAt level (ps ++ ps') = elementsAt level ps + elementsAt level ps' :=
  List.countP_append

/-- As many end tags as there are open elements close these elements, and nothing else. -/
theorem leveled_replicate_close (level : Nat) (name : String) :
    levelAfter level (List.replicate level (.close name)) = 0 ∧
      ∀ p ∈ leveled level (List.replicate level (.close name)), p.1 ≠ 0 ∧ p.2 = .close name := by
  induction level with
  | zero => exact ⟨rfl, fun p hp => absurd hp List.not_mem_nil⟩
  | succ level ih =>
    rw [List.replicate_succ, levelAfter_cons]
    refine ⟨ih.1, fun p hp => ?_⟩
    rcases List.mem_cons.1 hp with rfl | hp
    · exact ⟨Nat.succ_ne_zero level, rfl⟩
    · exact ih.2 p hp

/-- Tokens that may begin a document can be completed: close what is open, and add an element if
there is none. -/
theorem MayBegin.completable (h : MayBegin ts) : Completable ts := by
  obtain ⟨hzero, hpositive⟩ := leveled_replicate_close (levelAfter 0 ts) ""
  generalize hcs : List.replicate (levelAfter 0 ts) (Token.close "") = closing at hzero hpositive
  have hnone : elementsAt 0 (leveled (levelAfter 0 ts) closing) = 0 := by
    rw [elementsAt, List.countP_eq_zero]
    intro p hp
    simp [(hpositive p hp).2, Token.beginsElement]
  have hdecodable : ∀ t ∈ closing, t.IsDecodable := by
    intro t ht
    rw [← hcs] at ht
    rw [List.eq_of_mem_replicate ht]
    trivial
  -- What is added at level 0 is nothing, or an element without content.
  have key : ∀ top : List Token, (top = [] ∨ top = [.empty ⟨"a", []⟩]) →
      elementsAt 0 (leveled 0 ts) + top.length = 1 → Completable ts := by
    intro top htop hone
    have hlevel : levelAfter 0 top = 0 := by rcases htop with rfl | rfl <;> rfl
    have hcount : elementsAt 0 (leveled 0 top) = top.length := by rcases htop with rfl | rfl <;> rfl
    have hplain : ∀ t, (0, t) ∈ leveled 0 top → t = .empty ⟨"a", []⟩ := by
      intro t ht
      rcases htop with rfl | rfl
      · exact absurd ht List.not_mem_nil
      · exact (Prod.mk.inj (List.mem_singleton.1 ht)).2
    have hwhere : ∀ t, (0, t) ∈ leveled 0 (ts ++ (closing ++ top)) →
        (0, t) ∈ leveled 0 ts ∨ t = .empty ⟨"a", []⟩ := by
      intro t ht
      rw [leveled_append, leveled_append, List.mem_append, List.mem_append, hzero] at ht
      rcases ht with ht | ht | ht
      · exact .inl ht
      · exact absurd rfl (hpositive _ ht).1
      · exact .inr (hplain t ht)
    refine ⟨closing ++ top, fun t ht => ?_, ⟨fun name hm => ?_, ?_, ?_, fun t ht => ?_⟩⟩
    · rcases List.mem_append.1 ht with ht | ht
      · exact hdecodable t ht
      · rcases htop with rfl | rfl
        · exact absurd ht List.not_mem_nil
        · rw [List.mem_singleton.1 ht]
          exact ⟨⟨QName.ofString "a", []⟩, rfl⟩
    · rcases hwhere _ hm with hm | hm
      · exact h.matched name hm
      · simp at hm
    · rw [levelAfter_append, levelAfter_append, hzero, hlevel]
    · rw [leveled_append, leveled_append, elementsAt_append, elementsAt_append, hnone, hzero,
        hcount, Nat.zero_add, hone]
    · rcases hwhere t ht with ht | rfl
      · exact h.no_stray t ht
      · rfl
  have hone := h.one_element
  rcases Nat.le_one_iff_eq_zero_or_eq_one.1 hone with hz | ho
  · exact key [.empty ⟨"a", []⟩] (.inr rfl) (by simp [hz])
  · exact key [] (.inl rfl) (by simp [ho])

/-! ## Forests -/

/-- Tokens in which every element is closed denote a forest; the flag says whether blanks count
outside of its elements. -/
inductive Denotes : Bool → List Token → Forest NodeKind → Prop
  | nil {around : Bool} : Denotes around [] .nil
  /-- What stands between the tags of an element stands below it. -/
  | element {around : Bool} {tag : Tag} {e : Element} {inside after : List Token} {name : String}
      {below rest : Forest NodeKind} (he : tag.element = .ok e)
      (hb : Denotes (preservesBlanks around e) inside below) (hr : Denotes around after rest) :
      Denotes around (.start tag :: (inside ++ .close name :: after))
        (.cons (.element e) below rest)
  | empty {around : Bool} {tag : Tag} {e : Element} {after : List Token} {rest : Forest NodeKind}
      (he : tag.element = .ok e) (hr : Denotes around after rest) :
      Denotes around (.empty tag :: after) (.cons (.element e) .nil rest)
  | text {around : Bool} {raw content : String} {after : List Token} {rest : Forest NodeKind}
      (hc : expand raw = .ok content) (hk : allBlank content = false ∨ around = true)
      (hr : Denotes around after rest) :
      Denotes around (.text raw :: after) (.cons (.text content) .nil rest)
  /-- Blanks that do not count are dropped. -/
  | blank {raw content : String} {after : List Token} {rest : Forest NodeKind}
      (hc : expand raw = .ok content) (hk : allBlank content = true)
      (hr : Denotes false after rest) : Denotes false (.text raw :: after) rest
  | cdata {around : Bool} {content : String} {after : List Token} {rest : Forest NodeKind}
      (hr : Denotes around after rest) :
      Denotes around (.cdata content :: after) (.cons (.cdata content) .nil rest)
  | comment {around : Bool} {content : String} {after : List Token} {rest : Forest NodeKind}
      (hr : Denotes around after rest) :
      Denotes around (.comment content :: after) (.cons (.comment content) .nil rest)
  | instruction {around : Bool} {content : String} {after : List Token} {rest : Forest NodeKind}
      (hr : Denotes around after rest) :
      Denotes around (.instruction content :: after)
        (.cons (Builder.instructionOf content) .nil rest)
  /-- Declarations are no part of the tree. -/
  | declaration {around : Bool} {tag : Tag} {after : List Token} {rest : Forest NodeKind}
      {declaration : XmlDeclaration} (hd : Builder.declarationOf tag = .ok declaration)
      (hr : Denotes around after rest) : Denotes around (.declaration tag :: after) rest
  | doctype {around : Bool} {content : String} {after : List Token} {rest : Forest NodeKind}
      (hr : Denotes around after rest) : Denotes around (.doctype content :: after) rest

theorem Denotes.append {around : Bool} {f g : Forest NodeKind} (h : Denotes around ts f)
    (h' : Denotes around ts' g) : Denotes around (ts ++ ts') (f ++ g) := by
  induction h with
  | nil => exact h'
  | @element _ _ _ inside after name below rest he hb _ _ ihr =>
    have hall : Denotes _ (_ :: (inside ++ .close name :: (after ++ ts'))) _ :=
      .element he hb (ihr h')
    simpa using hall
  | empty he _ ih => exact .empty he (ih h')
  | text hc hk _ ih => exact .text hc hk (ih h')
  | blank hc hk _ ih => exact .blank hc hk (ih h')
  | cdata _ ih => exact .cdata (ih h')
  | comment _ ih => exact .comment (ih h')
  | instruction _ ih => exact .instruction (ih h')
  | declaration hd _ ih => exact .declaration hd (ih h')
  | doctype _ ih => exact .doctype (ih h')

/-- At the outer level of tokens stand these payloads, and character data only as a token that has
no place outside of elements. -/
structure Outlines (around : Bool) (level : Nat) (ts : List Token) (tops : List NodeKind) :
    Prop where
  back : levelAfter level ts = level
  above : ∀ p ∈ leveled level ts, level ≤ p.1
  elements : elementsAt level (leveled level ts) =
    (tops.filter fun kind => kind.element?.isSome).length
  stray : around = false → ∀ kind ∈ tops, kind.isCharacterData = true →
    ∃ t, (level, t) ∈ leveled level ts ∧ t.isStray = true

namespace Outlines

variable {around : Bool} {tops tops' : List NodeKind}

theorem nil (around : Bool) (level : Nat) : Outlines around level [] [] where
  back := rfl
  above _ hp := absurd hp List.not_mem_nil
  elements := rfl
  stray _ _ hk := absurd hk List.not_mem_nil

theorem append (h : Outlines around level ts tops) (h' : Outlines around level ts' tops') :
    Outlines around level (ts ++ ts') (tops ++ tops') where
  back := by rw [levelAfter_append, h.back, h'.back]
  above p hp := by
    rw [leveled_append, h.back, List.mem_append] at hp
    exact hp.elim (h.above p) (h'.above p)
  elements := by
    rw [leveled_append, h.back, elementsAt_append, h.elements, h'.elements, List.filter_append,
      List.length_append]
  stray ha kind hk hc := by
    rw [leveled_append, h.back]
    rcases List.mem_append.1 hk with hk | hk
    · obtain ⟨t, ht, hs⟩ := h.stray ha kind hk hc
      exact ⟨t, List.mem_append_left _ ht, hs⟩
    · obtain ⟨t, ht, hs⟩ := h'.stray ha kind hk hc
      exact ⟨t, List.mem_append_right _ ht, hs⟩

/-- A token that stands for one node. -/
theorem node (t : Token) (kind : NodeKind) (hl : t.levelAfter level = level)
    (he : t.beginsElement = kind.element?.isSome)
    (hs : around = false → kind.isCharacterData = true → t.isStray = true) :
    Outlines around level [t] [kind] where
  back := hl
  above p hp := by rw [List.mem_singleton.1 hp]
  elements := by
    cases hk : kind.element?.isSome <;> simp [elementsAt, leveled, he, hk]
  stray ha k hk hc := by
    rw [List.mem_singleton.1 hk] at hc
    exact ⟨t, List.mem_singleton_self _, hs ha hc⟩

/-- A token that leaves the tree as it is. -/
theorem skipped (t : Token) (hl : t.levelAfter level = level) (he : t.beginsElement = false) :
    Outlines around level [t] [] where
  back := hl
  above p hp := by rw [List.mem_singleton.1 hp]
  elements := by simp [elementsAt, leveled, he]
  stray _ _ hk := absurd hk List.not_mem_nil

/-- The tags of an element and what stands between them. -/
theorem element (tag : Tag) (name : String) (e : Element) {inner : Bool}
    (h : Outlines inner (level + 1) ts tops) :
    Outlines around level (.start tag :: (ts ++ [.close name])) [.element e] where
  back := by simp [Token.levelAfter, h.back]
  above p hp := by
    simp only [leveled, Token.levelAfter, leveled_append, h.back, List.mem_cons, List.mem_append,
      List.not_mem_nil, or_false] at hp
    rcases hp with rfl | hp | rfl
    · exact Nat.le_refl level
    · exact Nat.le_of_succ_le (h.above p hp)
    · exact Nat.le_succ level
  elements := by
    have hinside : elementsAt level (leveled (level + 1) ts) = 0 := by
      rw [elementsAt, List.countP_eq_zero]
      intro p hp
      have hne : p.1 ≠ level := Nat.ne_of_gt (h.above p hp)
      simp [hne]
    have hstart : elementsAt level [(level, .start tag)] = 1 := by
      simp [elementsAt, Token.beginsElement]
    have hend : elementsAt level [(level + 1, .close name)] = 0 := by simp [elementsAt]
    have hsplit : leveled level (.start tag :: (ts ++ [.close name])) =
        [(level, .start tag)] ++ (leveled (level + 1) ts ++ [(level + 1, .close name)]) := by
      simp [leveled, Token.levelAfter, h.back]
    rw [hsplit, elementsAt_append, elementsAt_append, hstart, hinside, hend]
    rfl
  stray _ kind hk hc := by
    rw [List.mem_singleton.1 hk] at hc
    exact absurd hc (by simp [NodeKind.isCharacterData])

end Outlines

/-- What stands at the outer level of tokens are the tops of their forest. -/
theorem Denotes.outlines {around : Bool} {f : Forest NodeKind} (h : Denotes around ts f)
    (level : Nat) : Outlines around level ts f.tops := by
  induction h generalizing level with
  | nil => exact .nil _ level
  | @element around tag e _ _ name _ _ _ _ _ ihb ihr =>
    have htags : Outlines around level _ [.element e] := .element tag name e (ihb (level + 1))
    simpa [Forest.tops] using htags.append (ihr level)
  | @empty _ tag e _ _ _ _ ih =>
    exact (Outlines.node (.empty tag) (.element e) rfl rfl fun _ hc => hc).append (ih level)
  | @text _ raw content _ _ hc hk _ ih =>
    refine (Outlines.node (.text raw) (.text content) rfl rfl ?_).append (ih level)
    rintro rfl -
    have hstray : allBlank content = false := hk.resolve_right (by simp)
    simp [Token.isStray, hc, Except.toOption, hstray]
  | @blank raw _ _ _ _ _ _ ih => exact (Outlines.skipped (.text raw) rfl rfl).append (ih level)
  | @cdata _ content _ _ _ ih =>
    exact (Outlines.node (.cdata content) (.cdata content) rfl rfl fun _ _ => rfl).append (ih level)
  | @comment _ content _ _ _ ih =>
    exact (Outlines.node (.comment content) (.comment content) rfl rfl fun _ hc => hc).append
      (ih level)
  | @instruction _ content _ _ _ ih =>
    obtain ⟨target, stated, he⟩ := instructionOf_eq content
    rw [he]
    exact (Outlines.node (.instruction content) (.instruction target stated) rfl rfl
      fun _ hc => hc).append (ih level)
  | @declaration _ tag _ _ _ _ _ ih =>
    exact (Outlines.skipped (.declaration tag) rfl rfl).append (ih level)
  | @doctype _ content _ _ _ ih =>
    exact (Outlines.skipped (.doctype content) rfl rfl).append (ih level)

/-- The tokens are cut by end tags into pieces that denote forests, one for each flag. -/
def Pieces : List Bool → List Token → Prop
  | [], _ => False
  | [around], ts => ∃ f, Denotes around ts f
  | around :: outer, ts => ∃ inside name after f, ts = inside ++ Token.close name :: after ∧
      Denotes around inside f ∧ Pieces outer after

theorem Pieces.prepend {around : Bool} {outer : List Bool} (h : Pieces (around :: outer) ts)
    (before : List Token)
    (hd : ∀ ts f, Denotes around ts f → ∃ g, Denotes around (before ++ ts) g) :
    Pieces (around :: outer) (before ++ ts) := by
  cases outer with
  | nil =>
    obtain ⟨f, hf⟩ := h
    exact hd ts f hf
  | cons flag outer =>
    obtain ⟨inside, name, after, f, rfl, hf, hafter⟩ := h
    obtain ⟨g, hg⟩ := hd inside f hf
    exact ⟨before ++ inside, name, after, g, by simp, hg, hafter⟩

/-- Tokens that close all that is open at their start, and all that they open, are cut into
pieces. -/
theorem exists_pieces (hd : ∀ t ∈ ts, t.IsDecodable) (around : Bool) (outer : List Bool)
    (hm : ∀ name, (0, Token.close name) ∉ leveled outer.length ts)
    (hc : levelAfter outer.length ts = 0) : Pieces (around :: outer) ts := by
  induction ts generalizing around outer with
  | nil =>
    obtain rfl := List.length_eq_zero_iff.1 hc
    exact ⟨.nil, .nil⟩
  | cons t ts ih =>
    have hdecodable := hd t List.mem_cons_self
    have hrest : ∀ t ∈ ts, t.IsDecodable := fun t ht => hd t (List.mem_cons_of_mem _ ht)
    have hlater : ∀ name, (0, Token.close name) ∉ leveled (t.levelAfter outer.length) ts :=
      fun name hn => hm name (List.mem_cons_of_mem _ hn)
    cases t with
    | start tag =>
      obtain ⟨e, he⟩ := hdecodable
      obtain ⟨inside, name, after, f, rfl, hf, hafter⟩ :=
        ih hrest (preservesBlanks around e) (around :: outer) hlater hc
      have hp : Pieces (around :: outer) ((.start tag :: (inside ++ [.close name])) ++ after) :=
        hafter.prepend _ fun ts f' hf' => by
          have helement : Denotes around (.start tag :: (inside ++ .close name :: ts)) _ :=
            .element he hf hf'
          exact ⟨_, by simpa using helement⟩
      simpa using hp
    | close name =>
      cases outer with
      | nil => exact absurd List.mem_cons_self (hm name)
      | cons flag outer =>
        exact ⟨[], name, ts, .nil, rfl, .nil, ih hrest flag outer hlater hc⟩
    | text raw =>
      obtain ⟨content, hcontent⟩ := hdecodable
      refine (ih hrest around outer hlater hc).prepend [.text raw] fun ts f hf => ?_
      by_cases hk : allBlank content = false ∨ around = true
      · exact ⟨_, .text hcontent hk hf⟩
      · simp only [not_or, Bool.not_eq_false, Bool.not_eq_true] at hk
        obtain ⟨hk, rfl⟩ := hk
        exact ⟨_, .blank hcontent hk hf⟩
    | empty tag =>
      obtain ⟨e, he⟩ := hdecodable
      exact (ih hrest around outer hlater hc).prepend [.empty tag]
        fun ts f hf => ⟨_, .empty he hf⟩
    | declaration tag =>
      obtain ⟨declaration, hdeclaration⟩ := hdecodable
      exact (ih hrest around outer hlater hc).prepend [.declaration tag]
        fun ts f hf => ⟨_, .declaration hdeclaration hf⟩
    | doctype content =>
      exact (ih hrest around outer hlater hc).prepend [.doctype content]
        fun ts f hf => ⟨_, .doctype hf⟩
    | cdata content =>
      exact (ih hrest around outer hlater hc).prepend [.cdata content]
        fun ts f hf => ⟨_, .cdata hf⟩
    | comment content =>
      exact (ih hrest around outer hlater hc).prepend [.comment content]
        fun ts f hf => ⟨_, .comment hf⟩
    | instruction content =>
      exact (ih hrest around outer hlater hc).prepend [.instruction content]
        fun ts f hf => ⟨_, .instruction hf⟩
    | endOfInput => exact absurd hdecodable id

/-- Balanced tokens denote a forest. -/
theorem IsDocument.exists_denotes (h : IsDocument ts) (hd : ∀ t ∈ ts, t.IsDecodable) :
    ∃ f, Denotes false ts f :=
  exists_pieces hd false [] h.matched h.closed

end SvgPress.Markup
