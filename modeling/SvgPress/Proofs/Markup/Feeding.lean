import SvgPress.Markup.Builder
import SvgPress.Proofs.Outcome
import Mathlib.Data.List.TakeDrop
import Mathlib.Data.List.TakeWhile

/-!
# What taking in a token does

A token states what precedes the tree, adds a node, opens or closes an element, or changes nothing.
`Takes` tells each of these steps with the conditions under which it is made, and these are all the
ways in which the builder takes in a token.
-/

namespace SvgPress.Markup

open SvgPress.Text

/-- The target of a processing instruction ends at the first space. What follows is its content,
without the space around it, unless nothing else follows. -/
theorem instructionOf_cases (content : String) :
    ((∀ c ∈ content.toList, isSpace c = false) ∧
      Builder.instructionOf content = .instruction content none) ∨
    ∃ target space rest, content.toList = target ++ space :: rest ∧
      (∀ c ∈ target, isSpace c = false) ∧
      Builder.instructionOf content = .instruction (String.ofList target)
        (if strip isSpace rest = [] then none else some (String.ofList (strip isSpace rest))) := by
  have hsplit := List.takeWhile_append_dropWhile (p := (!isSpace ·)) (l := content.toList)
  have hunspaced : ∀ c ∈ content.toList.takeWhile (!isSpace ·), isSpace c = false :=
    fun c hc => by simpa using List.mem_takeWhile_imp hc
  simp only [Builder.instructionOf, List.span_eq_takeWhile_dropWhile]
  cases hrest : content.toList.dropWhile (!isSpace ·) with
  | nil =>
    rw [hrest, List.append_nil] at hsplit
    exact .inl ⟨hsplit ▸ hunspaced, rfl⟩
  | cons space rest =>
    refine .inr ⟨_, space, rest, (hrest ▸ hsplit).symm, hunspaced, ?_⟩
    cases hcontent : strip isSpace rest with
    | nil => simp only [hcontent, if_true]
    | cons c cs => simp only [hcontent, List.cons_ne_nil, if_false]

theorem instructionOf_eq (content : String) :
    ∃ target rest, Builder.instructionOf content = .instruction target rest := by
  rcases instructionOf_cases content with ⟨-, he⟩ | ⟨_, _, _, -, -, he⟩ <;> exact ⟨_, _, he⟩

namespace Builder

variable {b b' : Builder} {t : Token} {kind : NodeKind} {id : NodeId}

theorem append_eq_ok_iff : b.append kind = .ok (b', id) ↔
    (b.document.create kind).2 = id ∧ b'.opened = b.opened ∧
      (b.document.create kind).1.appendChild b.current id = .ok b'.document := by
  simp only [append]
  constructor
  · intro h
    split at h
    · rename_i d happend
      obtain ⟨rfl, rfl⟩ := Prod.mk.inj (Except.ok.inj h)
      exact ⟨rfl, rfl, happend⟩
    · simp at h
  · rintro ⟨rfl, ho, happend⟩
    rw [happend, ← ho]

theorem preserving_of_opened_nil (h : b.opened = []) : b.preserving = false := by
  rw [preserving, h]

/-- The token stands for a whole node, which the builder adds at its place. It adds character data
only inside of elements, and blanks only where they count. -/
inductive Adds (b : Builder) : Token → NodeKind → Prop
  | empty {tag : Tag} {e : Element} (he : tag.element = .ok e) : b.Adds (.empty tag) (.element e)
  | text {raw content : String} (hc : expand raw = .ok content) (ho : b.opened ≠ [])
      (hcounts : allBlank content = false ∨ b.preserving = true) :
      b.Adds (.text raw) (.text content)
  | cdata {content : String} (ho : b.opened ≠ []) : b.Adds (.cdata content) (.cdata content)
  | comment (content : String) : b.Adds (.comment content) (.comment content)
  | instruction {content target : String} {rest : Option String}
      (hi : instructionOf content = .instruction target rest) :
      b.Adds (.instruction content) (.instruction target rest)

theorem Adds.ne_root (h : b.Adds t kind) : kind ≠ .root := by
  cases h <;> exact nofun

theorem Adds.exists_tag {e : Element} (h : b.Adds t kind) (he : kind.element? = some e) :
    ∃ tag, Tag.element tag = .ok e := by
  cases h with
  | @empty tag _ ht => exact ⟨tag, ht.trans (congrArg Except.ok (Option.some.inj he))⟩
  | _ => exact nomatch he

theorem Adds.opened_ne_nil (h : b.Adds t kind) (hk : kind.isCharacterData = true) :
    b.opened ≠ [] := by
  cases h with
  | text _ ho | cdata ho => exact ho
  | _ => exact nomatch hk

/-- The steps from a builder to the one that has taken in a token. -/
inductive Takes (b : Builder) : Token → Builder → Prop
  | declaration {tag : Tag} {declaration : XmlDeclaration}
      (hd : declarationOf tag = .ok declaration) :
      b.Takes (.declaration tag) { b with document := { b.document with declaration } }
  | doctype (content : String) : b.Takes (.doctype content)
      { b with document := { b.document with doctype := some (trimSpace content) } }
  | start {tag : Tag} {e : Element} {b' : Builder} {id : NodeId} (he : tag.element = .ok e)
      (ha : b.append (.element e) = .ok (b', id)) : b.Takes (.start tag)
        { b' with opened := ⟨id, preservesBlanks b.preserving e⟩ :: b'.opened }
  | node {t : Token} {kind : NodeKind} {b' : Builder} {id : NodeId} (hk : b.Adds t kind)
      (ha : b.append kind = .ok (b', id)) : b.Takes t b'
  | close {innermost : OpenElement} {outer : List OpenElement} (name : String)
      (ho : b.opened = innermost :: outer) : b.Takes (.close name) { b with opened := outer }
  | blank {raw content : String} (hc : expand raw = .ok content) (hblank : allBlank content = true)
      (hp : b.preserving = false) : b.Takes (.text raw) b
  | endOfInput : b.Takes .endOfInput b

/-- A token that is taken in makes one of the steps. -/
theorem takes_of_feed (h : b.feed t = .ok b') : b.Takes t b' := by
  cases t with
  | declaration tag =>
    obtain ⟨declaration, hd, h⟩ := Outcome.bind_eq_ok_iff.1 h
    obtain rfl := Except.ok.inj h
    exact .declaration hd
  | doctype content =>
    obtain rfl := Except.ok.inj h
    exact .doctype content
  | start tag =>
    obtain ⟨e, he, h⟩ := Outcome.bind_eq_ok_iff.1 h
    obtain ⟨⟨b₁, id⟩, ha, h⟩ := Outcome.bind_eq_ok_iff.1 h
    obtain rfl := Except.ok.inj h
    exact .start he ha
  | empty tag =>
    obtain ⟨e, he, h⟩ := Outcome.bind_eq_ok_iff.1 h
    obtain ⟨⟨b₁, id⟩, ha, h⟩ := Outcome.bind_eq_ok_iff.1 h
    obtain rfl := Except.ok.inj h
    exact .node (.empty he) ha
  | close name =>
    rw [feed] at h
    split at h
    · simp at h
    · rename_i innermost outer ho
      obtain rfl := Except.ok.inj h
      exact .close name ho
  | text raw =>
    obtain ⟨content, hc, h⟩ := Outcome.bind_eq_ok_iff.1 h
    have hexpand := Outcome.mapError_eq_ok_iff.1 hc
    split_ifs at h with ho hblank hcounts
    · obtain rfl := Except.ok.inj h
      exact .blank hexpand hblank (preserving_of_opened_nil (List.isEmpty_iff.1 ho))
    · obtain ⟨⟨b₁, id⟩, ha, h⟩ := Outcome.bind_eq_ok_iff.1 h
      obtain rfl := Except.ok.inj h
      exact .node (.text hexpand (fun hn => ho (List.isEmpty_iff.2 hn)) (by simpa using hcounts)) ha
    · obtain rfl := Except.ok.inj h
      obtain ⟨hblank, hp⟩ : allBlank content = true ∧ b.preserving = false := by
        simpa using hcounts
      exact .blank hexpand hblank hp
  | cdata content =>
    rw [feed] at h
    split_ifs at h with ho
    obtain ⟨⟨b₁, id⟩, ha, rfl⟩ := Outcome.map_eq_ok_iff.1 h
    exact .node (.cdata fun hn => ho (List.isEmpty_iff.2 hn)) ha
  | comment content =>
    obtain ⟨⟨b₁, id⟩, ha, rfl⟩ := Outcome.map_eq_ok_iff.1 h
    exact .node (.comment content) ha
  | instruction content =>
    obtain ⟨⟨b₁, id⟩, ha, rfl⟩ := Outcome.map_eq_ok_iff.1 h
    obtain ⟨target, rest, hi⟩ := instructionOf_eq content
    rw [hi] at ha
    exact .node (.instruction hi) ha
  | endOfInput =>
    obtain rfl := Except.ok.inj h
    exact .endOfInput

theorem Adds.feed_eq (h : b.Adds t kind) : b.feed t = (b.append kind).map (·.1) := by
  cases h with
  | @empty tag e he =>
    rw [feed, he]
    simp only [bind, Except.bind]
    cases b.append (.element e) <;> rfl
  | @text raw content hc ho hcounts =>
    have hopened : ¬ b.opened.isEmpty = true := fun hn => ho (List.isEmpty_iff.1 hn)
    have hcounts' : (!allBlank content || b.preserving) = true := by simpa using hcounts
    rw [feed, hc]
    simp only [Except.mapError, bind, Except.bind, if_neg hopened, if_pos hcounts']
    cases b.append (.text content) <;> rfl
  | cdata ho => rw [feed, if_neg fun hn => ho (List.isEmpty_iff.1 hn)]
  | comment content => rfl
  | instruction hi => rw [feed, hi]

/-- Each of the steps is made where its conditions hold. -/
theorem feed_of_takes (h : b.Takes t b') : b.feed t = .ok b' := by
  cases h with
  | declaration hd => rw [feed, hd]; rfl
  | doctype content => rfl
  | start he ha =>
    rw [feed, he]
    simp only [bind, Except.bind, ha]
    rfl
  | node hk ha => rw [hk.feed_eq, ha]; rfl
  | close name ho => rw [feed, ho]
  | blank hc hblank hp =>
    rw [feed, hc]
    simp only [Except.mapError, bind, Except.bind, hblank, hp, if_true, Bool.not_true,
      Bool.or_self, Bool.false_eq_true, if_false]
    split_ifs <;> rfl
  | endOfInput => rfl

end Builder

end SvgPress.Markup
