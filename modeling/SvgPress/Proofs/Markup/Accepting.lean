import Mathlib.Data.List.Induction
import SvgPress.Proofs.Markup.Raising

/-!
# Which tokens are accepted

The builder takes in tokens as long as something can follow that makes a document of them, and what
it accepts in the end are the documents. The invariant ties the open elements of the builder to the
level of the tokens, and the elements under the root to those that began outside of all others.
-/

namespace SvgPress.Markup

open Document

/-- The document that tokens build when the input ends after them. -/
def Builder.build (ts : List Token) : Except SyntaxError Document := do
  let b ← Builder.empty.feedAll ts
  b.finish

/-- What the builder holds after tokens. -/
structure Consumed (ts : List Token) (b : Builder) : Prop where
  sound : b.document.Sound
  opened : ∀ o ∈ b.opened, b.document.isContainer o.id = true ∧ o.id ≠ .root
  level : b.opened.length = levelAfter 0 ts
  elements : (b.document.childElements .root).length = elementsAt 0 (leveled 0 ts)

/-- The token may stand after the tokens if they may begin a document. -/
def MayFollow (ts : List Token) (t : Token) : Prop :=
  levelAfter 0 ts = 0 → (∀ name, t ≠ .close name) ∧ t.isStray = false ∧
    (t.beginsElement = true → elementsAt 0 (leveled 0 ts) = 0)

variable {ts : List Token} {t : Token} {b b' : Builder} {kind : NodeKind} {id : NodeId}

/-! ## Beginnings of documents -/

theorem elementsAt_concat : elementsAt 0 (leveled 0 (ts ++ [t])) = elementsAt 0 (leveled 0 ts) +
    if levelAfter 0 ts = 0 ∧ t.beginsElement = true then 1 else 0 := by
  rw [leveled_append, elementsAt_append]
  congr 1
  by_cases hl : levelAfter 0 ts = 0
  · cases hb : t.beginsElement <;> simp [elementsAt, leveled, hl, hb]
  · simp [elementsAt, leveled, hl]

theorem mem_leveled_concat_iff {p : Nat × Token} :
    p ∈ leveled 0 (ts ++ [t]) ↔ p ∈ leveled 0 ts ∨ p = (levelAfter 0 ts, t) := by
  rw [leveled_append, List.mem_append]
  exact or_congr_right List.mem_singleton

theorem mayBegin_concat_iff : MayBegin (ts ++ [t]) ↔ MayBegin ts ∧ MayFollow ts t := by
  constructor
  · intro h
    have hone := h.one_element
    rw [elementsAt_concat] at hone
    have hold : MayBegin ts := by
      constructor
      · intro name hm
        exact h.matched name (mem_leveled_concat_iff.2 (.inl hm))
      · omega
      · intro t' ht
        exact h.no_stray t' (mem_leveled_concat_iff.2 (.inl ht))
    refine ⟨hold, fun hl => ⟨?_, ?_, ?_⟩⟩
    · rintro name rfl
      exact h.matched name (mem_leveled_concat_iff.2 (.inr (by rw [hl])))
    · exact h.no_stray t (mem_leveled_concat_iff.2 (.inr (by rw [hl])))
    · intro hb
      rw [if_pos ⟨hl, hb⟩] at hone
      omega
  · rintro ⟨h, hf⟩
    constructor
    · intro name hm
      rcases mem_leveled_concat_iff.1 hm with hm | he
      · exact h.matched name hm
      · obtain ⟨hl, ht⟩ := Prod.mk.inj he
        exact (hf hl.symm).1 name ht.symm
    · rw [elementsAt_concat]
      have hone := h.one_element
      split_ifs with hb
      · have hnone := (hf hb.1).2.2 hb.2
        omega
      · exact hone
    · intro t' ht
      rcases mem_leveled_concat_iff.1 ht with ht | he
      · exact h.no_stray t' ht
      · obtain ⟨hl, rfl⟩ := Prod.mk.inj he
        exact (hf hl.symm).2.1

theorem isDocument_iff :
    IsDocument ts ↔ MayBegin ts ∧ levelAfter 0 ts = 0 ∧ elementsAt 0 (leveled 0 ts) ≠ 0 := by
  constructor
  · intro h
    have hone := h.one_element
    exact ⟨⟨h.matched, by omega, h.no_stray⟩, h.closed, by omega⟩
  · rintro ⟨h, hc, hne⟩
    have hone := h.one_element
    exact ⟨h.matched, hc, by omega, h.no_stray⟩

/-- What can become a document is what may begin one. -/
theorem completable_iff : Completable ts ↔ MayBegin ts := by
  constructor
  · rintro ⟨rest, -, h⟩
    have hwhere : ∀ p ∈ leveled 0 ts, p ∈ leveled 0 (ts ++ rest) := by
      intro p hp
      rw [leveled_append]
      exact List.mem_append_left _ hp
    have hone := h.one_element
    rw [leveled_append, elementsAt_append] at hone
    constructor
    · intro name hm
      exact h.matched name (hwhere _ hm)
    · omega
    · intro t ht
      exact h.no_stray t (hwhere _ ht)
  · intro h
    exact h.completable

/-! ## What the builder holds -/

theorem consumed_empty : Consumed [] .empty where
  sound := sound_empty
  opened _ ho := absurd ho List.not_mem_nil
  level := rfl
  elements := rfl

namespace Consumed

theorem current_eq_root_iff (h : Consumed ts b) : b.current = .root ↔ levelAfter 0 ts = 0 := by
  rw [← h.level, Builder.current]
  cases ho : b.opened with
  | nil => simp
  | cons innermost outer =>
    have hne : innermost.id ≠ .root := (h.opened innermost (by rw [ho]; exact List.mem_cons_self)).2
    simp [hne]

theorem opened_eq_nil_iff (h : Consumed ts b) : b.opened = [] ↔ levelAfter 0 ts = 0 := by
  rw [← h.level, List.length_eq_zero_iff]

theorem container (h : Consumed ts b) : b.document.isContainer b.current = true := by
  rw [Builder.current]
  cases ho : b.opened with
  | nil =>
    have hroot : b.document.kind? .root = some .root := (h.sound.shaped.root_iff .root).2 rfl
    simp [isContainer, hroot, NodeKind.isContainer]
  | cons innermost outer =>
    exact (h.opened innermost (by rw [ho]; exact List.mem_cons_self)).1

/-- A node may be put at the place where the builder is if its token may stand there. -/
theorem ready (h : Consumed ts b) (hf : MayFollow ts t)
    (he : t.beginsElement = kind.element?.isSome)
    (hp : levelAfter 0 ts = 0 → kind.isCharacterData = false) : Ready b (.cons kind .nil .nil) where
  sound := h.sound
  container := h.container
  one_element hr := by
    obtain ⟨-, -, hone⟩ := hf (h.current_eq_root_iff.1 hr)
    have htops : (Forest.cons kind .nil .nil).tops = [kind] := rfl
    rw [h.elements, htops, List.filter_singleton, ← he]
    cases hb : t.beginsElement with
    | false =>
      have hshaped := h.sound.shaped.one_element
      rw [h.elements] at hshaped
      simpa using hshaped
    | true =>
      rw [hone hb]
      simp
  no_characters hr k hk := by
    obtain rfl := List.mem_singleton.1 hk
    exact hp (h.current_eq_root_iff.1 hr)

theorem exists_append (h : Consumed ts b) (hk : b.Adds t kind) (hf : MayFollow ts t) :
    ∃ b' id, b.append kind = .ok (b', id) := by
  have hcharacters (hl : levelAfter 0 ts = 0) : kind.isCharacterData = false :=
    Bool.eq_false_iff.2 fun hc => hk.opened_ne_nil hc (h.opened_eq_nil_iff.2 hl)
  obtain ⟨b', id, ha, -⟩ := append_eq_ok (h.ready hf hk.beginsElement_eq hcharacters) hk.ne_root
  exact ⟨b', id, ha⟩

/-- A token that may stand after the tokens is taken in. -/
theorem exists_feed (h : Consumed ts b) (hd : t.IsDecodable) (hf : MayFollow ts t) :
    ∃ b', b.feed t = .ok b' := by
  have hnode {kind : NodeKind} (hk : b.Adds t kind) : ∃ b', b.feed t = .ok b' := by
    obtain ⟨b', id, ha⟩ := h.exists_append hk hf
    exact ⟨b', Builder.feed_of_takes (.node hk ha)⟩
  cases t with
  | declaration tag =>
    obtain ⟨declaration, hdeclaration⟩ := hd
    exact ⟨_, Builder.feed_of_takes (.declaration hdeclaration)⟩
  | doctype content => exact ⟨_, Builder.feed_of_takes (.doctype content)⟩
  | start tag =>
    obtain ⟨e, he⟩ := hd
    have hempty : MayFollow ts (.empty tag) := fun hl => ⟨by simp, rfl, fun _ => (hf hl).2.2 rfl⟩
    obtain ⟨b', id, ha⟩ := h.exists_append (.empty he) hempty
    exact ⟨_, Builder.feed_of_takes (.start he ha)⟩
  | empty tag =>
    obtain ⟨e, he⟩ := hd
    exact hnode (.empty he)
  | close name =>
    cases ho : b.opened with
    | nil => exact absurd rfl ((hf (h.opened_eq_nil_iff.1 ho)).1 name)
    | cons innermost outer => exact ⟨_, Builder.feed_of_takes (.close name ho)⟩
  | text raw =>
    obtain ⟨content, hc⟩ := hd
    by_cases hcounts : Text.allBlank content = false ∨ b.preserving = true
    · refine hnode (.text hc (fun ho => ?_) hcounts)
      have hplain := (hf (h.opened_eq_nil_iff.1 ho)).2.1
      have hblank : Text.allBlank content = true := by
        simpa [Token.isStray, hc, Except.toOption] using hplain
      simp [hblank, Builder.preserving_of_opened_nil ho] at hcounts
    · obtain ⟨hblank, hp⟩ : Text.allBlank content = true ∧ b.preserving = false := by
        simpa using hcounts
      exact ⟨b, Builder.feed_of_takes (.blank hc hblank hp)⟩
  | cdata content =>
    refine hnode (.cdata fun ho => ?_)
    exact absurd (hf (h.opened_eq_nil_iff.1 ho)).2.1 (by simp [Token.isStray])
  | comment content => exact hnode (.comment content)
  | instruction content =>
    obtain ⟨target, rest, hi⟩ := instructionOf_eq content
    exact hnode (.instruction hi)
  | endOfInput => exact absurd hd id

theorem grown_of_append (h : Consumed ts b) (ha : b.append kind = .ok (b', id)) :
    b'.opened = b.opened ∧ Grown b.document b'.document b.current (.cons id .nil .nil) ∧
      b'.document.kind? id = some kind ∧
      (b.current = .root → kind.element?.isSome = true → b.document.childElements .root = []) := by
  obtain ⟨rfl, ho, happend⟩ := Builder.append_eq_ok_iff.1 ha
  obtain ⟨hnone, -⟩ := (appendChild_create_iff h.sound.linked h.container kind).1 happend
  obtain ⟨d', ha', hg, hk⟩ := h.sound.appendChild_create h.container kind hnone
  obtain rfl := Except.ok.inj (happend.symm.trans ha')
  exact ⟨ho, hg, hk, hnone⟩

/-- What is held after a token that puts a new node in its place. -/
theorem append (h : Consumed ts b) (hadds : b.Adds t kind) (ha : b.append kind = .ok (b', id)) :
    Consumed (ts ++ [t]) b' := by
  obtain ⟨ho, hg, hk, -⟩ := h.grown_of_append ha
  constructor
  · exact Builder.sound_of_append h.sound hadds.ne_root ha
  · intro o hm
    rw [ho] at hm
    obtain ⟨hc, hne⟩ := h.opened o hm
    refine ⟨?_, hne⟩
    rw [isContainer_congr (hg.kind?_eq o.id (holds_of_isContainer hc))]
    exact hc
  · rw [ho, h.level, levelAfter_append]
    exact (hadds.levelAfter_eq _).symm
  · rw [elementsAt_concat, ← h.elements, hadds.beginsElement_eq]
    by_cases hroot : b.current = .root
    · rw [hroot] at hg
      have hkind : b'.document.kindOf id = kind := by rw [kindOf, hk]; rfl
      have htops : ((Forest.cons id .nil .nil).map b'.document.kindOf).tops = [kind] := by
        rw [Forest.map, hkind]
        rfl
      rw [hg.length_childElements h.sound.linked, htops, List.filter_singleton]
      simp only [h.current_eq_root_iff.1 hroot, true_and]
      cases kind.element?.isSome <;> rfl
    · have hlevel : levelAfter 0 ts ≠ 0 := fun hz => hroot (h.current_eq_root_iff.2 hz)
      rw [hg.childElements_root h.sound.linked hroot, if_neg fun hz => hlevel hz.1, Nat.add_zero]

/-- What is held after a token that leaves the tree and the open elements as they are. -/
theorem skip (h : Consumed ts b) (d : Document)
    (hl : t.levelAfter (levelAfter 0 ts) = levelAfter 0 ts) (he : t.beginsElement = false) :
    Consumed (ts ++ [t]) ⟨b.document.withPrologOf d, b.opened⟩ where
  sound := h.sound.withPrologOf d
  opened := h.opened
  level := by
    rw [h.level, levelAfter_append]
    exact hl.symm
  elements := by
    rw [elementsAt_concat, ← h.elements, if_neg (by simp [he])]
    rfl

theorem push {tag : Tag} {e : Element} {preserving : Bool} (h : Consumed ts b)
    (he : tag.element = .ok e) (ha : b.append (.element e) = .ok (b', id)) :
    Consumed (ts ++ [.start tag]) ⟨b'.document, ⟨id, preserving⟩ :: b'.opened⟩ := by
  obtain ⟨-, hg, hk, -⟩ := h.grown_of_append ha
  have hadded : Consumed (ts ++ [.empty tag]) b' := h.append (.empty he) ha
  refine ⟨hadded.sound, fun o hm => ?_, ?_, ?_⟩
  · rcases List.mem_cons.1 hm with rfl | hm
    · refine ⟨by simp [isContainer, hk, NodeKind.isContainer], ?_⟩
      rintro rfl
      have hnew := hg.new .root List.mem_cons_self
      exact absurd h.sound.linked.root_held (Nat.not_lt_of_le hnew)
    · exact hadded.opened o hm
  · have hlevel := hadded.level
    rw [levelAfter_append] at hlevel ⊢
    rw [List.length_cons, hlevel]
    rfl
  · rw [hadded.elements, elementsAt_concat, elementsAt_concat]
    rfl

theorem feed (h : Consumed ts b) (hd : t.IsDecodable) (hf : b.feed t = .ok b') :
    Consumed (ts ++ [t]) b' := by
  cases Builder.takes_of_feed hf with
  | @declaration _ declaration _ => exact h.skip ⟨declaration, b.document.doctype, #[]⟩ rfl rfl
  | doctype content =>
    exact h.skip ⟨b.document.declaration, some (Text.trimSpace content), #[]⟩ rfl rfl
  | start he ha => exact h.push he ha
  | node hk ha => exact h.append hk ha
  | close name ho =>
    refine ⟨h.sound, fun o hm => h.opened o (ho ▸ List.mem_cons_of_mem _ hm), ?_, ?_⟩
    · have hlevel := h.level
      rw [ho, List.length_cons] at hlevel
      rw [levelAfter_append, ← hlevel]
      rfl
    · rw [elementsAt_concat, ← h.elements, if_neg (by simp [Token.beginsElement])]
      rfl
  | blank => exact h.skip b.document rfl rfl
  | endOfInput => exact absurd hd id

/-- A token that is taken in may stand after the tokens. -/
theorem mayFollow_of_feed (h : Consumed ts b) (hf : b.feed t = .ok b') : MayFollow ts t := by
  intro hl
  have ho : b.opened = [] := h.opened_eq_nil_iff.2 hl
  have hfirst {e : Element} {b₁ : Builder} {id : NodeId}
      (ha : b.append (.element e) = .ok (b₁, id)) : elementsAt 0 (leveled 0 ts) = 0 := by
    obtain ⟨-, -, -, hnone⟩ := h.grown_of_append ha
    rw [← h.elements, hnone (h.current_eq_root_iff.2 hl) rfl]
    rfl
  cases Builder.takes_of_feed hf with
  | start _ ha => exact ⟨by simp, rfl, fun _ => hfirst ha⟩
  | node hk ha =>
    cases hk with
    | empty => exact ⟨by simp, rfl, fun _ => hfirst ha⟩
    | text _ hne | cdata hne => exact absurd ho hne
    | comment | instruction => exact ⟨by simp, rfl, by simp [Token.beginsElement]⟩
  | close name hne => simp [ho] at hne
  | blank hc hblank =>
    exact ⟨by simp, by simp [Token.isStray, hc, Except.toOption, hblank],
      by simp [Token.beginsElement]⟩
  | declaration | doctype | endOfInput => exact ⟨by simp, rfl, by simp [Token.beginsElement]⟩

end Consumed

/-! ## Whole inputs -/

/-- A run over tokens keeps the account of what is open. -/
theorem consumed_of_feedAll (hd : ∀ t ∈ ts, t.IsDecodable) (h : Builder.empty.feedAll ts = .ok b) :
    Consumed ts b ∧ MayBegin ts := by
  induction ts using List.reverseRecOn generalizing b with
  | nil =>
    obtain rfl := Except.ok.inj h
    exact ⟨consumed_empty, fun _ hm => absurd hm List.not_mem_nil, Nat.zero_le 1,
      fun _ hm => absurd hm List.not_mem_nil⟩
  | append_singleton ts t ih =>
    obtain ⟨b₁, hts, hlast⟩ := Builder.feedAll_append_eq_ok_iff.1 h
    obtain ⟨b₂, ht, hnil⟩ := Builder.feedAll_cons_eq_ok_iff.1 hlast
    obtain rfl := Except.ok.inj hnil
    obtain ⟨hc, hm⟩ := ih (fun t ht => hd t (List.mem_append_left _ ht)) hts
    have hdecodable := hd t (List.mem_append_right _ List.mem_cons_self)
    exact ⟨hc.feed hdecodable ht, mayBegin_concat_iff.2 ⟨hm, hc.mayFollow_of_feed ht⟩⟩

/-- What may begin a document is taken in. -/
theorem exists_feedAll (hd : ∀ t ∈ ts, t.IsDecodable) (h : MayBegin ts) :
    ∃ b, Builder.empty.feedAll ts = .ok b := by
  induction ts using List.reverseRecOn with
  | nil => exact ⟨_, rfl⟩
  | append_singleton ts t ih =>
    obtain ⟨hm, hf⟩ := mayBegin_concat_iff.1 h
    have hd' : ∀ t ∈ ts, t.IsDecodable := fun t ht => hd t (List.mem_append_left _ ht)
    obtain ⟨b, hb⟩ := ih hd' hm
    obtain ⟨hc, -⟩ := consumed_of_feedAll hd' hb
    obtain ⟨b', ht⟩ := hc.exists_feed (hd t (List.mem_append_right _ List.mem_cons_self)) hf
    exact ⟨b', Builder.feedAll_append_eq_ok_iff.2
      ⟨b, hb, Builder.feedAll_cons_eq_ok_iff.2 ⟨b', ht, rfl⟩⟩⟩

theorem Consumed.finish_eq_ok_iff (h : Consumed ts b) : b.finish = .ok b.document ↔
    levelAfter 0 ts = 0 ∧ elementsAt 0 (leveled 0 ts) ≠ 0 := by
  rw [← h.level, ← h.elements, List.length_eq_zero_iff, Builder.finish]
  cases b.opened with
  | cons innermost outer => simp
  | nil =>
    rw [documentElement?]
    cases b.document.childElements .root with
    | nil => simp
    | cons child children => simp

theorem build_eq_ok_iff {d : Document} (hd : ∀ t ∈ ts, t.IsDecodable) :
    Builder.build ts = .ok d ↔
      ∃ b, Builder.empty.feedAll ts = .ok b ∧ b.document = d ∧ IsDocument ts := by
  rw [Builder.build, Outcome.bind_eq_ok_iff]
  refine exists_congr fun b => and_congr_right fun hb => ?_
  obtain ⟨hc, hm⟩ := consumed_of_feedAll hd hb
  constructor
  · intro hf
    obtain rfl := Builder.finish_eq_ok hf
    exact ⟨rfl, isDocument_iff.2 ⟨hm, hc.finish_eq_ok_iff.1 hf⟩⟩
  · rintro ⟨rfl, hdoc⟩
    exact hc.finish_eq_ok_iff.2 (isDocument_iff.1 hdoc).2

/-- The forest of a document may stand under the root of the empty document. -/
theorem IsDocument.ready {f : Forest NodeKind} (h : IsDocument ts) (hf : Denotes false ts f) :
    Ready .empty f where
  sound := sound_empty
  container := rfl
  one_element _ := by
    have helements := (hf.outlines 0).elements
    rw [h.one_element] at helements
    rw [← helements]
    exact Nat.le_refl 1
  no_characters _ kind hk := by
    by_contra hc
    obtain ⟨t, ht, hs⟩ := (hf.outlines 0).stray rfl kind hk (by simpa using hc)
    rw [h.no_stray t ht] at hs
    exact absurd hs (by simp)

/-- The tree of a document is the forest that its tokens denote. -/
theorem IsDocument.payloads_eq {f : Forest NodeKind} (h : IsDocument ts) (hf : Denotes false ts f)
    (hb : Builder.empty.feedAll ts = .ok b) : b.document.payloads = f := by
  obtain ⟨b', g, ht, -, hs, hg, hm⟩ := hf.raises (b := .empty) rfl (h.ready hf)
  obtain rfl := Except.ok.inj (hb.symm.trans ht)
  have htops : g.tops = b.document.children .root := by
    have hchildren : b.document.children .root = Document.empty.children .root ++ g.tops :=
      hg.children_parent
    rw [hchildren, children_empty, List.nil_append]
  have hshows : b.document.Shows g := hg.shows.congr fun _ _ => rfl
  rw [hs.linked.payloads_eq htops hshows, hm]

/-- A token is refused exactly if no document is possible any more after it. -/
theorem exists_fault_iff (hd : ∀ t ∈ ts, t.IsDecodable) (ht : t.IsDecodable) :
    (∃ b cause, Builder.empty.feedAll ts = .ok b ∧ b.feed t = .error cause) ↔
      Completable ts ∧ ¬ Completable (ts ++ [t]) := by
  rw [completable_iff, completable_iff, mayBegin_concat_iff]
  constructor
  · rintro ⟨b, cause, hb, hf⟩
    obtain ⟨hc, hm⟩ := consumed_of_feedAll hd hb
    refine ⟨hm, fun ⟨_, hfollow⟩ => ?_⟩
    obtain ⟨b', hf'⟩ := hc.exists_feed ht hfollow
    rw [hf] at hf'
    simp at hf'
  · rintro ⟨hm, hnot⟩
    obtain ⟨b, hb⟩ := exists_feedAll hd hm
    obtain ⟨hc, -⟩ := consumed_of_feedAll hd hb
    cases hf : b.feed t with
    | ok b' => exact absurd ⟨hm, hc.mayFollow_of_feed hf⟩ hnot
    | error cause => exact ⟨b, cause, hb, hf⟩

/-- The end of the input is refused exactly if something is still to come. -/
theorem exists_unfinished_iff (hd : ∀ t ∈ ts, t.IsDecodable) :
    (∃ b cause, Builder.empty.feedAll ts = .ok b ∧ b.finish = .error cause) ↔
      Completable ts ∧ ¬ IsDocument ts := by
  rw [completable_iff]
  constructor
  · rintro ⟨b, cause, hb, hf⟩
    obtain ⟨hc, hm⟩ := consumed_of_feedAll hd hb
    refine ⟨hm, fun hdoc => ?_⟩
    rw [hc.finish_eq_ok_iff.2 (isDocument_iff.1 hdoc).2] at hf
    simp at hf
  · rintro ⟨hm, hnot⟩
    obtain ⟨b, hb⟩ := exists_feedAll hd hm
    obtain ⟨hc, -⟩ := consumed_of_feedAll hd hb
    cases hf : b.finish with
    | ok d =>
      obtain rfl := Builder.finish_eq_ok hf
      exact absurd (isDocument_iff.2 ⟨hm, hc.finish_eq_ok_iff.1 hf⟩) hnot
    | error cause => exact ⟨b, cause, hb, hf⟩

/-- Tokens are accepted exactly if they make up a document; then its tree is the forest that they
denote, and the last declarations count. Otherwise the fault is found at the first token after which
no document is possible any more, or at the end of the input. -/
theorem Builder.build_accepts_documents (ts : List Token) (hd : ∀ t ∈ ts, t.IsDecodable) :
    ((∃ d, Builder.build ts = .ok d) ↔ IsDocument ts) ∧
    (∀ d, Builder.build ts = .ok d → d.Sound ∧ (∀ f, Denotes false ts f ↔ f = d.payloads) ∧
      d.declaration = (ts.filterMap Token.declaration?).getLast? ∧
      d.doctype = (ts.filterMap Token.doctype?).getLast?) ∧
    (∀ before t after, ts = before ++ t :: after →
      ((∃ b cause, Builder.empty.feedAll before = .ok b ∧ b.feed t = .error cause) ↔
        Completable before ∧ ¬ Completable (before ++ [t]))) ∧
    ((∃ b cause, Builder.empty.feedAll ts = .ok b ∧ b.finish = .error cause) ↔
      Completable ts ∧ ¬ IsDocument ts) := by
  refine ⟨⟨?_, ?_⟩, ?_, ?_, exists_unfinished_iff hd⟩
  · rintro ⟨d, h⟩
    obtain ⟨b, -, -, hdoc⟩ := (build_eq_ok_iff hd).1 h
    exact hdoc
  · intro hdoc
    obtain ⟨b, hb⟩ := exists_feedAll hd (isDocument_iff.1 hdoc).1
    exact ⟨b.document, (build_eq_ok_iff hd).2 ⟨b, hb, rfl, hdoc⟩⟩
  · intro d h
    obtain ⟨b, hb, rfl, hdoc⟩ := (build_eq_ok_iff hd).1 h
    obtain ⟨hc, -⟩ := consumed_of_feedAll hd hb
    obtain ⟨hdeclaration, hdoctype⟩ := prolog_of_feedAll hb
    refine ⟨hc.sound, fun f => ⟨fun hf => (hdoc.payloads_eq hf hb).symm, ?_⟩, ?_, ?_⟩
    · rintro rfl
      obtain ⟨f, hf⟩ := hdoc.exists_denotes hd
      rw [hdoc.payloads_eq hf hb]
      exact hf
    · rw [hdeclaration]
      exact Option.or_none
    · rw [hdoctype]
      exact Option.or_none
  · rintro before t after rfl
    have hbefore : ∀ t ∈ before, t.IsDecodable := fun t ht => hd t (List.mem_append_left _ ht)
    exact exists_fault_iff hbefore (hd t (List.mem_append_right _ List.mem_cons_self))

/-- Of two elements side by side the second one is refused. -/
theorem Builder.build_accepts_documents_of_two_elements :
    (∀ t ∈ [Token.empty ⟨"a", []⟩, .empty ⟨"b", []⟩], t.IsDecodable) ∧
    ∃ b cause, Builder.empty.feedAll [.empty ⟨"a", []⟩] = .ok b ∧
      b.feed (.empty ⟨"b", []⟩) = .error cause := by
  have hd : ∀ t ∈ [Token.empty ⟨"a", []⟩, .empty ⟨"b", []⟩], t.IsDecodable := by
    intro t ht
    simp only [List.mem_cons, List.not_mem_nil, or_false] at ht
    rcases ht with rfl | rfl
    · exact ⟨⟨QName.ofString "a", []⟩, rfl⟩
    · exact ⟨⟨QName.ofString "b", []⟩, rfl⟩
  obtain ⟨-, -, hfault, -⟩ := Builder.build_accepts_documents _ hd
  have hone : MayBegin [.empty ⟨"a", []⟩] :=
    ⟨by simp [leveled], by decide, by simp [leveled, Token.isStray]⟩
  have htwo : ¬ MayBegin [.empty ⟨"a", []⟩, .empty ⟨"b", []⟩] :=
    fun h => absurd h.one_element (by decide)
  exact ⟨hd, (hfault [.empty ⟨"a", []⟩] (.empty ⟨"b", []⟩) [] rfl).2
    ⟨completable_iff.2 hone, fun h => htwo (completable_iff.1 h)⟩⟩

end SvgPress.Markup
