import SvgPress.Proofs.Markup.Brackets
import SvgPress.Proofs.Tree.Grown

/-!
# What tokens build

Tokens that denote a forest, taken in where this forest may stand, put new nodes with its payloads
after the children of the innermost open element. Of what was there before they change only what
precedes the tree.
-/

namespace SvgPress

namespace Document

/-- The document with what precedes the tree of another one. -/
def withPrologOf (d other : Document) : Document :=
  { d with declaration := other.declaration, doctype := other.doctype }

variable {d d₁ d₂ : Document} {parent : NodeId} {f g : Forest NodeId}

theorem Grown.withPrologOf (h : Grown d d₁ parent f) (other : Document) :
    Grown (d.withPrologOf other) (d₁.withPrologOf other) parent f :=
  ⟨h.size_le, rfl, rfl, h.children_parent, h.children_other, h.kind?_eq,
    h.shows.congr fun _ _ => rfl, h.new, h.held⟩

theorem Sound.withPrologOf (h : d.Sound) (other : Document) : (d.withPrologOf other).Sound :=
  h.of_nodes rfl

end Document

namespace Markup

open Document

/-- The trees may be put at the place where the builder is. -/
structure Ready (b : Builder) (f : Forest NodeKind) : Prop where
  sound : b.document.Sound
  container : b.document.isContainer b.current = true
  one_element : b.current = .root → (b.document.childElements .root).length +
    (f.tops.filter fun kind => kind.element?.isSome).length ≤ 1
  no_characters : b.current = .root → ∀ kind ∈ f.tops, kind.isCharacterData = false

/-- Take in tokens one after the other. -/
def Builder.feedAll (b : Builder) (ts : List Token) : Except SyntaxError Builder :=
  ts.foldlM Builder.feed b

/-- Taking in the tokens puts the trees after what stands at the place where the builder is. -/
def Raises (b : Builder) (ts : List Token) (f : Forest NodeKind) : Prop :=
  ∃ b' g, b.feedAll ts = .ok b' ∧ b'.opened = b.opened ∧ b'.document.Sound ∧
    Grown b.document (b'.document.withPrologOf b.document) b.current g ∧
    g.map b'.document.kindOf = f

variable {b b' b₁ : Builder} {ts ts' : List Token} {t : Token} {f : Forest NodeKind}
  {kind : NodeKind} {below rest : Forest NodeKind}

theorem Builder.feedAll_cons_eq_ok_iff :
    b.feedAll (t :: ts) = .ok b' ↔ ∃ b₁, b.feed t = .ok b₁ ∧ b₁.feedAll ts = .ok b' := by
  rw [feedAll, List.foldlM_cons, Outcome.bind_eq_ok_iff]
  rfl

theorem Builder.feedAll_append_eq_ok_iff :
    b.feedAll (ts ++ ts') = .ok b' ↔ ∃ b₁, b.feedAll ts = .ok b₁ ∧ b₁.feedAll ts' = .ok b' := by
  rw [feedAll, List.foldlM_append, Outcome.bind_eq_ok_iff]
  rfl

theorem current_eq_of_opened (h : b'.opened = b.opened) : b'.current = b.current := by
  rw [Builder.current, Builder.current, h]

theorem preserving_eq_of_opened (h : b'.opened = b.opened) : b'.preserving = b.preserving := by
  rw [Builder.preserving, Builder.preserving, h]

theorem Ready.first (h : Ready b (.cons kind below rest)) : Ready b (.cons kind below .nil) where
  sound := h.sound
  container := h.container
  one_element hr := by
    have hone := h.one_element hr
    simp only [Forest.tops, List.filter_cons, List.filter_nil] at hone ⊢
    split_ifs at hone ⊢ <;> simp only [List.length_cons, List.length_nil] at hone ⊢ <;> omega
  no_characters hr k hk := by
    obtain rfl := List.mem_singleton.1 hk
    exact h.no_characters hr k List.mem_cons_self

/-- Where a tree has been put, there is still place for the trees after it. -/
theorem Raises.cons (hfirst : Raises b ts (.cons kind below .nil))
    (h : Ready b (.cons kind below rest))
    (hrest : ∀ b', b'.opened = b.opened → Ready b' rest → Raises b' ts' rest) :
    Raises b (ts ++ ts') (.cons kind below rest) := by
  obtain ⟨b₁, g₁, ht₁, ho₁, hs₁, hg₁, hf₁⟩ := hfirst
  have hcurrent := current_eq_of_opened ho₁
  have hp : b.document.Holds b.current := holds_of_isContainer h.container
  have hready : Ready b₁ rest := by
    refine ⟨hs₁, ?_, fun hr => ?_, fun hr k hk => ?_⟩
    · have hsame : b₁.document.isContainer b.current = b.document.isContainer b.current :=
        isContainer_congr (hg₁.kind?_eq _ hp)
      rw [hcurrent, hsame]
      exact h.container
    · rw [hcurrent] at hr
      have hone := h.one_element hr
      have hlength := hg₁.length_childElements h.sound.linked
      rw [hr] at hlength
      have hf₁' : g₁.map (b₁.document.withPrologOf b.document).kindOf = .cons kind below .nil := hf₁
      rw [hf₁'] at hlength
      have hsame : (b₁.document.childElements .root).length =
          ((b₁.document.withPrologOf b.document).childElements .root).length := rfl
      rw [hsame, hlength]
      simp only [Forest.tops, List.filter_cons, List.filter_nil] at hone ⊢
      split_ifs at hone ⊢ <;> simp only [List.length_cons, List.length_nil] at hone ⊢ <;> omega
    · rw [hcurrent] at hr
      exact h.no_characters hr k (List.mem_cons_of_mem _ hk)
  obtain ⟨b₂, g₂, ht₂, ho₂, hs₂, hg₂, hf₂⟩ := hrest b₁ ho₁ hready
  rw [hcurrent] at hg₂
  have hg₂' := hg₂.withPrologOf b.document
  refine ⟨b₂, g₁ ++ g₂, Builder.feedAll_append_eq_ok_iff.2 ⟨_, ht₁, ht₂⟩, ho₂.trans ho₁, hs₂,
    hg₁.trans hg₂' hp, ?_⟩
  have hmap := hg₁.map_kindOf_append hg₂'
  have hf₁' : g₁.map (b₁.document.withPrologOf b.document).kindOf = .cons kind below .nil := hf₁
  rw [hf₁'] at hmap
  have hall : (g₁ ++ g₂).map b₂.document.kindOf =
      .cons kind below .nil ++ g₂.map b₂.document.kindOf :=
    hmap
  rw [hall, hf₂]
  rfl

/-! ## Nodes -/

theorem append_eq_ok (h : Ready b (.cons kind .nil .nil)) (hr : kind ≠ .root) : ∃ b' id,
    b.append kind = .ok (b', id) ∧ b'.opened = b.opened ∧ b'.document.Sound ∧
      Grown b.document b'.document b.current (.cons id .nil .nil) ∧
      b'.document.kind? id = some kind := by
  obtain ⟨d', ha, hg, hk⟩ := h.sound.appendChild_create h.container kind fun hroot helement => by
    have hone := h.one_element hroot
    simp only [Forest.tops, List.filter_cons, helement, if_true, List.length_cons] at hone
    exact List.length_eq_zero_iff.1 (by omega)
  have happend : b.append kind = .ok (⟨d', b.opened⟩, (b.document.create kind).2) :=
    Builder.append_eq_ok_iff.2 ⟨rfl, rfl, ha⟩
  exact ⟨_, _, happend, rfl, Builder.sound_of_append h.sound hr happend, hg, hk⟩

/-- A token that puts a new node there, and tokens that build what stands after this node. -/
theorem raises_node (h : Ready b (.cons kind .nil rest)) (hadds : b.Adds t kind)
    (hrest : ∀ b', b'.opened = b.opened → Ready b' rest → Raises b' ts rest) :
    Raises b (t :: ts) (.cons kind .nil rest) := by
  obtain ⟨b', id, ha, ho, hs, hg, hk⟩ := append_eq_ok h.first hadds.ne_root
  have hfirst : Raises b [t] (.cons kind .nil .nil) := by
    refine ⟨b', _, Builder.feedAll_cons_eq_ok_iff.2 ⟨_, Builder.feed_of_takes (.node hadds ha),
      rfl⟩, ho, hs, hg.withPrologOf b.document, ?_⟩
    rw [Forest.map, kindOf, hk]
    rfl
  exact hfirst.cons h hrest

theorem opened_ne_nil (h : Ready b (.cons kind below rest)) (hk : kind.isCharacterData = true) :
    b.opened ≠ [] := by
  intro ho
  have hroot : b.current = .root := by rw [Builder.current, ho]
  rw [h.no_characters hroot kind List.mem_cons_self] at hk
  exact absurd hk (by simp)

/-- The tags of an element put it there, with what stands between them below it. -/
theorem raises_element {tag : Tag} {e : Element} (name : String)
    (h : Ready b (.cons (.element e) below .nil)) (he : tag.element = .ok e)
    (hinside : ∀ b', Ready b' below → b'.preserving = preservesBlanks b.preserving e →
      Raises b' ts below) :
    Raises b (.start tag :: (ts ++ [.close name])) (.cons (.element e) below .nil) := by
  have hready : Ready b (.cons (.element e) .nil .nil) := ⟨h.sound, h.container, h.one_element,
    h.no_characters⟩
  obtain ⟨b₁, id, ha, ho₁, hs₁, hg₁, hk₁⟩ := append_eq_ok hready (by simp)
  have hheld : b₁.document.Holds id := hg₁.held id List.mem_cons_self
  have hroot : id ≠ .root := by
    rintro rfl
    have hnew := hg₁.new .root List.mem_cons_self
    exact absurd h.sound.linked.root_held (Nat.not_lt_of_le hnew)
  obtain ⟨b₂, g, ht, ho₂, hs₂, hg₂, hf₂⟩ := hinside
    ⟨b₁.document, ⟨id, preservesBlanks b.preserving e⟩ :: b₁.opened⟩
    ⟨hs₁, by simp [Builder.current, isContainer, hk₁, NodeKind.isContainer],
      fun hr => absurd hr hroot, fun hr => absurd hr hroot⟩ rfl
  have hstart : b.feed (.start tag) =
      .ok ⟨b₁.document, ⟨id, preservesBlanks b.preserving e⟩ :: b₁.opened⟩ :=
    Builder.feed_of_takes (.start he ha)
  have hclose : b₂.feed (.close name) = .ok ⟨b₂.document, b₁.opened⟩ :=
    Builder.feed_of_takes (.close name ho₂)
  have hg₂' := hg₂.withPrologOf b.document
  refine ⟨⟨b₂.document, b₁.opened⟩, .cons id g .nil, ?_, ho₁, hs₂,
    (hg₁.withPrologOf b.document).nest hg₂' (holds_of_isContainer h.container), ?_⟩
  · exact Builder.feedAll_cons_eq_ok_iff.2 ⟨_, hstart, Builder.feedAll_append_eq_ok_iff.2 ⟨_, ht,
      Builder.feedAll_cons_eq_ok_iff.2 ⟨_, hclose, rfl⟩⟩⟩
  · have hkind : b₂.document.kindOf id = .element e := by
      have hsame : b₂.document.kindOf id = b₁.document.kindOf id := hg₂'.kindOf_eq hheld
      rw [hsame, kindOf, hk₁]
      rfl
    rw [Forest.map, hkind, hf₂]
    rfl

/-- A token that changes at most what precedes the tree may stand before tokens that build. -/
theorem Raises.skip {d : Document} (h : Raises ⟨b.document.withPrologOf d, b.opened⟩ ts f)
    (hf : b.feed t = .ok ⟨b.document.withPrologOf d, b.opened⟩) : Raises b (t :: ts) f := by
  obtain ⟨b', g, ht, ho, hs, hg, hm⟩ := h
  exact ⟨b', g, Builder.feedAll_cons_eq_ok_iff.2 ⟨_, hf, ht⟩, ho, hs,
    hg.withPrologOf b.document, hm⟩

theorem Ready.withPrologOf (h : Ready b f) (d : Document) :
    Ready ⟨b.document.withPrologOf d, b.opened⟩ f :=
  ⟨h.sound.withPrologOf d, h.container, h.one_element, h.no_characters⟩

/-- Tokens build the forest that they denote, wherever it may stand. -/
theorem Denotes.raises {around : Bool} (h : Denotes around ts f) (hp : b.preserving = around)
    (hr : Ready b f) : Raises b ts f := by
  induction h generalizing b with
  | nil => exact ⟨b, .nil, rfl, rfl, hr.sound, .refl _ _, rfl⟩
  | @element _ tag _ inside _ name _ _ he _ _ ihb ihr =>
    have hfirst : Raises b (.start tag :: (inside ++ [.close name])) _ :=
      raises_element name hr.first he fun b' hr' hp' => ihb (hp'.trans (hp ▸ rfl)) hr'
    have hall := hfirst.cons hr fun b' ho hr' => ihr ((preserving_eq_of_opened ho).trans hp) hr'
    simpa using hall
  | empty he _ ih =>
    exact raises_node hr (.empty he) fun b' ho hr' => ih ((preserving_eq_of_opened ho).trans hp) hr'
  | text hc hk _ ih =>
    exact raises_node hr (.text hc (opened_ne_nil hr rfl) (hp ▸ hk))
      fun b' ho hr' => ih ((preserving_eq_of_opened ho).trans hp) hr'
  | @blank raw content _ _ hc hk _ ih =>
    have hsame : b.feed (.text raw) = .ok ⟨b.document.withPrologOf b.document, b.opened⟩ :=
      Builder.feed_of_takes (.blank hc hk hp)
    have hlater : Raises ⟨b.document.withPrologOf b.document, b.opened⟩ _ _ :=
      ih hp (hr.withPrologOf b.document)
    exact hlater.skip hsame
  | cdata _ ih =>
    exact raises_node hr (.cdata (opened_ne_nil hr rfl))
      fun b' ho hr' => ih ((preserving_eq_of_opened ho).trans hp) hr'
  | comment _ ih =>
    exact raises_node hr (.comment _)
      fun b' ho hr' => ih ((preserving_eq_of_opened ho).trans hp) hr'
  | @instruction _ content _ _ _ ih =>
    obtain ⟨target, rest, hi⟩ := instructionOf_eq content
    rw [hi] at hr ⊢
    exact raises_node hr (.instruction hi)
      fun b' ho hr' => ih ((preserving_eq_of_opened ho).trans hp) hr'
  | @declaration _ tag _ _ declaration hd _ ih =>
    obtain ⟨prolog, hfeed⟩ : ∃ prolog, b.feed (.declaration tag) =
        .ok ⟨b.document.withPrologOf prolog, b.opened⟩ :=
      ⟨⟨declaration, b.document.doctype, #[]⟩, Builder.feed_of_takes (.declaration hd)⟩
    have hlater : Raises ⟨b.document.withPrologOf prolog, b.opened⟩ _ _ :=
      ih hp (hr.withPrologOf prolog)
    exact hlater.skip hfeed
  | @doctype _ content _ _ _ ih =>
    obtain ⟨prolog, hfeed⟩ : ∃ prolog, b.feed (.doctype content) =
        .ok ⟨b.document.withPrologOf prolog, b.opened⟩ :=
      ⟨⟨b.document.declaration, some (Text.trimSpace content), #[]⟩,
        Builder.feed_of_takes (.doctype content)⟩
    have hlater : Raises ⟨b.document.withPrologOf prolog, b.opened⟩ _ _ :=
      ih hp (hr.withPrologOf prolog)
    exact hlater.skip hfeed

/-! ## What precedes the tree -/

/-- The XML declaration that a token states. -/
def Token.declaration? : Token → Option XmlDeclaration
  | .declaration tag => (Builder.declarationOf tag).toOption
  | _ => none

/-- The document type that a token states. -/
def Token.doctype? : Token → Option String
  | .doctype content => some (Text.trimSpace content)
  | _ => none

theorem prolog_of_append {id : NodeId} (h : b.append kind = .ok (b', id)) :
    b'.document.declaration = b.document.declaration ∧
      b'.document.doctype = b.document.doctype := by
  obtain ⟨rfl, -, happend⟩ := Builder.append_eq_ok_iff.1 h
  obtain ⟨-, -, -, -, -, hinsert⟩ := insertChild_eq_ok_iff.1 happend
  rw [hinsert]
  have hdetached := prolog_detach (b.document.create kind).1 (b.document.create kind).2
  exact hdetached

/-- A token changes what precedes the tree to what it states. -/
theorem prolog_of_feed (h : b.feed t = .ok b') :
    b'.document.declaration = t.declaration?.or b.document.declaration ∧
      b'.document.doctype = t.doctype?.or b.document.doctype := by
  cases Builder.takes_of_feed h with
  | declaration hd =>
    rw [Token.declaration?, hd]
    exact ⟨rfl, rfl⟩
  | start _ ha =>
    have hsame := prolog_of_append ha
    exact hsame
  | node hk ha =>
    have hsame := prolog_of_append ha
    cases hk <;> exact hsame
  | doctype | close | blank | endOfInput => exact ⟨rfl, rfl⟩

theorem getLast?_filterMap_cons {α β : Type} (stated : α → Option β) (a : α) (as : List α) :
    ((a :: as).filterMap stated).getLast? =
      (as.filterMap stated).getLast?.or (stated a) := by
  rw [← List.singleton_append, List.filterMap_append, List.getLast?_append, List.filterMap_cons]
  cases stated a <;> rfl

/-- The last declarations among the tokens are the ones that count. -/
theorem prolog_of_feedAll (h : b.feedAll ts = .ok b') :
    b'.document.declaration = (ts.filterMap Token.declaration?).getLast?.or b.document.declaration ∧
      b'.document.doctype = (ts.filterMap Token.doctype?).getLast?.or b.document.doctype := by
  induction ts generalizing b with
  | nil =>
    obtain rfl := Except.ok.inj h
    exact ⟨rfl, rfl⟩
  | cons t ts ih =>
    obtain ⟨b₁, ht, hts⟩ := Builder.feedAll_cons_eq_ok_iff.1 h
    obtain ⟨hd, hn⟩ := prolog_of_feed ht
    obtain ⟨hd', hn'⟩ := ih hts
    rw [hd', hn', hd, hn, getLast?_filterMap_cons, getLast?_filterMap_cons, Option.or_assoc,
      Option.or_assoc]
    exact ⟨rfl, rfl⟩

end Markup

end SvgPress
