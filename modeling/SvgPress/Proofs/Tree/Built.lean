import SvgPress.Proofs.Checked
import SvgPress.Proofs.Markup.Feeding
import SvgPress.Proofs.Markup.Reading

/-!
# Documents that are read or built

A document that is read from a text, and a fragment that is built from a description, has consistent
links and payloads that fit their places: both grow from the empty document, one new node at a time.
-/

namespace SvgPress

namespace Document

/-- Consistent links, and payloads that fit their places. -/
structure Sound (d : Document) : Prop where
  linked : d.Linked
  shaped : d.Shaped

variable {d d' : Document} {id parent child : NodeId}

theorem parent?_empty (id : NodeId) : Document.empty.parent? id = none := by
  obtain ⟨i⟩ := id
  cases i <;> rfl

theorem children_empty (id : NodeId) : Document.empty.children id = [] := by
  obtain ⟨i⟩ := id
  cases i <;> rfl

theorem sound_empty : Document.empty.Sound := by
  refine ⟨⟨Nat.one_pos, parent?_empty _, ?_, ?_, ?_⟩, ⟨?_, ?_, ?_⟩⟩
  · intro child parent
    simp [parent?_empty, children_empty]
  · intro id
    rw [children_empty]
    exact List.nodup_nil
  · refine ⟨fun id => ⟨_, fun above ha => ?_⟩⟩
    rw [IsParent, parent?_empty] at ha
    exact absurd ha (by simp)
  · intro parent child hm
    simp [children_empty] at hm
  · rintro ⟨i⟩
    cases i with
    | zero => exact iff_of_true rfl rfl
    | succ i => exact iff_of_false (by simp [kind?, node?, Document.empty]) (by simp [NodeId.root])
  · rw [childElements, children_empty]
    exact Nat.zero_le 1

theorem Sound.of_nodes (h : d.Sound) (hn : d'.nodes = d.nodes) : d'.Sound := by
  have hnode : ∀ id, d'.node? id = d.node? id := fun id => by rw [node?, node?, hn]
  have hp : ∀ id, d'.parent? id = d.parent? id := fun id => by rw [parent?, parent?, hnode]
  have hc : ∀ id, d'.children id = d.children id := fun id => by rw [children, children, hnode]
  have hk : ∀ id, d'.kind? id = d.kind? id := fun id => by rw [Document.kind?, Document.kind?, hnode]
  exact ⟨h.linked.of_links (by rw [hn]) hp hc, h.shaped.congr hk hc⟩

/-- A new node of any kind but the root leaves a document sound. -/
theorem Sound.create (h : d.Sound) {kind : NodeKind} (hk : kind ≠ .root) :
    (d.create kind).1.Sound :=
  ⟨h.linked.create kind, h.shaped.create h.linked hk⟩

/-- An insertion that succeeds leaves a document sound. -/
theorem Sound.insertChild (h : d.Sound) {index : Nat} (hc : d.Holds child)
    (hi : d.insertChild parent index child = .ok d') : d'.Sound :=
  ⟨h.linked.insertChild hc hi, h.shaped.insertChild h.linked hi⟩

theorem Sound.appendChild (h : d.Sound) (hc : d.Holds child)
    (ha : d.appendChild parent child = .ok d') : d'.Sound :=
  h.insertChild hc ha

theorem size_of_insertChild {index : Nat} (h : d.insertChild parent index child = .ok d') :
    d'.nodes.size = d.nodes.size := by
  obtain ⟨-, -, -, -, -, rfl⟩ := insertChild_eq_ok_iff.1 h
  simp

end Document

/-! ## Described content -/

namespace Content

open Document

variable {d d' : Document} {id parent : NodeId}

theorem sound_of_create (hs : d.Sound) {kind : NodeKind} (hk : kind ≠ .root)
    (h : d.create kind = (d', id)) : d'.Sound ∧ d'.Holds id ∧ d.nodes.size ≤ d'.nodes.size := by
  obtain ⟨rfl, rfl⟩ := Prod.mk.inj h
  exact ⟨hs.create hk, holds_create kind, by simp⟩

mutual

/-- Content that is built in a sound document leaves it sound, and its handle is one of this
document. -/
theorem sound_of_build : (data : ContentData) → ∀ {d d' : Document} {id : NodeId}, d.Sound →
    build d data = .ok (d', id) → d'.Sound ∧ d'.Holds id ∧ d.nodes.size ≤ d'.nodes.size
  | .element name attributes children, d, d', id, hs, h => by
    simp only [build] at h
    obtain ⟨e, -, h⟩ := Outcome.bind_eq_ok_iff.1 h
    obtain ⟨d₁, hb, h⟩ := Outcome.bind_eq_ok_iff.1 h
    obtain ⟨rfl, rfl⟩ := Prod.mk.inj (Except.ok.inj h)
    have hc : (d.create (.element e)).1.Sound := hs.create (by simp)
    obtain ⟨h1, h2⟩ := sound_of_buildChildren children hc hb
    have hsize := size_create (d := d) (.element e)
    refine ⟨h1, ?_, by omega⟩
    exact Nat.lt_of_lt_of_le (holds_create (d := d) (.element e)) h2
  | .text _, _, _, _, hs, h | .cdata _, _, _, _, hs, h | .comment _, _, _, _, hs, h
  | .instruction _ _, _, _, _, hs, h => by
    obtain ⟨kind, hk, -, hcreate⟩ := exists_create_of_build h nofun
    exact sound_of_create hs hk hcreate

theorem sound_of_buildChildren : (data : List ContentData) → ∀ {d d' : Document} {parent : NodeId},
    d.Sound → buildChildren d parent data = .ok d' → d'.Sound ∧ d.nodes.size ≤ d'.nodes.size
  | [], _, _, _, hs, h => by
    simp only [buildChildren] at h
    obtain rfl := Except.ok.inj h
    exact ⟨hs, Nat.le_refl _⟩
  | child :: rest, d, d', parent, hs, h => by
    simp only [buildChildren] at h
    obtain ⟨⟨d₁, id⟩, hb, h⟩ := Outcome.bind_eq_ok_iff.1 h
    obtain ⟨d₂, hp, h⟩ := Outcome.bind_eq_ok_iff.1 h
    obtain ⟨h1, h2, h3⟩ := sound_of_build child hs hb
    have happend := Outcome.mapError_eq_ok_iff.1 hp
    have hsize : d₂.nodes.size = d₁.nodes.size := size_of_insertChild happend
    obtain ⟨h4, h5⟩ := sound_of_buildChildren rest (h1.appendChild h2 happend) h
    exact ⟨h4, by omega⟩

end

/-- The store of a built fragment is sound, and its top is a node of it. -/
theorem sound_of_ofData {data : ContentData} {item : ContentItem}
    (h : ContentItem.ofData data = .ok item) : item.document.Sound ∧ item.document.Holds item.top := by
  obtain ⟨⟨d, id⟩, hb, h⟩ := Outcome.bind_eq_ok_iff.1 h
  obtain rfl := Except.ok.inj h
  obtain ⟨h1, h2, -⟩ := sound_of_build data sound_empty hb
  exact ⟨h1, h2⟩

end Content

/-! ## Documents that are read -/

namespace Markup

open Document

namespace Builder

variable {b b' : Builder}

theorem sound_of_append (hs : b.document.Sound) {kind : NodeKind} (hk : kind ≠ .root) {id : NodeId}
    (h : b.append kind = .ok (b', id)) : b'.document.Sound := by
  obtain ⟨rfl, -, happend⟩ := append_eq_ok_iff.1 h
  exact (hs.create hk).appendChild (holds_create kind) happend

/-- A token that is taken in keeps the document sound. -/
theorem sound_of_feed (hs : b.document.Sound) {token : Token} (h : b.feed token = .ok b') :
    b'.document.Sound := by
  cases takes_of_feed h with
  | declaration | doctype => exact hs.of_nodes rfl
  | @start _ _ b₁ _ _ ha =>
    have hsound : b₁.document.Sound := sound_of_append hs (by simp) ha
    exact hsound
  | node hk ha => exact sound_of_append hs hk.ne_root ha
  | close | blank | endOfInput => exact hs

theorem finish_eq_ok {d : Document} (h : b.finish = .ok d) : d = b.document := by
  simp only [finish] at h
  split at h
  · simp at h
  · split at h
    · exact (Except.ok.inj h).symm
    · simp at h

end Builder

/-- A document that is read to its end is sound, if what has been read before is. -/
theorem Decides.sound {scanner : Scanner} {builder : Builder} {count : Nat} {d : Document}
    (h : Decides scanner builder count (.ok d)) (hs : builder.document.Sound) : d.Sound := by
  generalize ho : Except.ok d = outcome at h
  induction h with
  | last h =>
    subst ho
    obtain ⟨-, -, hfinish⟩ := advance_eq_done_ok_iff.1 h
    exact Builder.finish_eq_ok hfinish ▸ hs
  | next h _ ih =>
    obtain ⟨_, -, -, hfeed⟩ := advance_eq_running_iff.1 h
    exact ih (Builder.sound_of_feed hs hfeed) ho

/-- A document that is read is sound. -/
theorem sound_of_parse {s : String} {d : Document} (h : parse s = .ok d) : d.Sound := by
  have hd := decides_parse s
  rw [h] at hd
  exact hd.sound sound_empty

end Markup

end SvgPress
