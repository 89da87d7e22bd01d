import SvgPress.Proofs.Markup.Parsed

/-!
# Properties of all elements of a store

A property of elements that holds of every element of a store is kept by all that moves nodes, and
by all that makes elements which have it. So it holds of the elements of a document that is read if
it holds of what is read from tags, and of those of new content if it holds of what passes the
checks.
-/

namespace SvgPress

namespace Document

/-- All elements of the store have the property, in the tree or not. -/
def Carries (P : Element → Prop) (d : Document) : Prop :=
  ∀ id e, d.element? id = some e → P e

variable {P : Element → Prop} {d d' : Document} {id parent child : NodeId}

theorem Carries.congr (h : d.Carries P) (hk : ∀ id, d'.kind? id = d.kind? id) : d'.Carries P :=
  fun id e he => h id e (element?_congr (hk id) ▸ he)

theorem carries_empty (P : Element → Prop) : Document.empty.Carries P := by
  rintro ⟨i⟩ e he
  cases i with
  | zero => exact absurd he (by simp [element?, kind?, node?, Document.empty, NodeKind.element?])
  | succ i => exact absurd he (by simp [element?, kind?, node?, Document.empty])

/-- Of a created node, only its own payload has to be looked at. -/
theorem Carries.create (h : d.Carries P) {kind : NodeKind} (hk : ∀ e ∈ kind.element?, P e) :
    (d.create kind).1.Carries P := by
  intro id e he
  by_cases hid : id = (d.create kind).2
  · rw [hid, element?, kind?_create_self] at he
    exact hk e he
  · have hkind : (d.create kind).1.kind? id = d.kind? id := by
      rw [kind?, node?_create, if_neg hid, kind?]
    exact h id e (element?_congr hkind ▸ he)

theorem Carries.appendChild (h : d.Carries P) (ha : d.appendChild parent child = .ok d') :
    d'.Carries P := by
  obtain ⟨-, -, -, -, -, rfl⟩ := insertChild_eq_ok_iff.1 ha
  exact h.congr fun id => by rw [kind?_attach, kind?_detach]

theorem Carries.detach (h : d.Carries P) (id : NodeId) : (d.detach id).Carries P :=
  h.congr fun _ => kind?_detach d id _

theorem Carries.unwrap (h : d.Carries P) (hu : d.unwrap id = .ok d') : d'.Carries P := by
  obtain ⟨parent, -, -, -, rfl⟩ := unwrap_eq_ok_iff.1 hu
  exact h.congr fun _ => kind?_spliced d parent id _

theorem Carries.setElement (h : d.Carries P) {e : Element} (he : P e) (id : NodeId) :
    (d.setKind id (.element e)).Carries P := by
  intro other e' he'
  rw [element?, kind?_setKind] at he'
  split_ifs at he' with hid
  · cases hk : d.kind? other with
    | none =>
      rw [hk] at he'
      exact absurd he' (by simp)
    | some kind =>
      rw [hk] at he'
      obtain rfl := Option.some.inj he'
      exact he
  · exact h other e' he'

/-- An edit that keeps the property of one element keeps it of all. -/
theorem Carries.modifyElement (h : d.Carries P) (id : NodeId) {f : Element → Element}
    (hf : ∀ e, P e → P (f e)) : (d.modifyElement id f).Carries P := by
  rw [Document.modifyElement]
  split
  · rename_i e he
    exact h.setElement (hf e (h id e he)) id
  · exact h

end Document

/-! ## Documents that are read -/

namespace Markup

open Document

variable {P : Element → Prop} {b b' : Builder} {ts : List Token} {d : Document} {s : String}

namespace Builder

theorem carries_of_append (h : b.document.Carries P) {kind : NodeKind}
    (hk : ∀ e ∈ kind.element?, P e) {id : NodeId} (ha : b.append kind = .ok (b', id)) :
    b'.document.Carries P := by
  obtain ⟨rfl, -, happend⟩ := append_eq_ok_iff.1 ha
  exact (h.create hk).appendChild happend

/-- An element that is taken in has what the elements of tags have. -/
theorem carries_of_feed (hP : ∀ tag e, Tag.element tag = .ok e → P e) (h : b.document.Carries P)
    {t : Token} (hf : b.feed t = .ok b') : b'.document.Carries P := by
  cases takes_of_feed hf with
  | declaration | doctype => exact h.congr fun _ => rfl
  | @start tag e b₁ _ he ha =>
    have hkind : ∀ e' ∈ (NodeKind.element e).element?, P e' := by
      simpa [NodeKind.element?] using hP tag e he
    have hcarries : b₁.document.Carries P := carries_of_append h hkind ha
    exact hcarries
  | node hk ha =>
    refine carries_of_append h (fun e he => ?_) ha
    obtain ⟨tag, htag⟩ := hk.exists_tag he
    exact hP tag e htag
  | close | blank | endOfInput => exact h

theorem carries_of_feedAll (hP : ∀ tag e, Tag.element tag = .ok e → P e)
    (h : b.document.Carries P) (hf : b.feedAll ts = .ok b') : b'.document.Carries P := by
  induction ts generalizing b with
  | nil =>
    obtain rfl := Except.ok.inj hf
    exact h
  | cons t ts ih =>
    obtain ⟨b₁, hfirst, hrest⟩ := feedAll_cons_eq_ok_iff.1 hf
    exact ih (carries_of_feed hP h hfirst) hrest

end Builder

/-- The elements of a document that is read have what the elements of tags have. -/
theorem carries_of_parse (hP : ∀ tag e, Tag.element tag = .ok e → P e) (h : parse s = .ok d) :
    d.Carries P := by
  obtain ⟨b, hb, hfinish⟩ := Outcome.bind_eq_ok_iff.1 (build_tokensOf h).2
  rw [Builder.finish_eq_ok hfinish]
  exact Builder.carries_of_feedAll hP (carries_empty P) hb

end Markup

/-! ## New content -/

namespace Content

open Document

variable {P : Element → Prop}

/-- A described element passes its checks, or there is none. -/
theorem isChecked_of_addAttributes {attributes : List (String × String)} {elementName : String}
    {e e' : Element} (he : e.IsChecked) (h : addAttributes elementName e attributes = .ok e') :
    e'.IsChecked := by
  induction attributes generalizing e with
  | nil =>
    obtain rfl := Except.ok.inj h
    exact he
  | cons described attributes ih =>
    obtain ⟨name, value⟩ := described
    obtain ⟨_, hname, h⟩ := Outcome.bind_eq_ok_iff.1 h
    split_ifs at h with hhas
    have hadded : (Attribute.ofStrings name value).name.IsChecked := ⟨name, of_checkName hname, rfl⟩
    let added : Element := { e with attributes := e.attributes ++ [Attribute.ofStrings name value] }
    have hchecked : added.IsChecked := by
      refine ⟨he.name, fun a ha => ?_, ?_⟩
      · rcases List.mem_append.1 ha with ha | ha
        · exact he.attributes a ha
        · exact List.mem_singleton.1 ha ▸ hadded
      · rw [List.map_append]
        refine he.distinct.append (List.nodup_singleton _) ?_
        rw [List.map_singleton, List.disjoint_singleton]
        exact Element.hasAttr_iff_mem_names.not.1 hhas
    exact ih hchecked h

/-- An element that is made of a name and attributes has been checked. -/
theorem isChecked_of_elementOf {name : String} {attributes : List (String × String)} {e : Element}
    (h : elementOf name attributes = .ok e) : e.IsChecked := by
  obtain ⟨_, hname, h⟩ := Outcome.bind_eq_ok_iff.1 h
  have hnamed : (Element.named name).IsChecked :=
    ⟨⟨name, of_checkName hname, rfl⟩, by simp [Element.named], by simp [Element.named]⟩
  exact isChecked_of_addAttributes hnamed h

mutual

theorem carries_of_build (hP : ∀ e : Element, e.IsChecked → P e) : (data : ContentData) →
    ∀ {d d' : Document} {id : NodeId}, d.Carries P → build d data = .ok (d', id) → d'.Carries P
  | .element name attributes children, d, d', id, hd, h => by
    simp only [build] at h
    obtain ⟨e, he, h⟩ := Outcome.bind_eq_ok_iff.1 h
    obtain ⟨d₁, hb, h⟩ := Outcome.bind_eq_ok_iff.1 h
    obtain ⟨rfl, rfl⟩ := Prod.mk.inj (Except.ok.inj h)
    have hchecked := hP e (isChecked_of_elementOf (Outcome.mapError_eq_ok_iff.1 he))
    exact carries_of_buildChildren hP children (hd.create (by simpa [NodeKind.element?])) hb
  | .text _, _, _, _, hd, h | .cdata _, _, _, _, hd, h | .comment _, _, _, _, hd, h
  | .instruction _ _, _, _, _, hd, h => by
    obtain ⟨kind, -, hk, hcreate⟩ := exists_create_of_build h nofun
    obtain ⟨rfl, rfl⟩ := Prod.mk.inj hcreate
    exact hd.create (by simp [hk])

theorem carries_of_buildChildren (hP : ∀ e : Element, e.IsChecked → P e) :
    (data : List ContentData) → ∀ {d d' : Document} {parent : NodeId}, d.Carries P →
      buildChildren d parent data = .ok d' → d'.Carries P
  | [], _, _, _, hd, h => by
    simp only [buildChildren] at h
    obtain rfl := Except.ok.inj h
    exact hd
  | child :: rest, d, d', parent, hd, h => by
    simp only [buildChildren] at h
    obtain ⟨⟨d₁, id⟩, hb, h⟩ := Outcome.bind_eq_ok_iff.1 h
    obtain ⟨d₂, hp, h⟩ := Outcome.bind_eq_ok_iff.1 h
    have hchild := carries_of_build hP child hd hb
    exact carries_of_buildChildren hP rest
      (hchild.appendChild (Outcome.mapError_eq_ok_iff.1 hp)) h

end

/-- The elements of new content have what checked elements have. -/
theorem carries_of_ofData (hP : ∀ e : Element, e.IsChecked → P e) {data : ContentData}
    {item : ContentItem} (h : ContentItem.ofData data = .ok item) : item.document.Carries P := by
  obtain ⟨⟨d, id⟩, hb, h⟩ := Outcome.bind_eq_ok_iff.1 h
  obtain rfl := Except.ok.inj h
  exact carries_of_build hP data (carries_empty P) hb

end Content

end SvgPress
