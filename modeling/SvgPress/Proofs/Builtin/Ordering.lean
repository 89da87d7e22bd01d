import SvgPress.Proofs.Builtin.Inheriting
import SvgPress.Proofs.Builtin.Naming
import SvgPress.Proofs.Builtin.Preset
import SvgPress.Proofs.Builtin.Normal
import SvgPress.Proofs.Bytes
import SvgPress.Proofs.Walk.Amending
import Mathlib.Data.Multiset.MapFold

/-!
# Attributes in order

Attributes are ordered by whether they declare a namespace, and then by their names. Only attributes
of one full name are tied, so where names differ there is one list in order, and it does not matter
in which order the attributes were before: documents that differ in nothing else are made the same,
and are written as the same text.
-/

namespace SvgPress

open Document Builtin

/-! ## The order -/

namespace Builtin

variable {a b : Attribute} {l l' : List Attribute} {e e' : Element}

/-- Attributes of which either may stand first have one full name. -/
theorem mayPrecede_antisymm (hab : mayPrecede a b = true) (hba : mayPrecede b a = true) :
    a.name.full = b.name.full := by
  have hsame : (!decide (b.name.full < a.name.full)) = true →
      (!decide (a.name.full < b.name.full)) = true → a.name.full = b.name.full := by
    rw [Bool.not_eq_true', Bool.not_eq_true', decide_eq_false_iff_not, decide_eq_false_iff_not]
    exact fun hba hab => String.le_antisymm (String.not_lt.1 hba) (String.not_lt.1 hab)
  unfold mayPrecede at hab hba
  cases ha : a.name.isNamespaceDeclaration <;> cases hb : b.name.isNamespaceDeclaration <;>
    simp only [ha, hb] at hab hba
  · exact hsame hab hba
  · exact absurd hab Bool.false_ne_true
  · exact absurd hba Bool.false_ne_true
  · exact hsame hab hba

/-- A name that is read is known by how it is spelled. -/
theorem mayPrecede_of_full_eq (ha : a.name.IsRead) (hb : b.name.IsRead)
    (h : a.name.full = b.name.full) : mayPrecede a b = true :=
  mayPrecede_of_name_eq (by rw [← ha, ← hb, h])

/-- What declares no namespace stands before no declaration. -/
theorem isNamespaceDeclaration_of_mayPrecede (h : mayPrecede a b = true)
    (hb : b.name.isNamespaceDeclaration = true) : a.name.isNamespaceDeclaration = true := by
  by_contra ha
  rw [Bool.not_eq_true] at ha
  simp [mayPrecede, ha, hb] at h

/-- Of two declarations, and of two other attributes, the bytes of the names decide. -/
theorem bytes_lt_of_mayPrecede
    (hclass : a.name.isNamespaceDeclaration = b.name.isNamespaceDeclaration)
    (hne : a.name.full ≠ b.name.full) (h : mayPrecede a b = true) :
    Text.bytes a.name.full < Text.bytes b.name.full := by
  have hle : (!decide (b.name.full < a.name.full)) = true := by
    unfold mayPrecede at h
    rw [hclass] at h
    cases hb : b.name.isNamespaceDeclaration <;> simpa only [hb] using h
  rw [Bool.not_eq_true', decide_eq_false_iff_not] at hle
  exact Text.bytes_lt_iff.2 (lt_of_le_of_ne (String.not_lt.1 hle) hne)

/-! ## Lists in order -/

theorem pairwise_sortElementAttributes (e : Element) :
    (sortElementAttributes e).attributes.Pairwise fun a b => mayPrecede a b = true :=
  List.pairwise_mergeSort mayPrecede_trans mayPrecede_total e.attributes

theorem perm_sortElementAttributes (e : Element) :
    (sortElementAttributes e).attributes.Perm e.attributes :=
  List.mergeSort_perm e.attributes mayPrecede

/-- Where names differ, attributes are in order in one way only. -/
theorem eq_of_perm_of_ordered (hn : (l.map (·.name.full)).Nodup) (hperm : l'.Perm l)
    (h' : l'.Pairwise fun a b => mayPrecede a b = true)
    (h : l.Pairwise fun a b => mayPrecede a b = true) : l' = l := by
  refine List.Perm.eq_of_pairwise (fun a b ha hb hab hba => ?_) h' h hperm
  exact List.inj_on_of_nodup_map hn (hperm.mem_iff.1 ha) hb (mayPrecede_antisymm hab hba)

theorem eq_sortElementAttributes (hn : (e.attributes.map (·.name.full)).Nodup)
    (hperm : l.Perm e.attributes) (h : l.Pairwise fun a b => mayPrecede a b = true) :
    l = (sortElementAttributes e).attributes := by
  have hsorted := perm_sortElementAttributes e
  exact eq_of_perm_of_ordered ((hsorted.map _).nodup_iff.2 hn) (hperm.trans hsorted.symm) h
    (pairwise_sortElementAttributes e)

theorem attributes_sortElementAttributes_congr (hn : (e.attributes.map (·.name.full)).Nodup)
    (hperm : e'.attributes.Perm e.attributes) :
    (sortElementAttributes e').attributes = (sortElementAttributes e).attributes :=
  eq_sortElementAttributes hn ((perm_sortElementAttributes e').trans hperm)
    (pairwise_sortElementAttributes e')

theorem sortElementAttributes_sortElementAttributes (e : Element) :
    sortElementAttributes (sortElementAttributes e) = sortElementAttributes e :=
  congrArg (Element.mk e.name) (List.mergeSort_of_pairwise (pairwise_sortElementAttributes e))

/-- In a list where those with a property come before those without it, the former are in front. -/
theorem eq_filter_append_filter {α : Type} {R : α → α → Prop} {p : α → Bool} {l : List α}
    (hl : l.Pairwise R) (h : ∀ a b, R a b → p b = true → p a = true) :
    l = l.filter p ++ l.filter (!p ·) := by
  induction l with
  | nil => rfl
  | cons a rest ih =>
    obtain ⟨hfirst, hrest⟩ := List.pairwise_cons.1 hl
    rw [List.filter_cons, List.filter_cons]
    cases ha : p a with
    | true =>
      rw [if_pos rfl, if_neg (by simp), List.cons_append, ← ih hrest]
    | false =>
      -- Nothing after the first one has the property either.
      have hnone : ∀ b ∈ rest, p b = false := fun b hb => by
        rw [← Bool.not_eq_true]
        exact fun hpb => absurd (h a b (hfirst b hb) hpb) (by simp [ha])
      rw [if_neg (by simp), if_pos Bool.not_false, List.filter_eq_nil_iff.2 (by simpa using hnone),
        List.filter_eq_self.2 (by simpa using hnone), List.nil_append]

/-- The declarations of namespaces come first, and in both parts the bytes of the names increase. -/
theorem exists_parts (hn : (e.attributes.map (·.name.full)).Nodup) :
    ∃ declarations others, (sortElementAttributes e).attributes = declarations ++ others ∧
      declarations.Perm (e.attributes.filter (·.name.isNamespaceDeclaration)) ∧
      others.Perm (e.attributes.filter (!·.name.isNamespaceDeclaration)) ∧
      ∀ part ∈ [declarations, others],
        part.Pairwise fun a b => Text.bytes a.name.full < Text.bytes b.name.full := by
  have hsorted := perm_sortElementAttributes e
  have hordered := pairwise_sortElementAttributes e
  have hdistinct : (sortElementAttributes e).attributes.Pairwise
      fun a b => a.name.full ≠ b.name.full :=
    List.pairwise_map.1 ((hsorted.map _).nodup_iff.2 hn)
  have hpart : ∀ (p : Attribute → Bool), (∀ a b, p a = true → p b = true →
      a.name.isNamespaceDeclaration = b.name.isNamespaceDeclaration) →
      ((sortElementAttributes e).attributes.filter p).Pairwise
        fun a b => Text.bytes a.name.full < Text.bytes b.name.full := by
    intro p hclass
    refine ((hordered.and hdistinct).filter p).imp_of_mem fun ha hb h => ?_
    exact bytes_lt_of_mayPrecede
      (hclass _ _ (List.mem_filter.1 ha).2 (List.mem_filter.1 hb).2) h.2 h.1
  refine ⟨_, _, eq_filter_append_filter hordered
    (fun a b => isNamespaceDeclaration_of_mayPrecede), hsorted.filter _, hsorted.filter _, ?_⟩
  rw [List.forall_mem_cons, List.forall_mem_singleton]
  refine ⟨hpart _ fun a b ha hb => ha.trans hb.symm, hpart _ fun a b ha hb => ?_⟩
  rw [Bool.not_eq_true'] at ha hb
  exact ha.trans hb.symm

end Builtin

/-! ## Trees -/

/-- A payload, but for the order of its attributes. -/
def NodeKind.unordered (kind : NodeKind) : NodeKind × Multiset Attribute :=
  (kind.bare, kind.attributes)

/-- Payloads that look alike in one way also do in another one, and so do forests of them. -/
theorem Forest.map_eq_map {α β γ : Type} {g : α → β} {h : α → γ} {F F' : Forest α}
    (hmap : F'.map g = F.map g) (hh : ∀ x ∈ F.preorder, ∀ y, g y = g x → h y = h x) :
    F'.map h = F.map h := by
  induction F generalizing F' with
  | nil =>
    cases F' with
    | nil => rfl
    | cons => simp [map] at hmap
  | cons top below rest ihb ihr =>
    cases F' with
    | nil => simp [map] at hmap
    | cons top' below' rest' =>
      obtain ⟨htop, hbelow, hrest⟩ := cons.inj hmap
      simp only [preorder, List.mem_cons, List.mem_append] at hh
      rw [map, map, hh top (.inl rfl) top' htop, ihb hbelow fun x hx => hh x (.inr (.inl hx)),
        ihr hrest fun x hx => hh x (.inr (.inr hx))]

namespace Builtin

variable {kind kind' : NodeKind}

theorem sortedKind_congr (h : kind'.unordered = kind.unordered)
    (hn : (kind.attributes.map (·.name.full)).Nodup) : sortedKind kind' = sortedKind kind := by
  obtain ⟨hbare, hattributes⟩ := Prod.mk.inj h
  cases kind with
  | element e =>
    cases kind' with
    | element e' =>
      have hname : e'.name = e.name := by simpa [NodeKind.bare] using hbare
      have hsame := attributes_sortElementAttributes_congr hn (Multiset.coe_eq_coe.1 hattributes)
      exact congrArg NodeKind.element (congrArg₂ Element.mk hname hsame)
    | _ => simp [NodeKind.bare] at hbare
  | _ => cases kind' <;> simp_all [NodeKind.bare, sortedKind]

theorem stays_sortEdit : sortEdit.Stays := by
  intro above kind
  cases kind <;> rfl

theorem sortEdit_fst (above : List NodeKind) (kind : NodeKind) :
    (sortEdit above kind).1 = sortedKind kind := by
  cases kind <;> rfl

theorem settled_sortEdit : sortEdit.Settled := by
  intro above kind
  cases kind with
  | element e => exact congrArg NodeKind.element (sortElementAttributes_sortElementAttributes e)
  | _ => rfl

end Builtin

/-! ## Documents -/

/-- The tree is what it was, and the attributes of the elements below the root are in order. -/
structure Document.Arranged (d d' : Document) : Prop where
  declaration : d'.declaration = d.declaration
  doctype : d'.doctype = d.doctype
  parent? : ∀ x, d'.parent? x = d.parent? x
  children : ∀ x, d'.children x = d.children x
  kind?_eq : ∀ x, d'.kind? x =
    if x ∈ d.descendants .root then (d.kind? x).map sortedKind else d.kind? x

namespace Document

variable {d d' : Document} {s : String}

theorem arranged_of_amended (h : Amended sortEdit d d') (hd : d.Sound) : d.Arranged d' where
  declaration := h.declaration
  doctype := h.doctype
  parent? := h.parent?
  children := h.children
  kind?_eq x := by
    split_ifs with hx
    · obtain ⟨above, hp, -⟩ := hd.linked.exists_parent hx
      rw [kind?_eq_some_kindOf (holds_of_parent? hp),
        kind?_eq_some_kindOf (holds_of_parent? ((h.parent? x).trans hp)), h.kindOf_eq x hx,
        sortEdit_fst]
      rfl
    · exact h.kind?_other x hx

theorem Arranged.attr?_eq (h : d.Arranged d') (x : NodeId) (name : String) :
    (d'.element? x).bind (·.attr? name) = (d.element? x).bind (·.attr? name) := by
  rw [element?, element?, h.kind?_eq]
  split_ifs
  · cases d.kind? x with
    | none => rfl
    | some kind =>
      cases kind with
      | element e => exact congrFun (attr?_sortElementAttributes e) name
      | _ => rfl
  · rfl

theorem Arranged.payloads_eq (h : d.Arranged d') (hl : d.Linked) (hl' : d'.Linked) :
    d'.payloads = d.payloads.map sortedKind := by
  obtain ⟨f, ht, hf, -⟩ := hl.exists_forest_below .root
  rw [hl.payloads_eq ht hf, Forest.map_map, hl'.payloads_eq (ht.trans (h.children .root).symm)
    (hf.congr fun x _ => h.children x)]
  refine Forest.map_congr fun x hx => ?_
  rw [← hl.descendants_eq ht hf] at hx
  rw [kindOf, kindOf, h.kind?_eq, if_pos hx]
  cases d.kind? x <;> rfl

/-- What is left of a document that has been read is written as its tokens. -/
theorem Trimmed.write_eq (h : Trimmed d d') (hs : Markup.parse s = .ok d) (style : Markup.Style) :
    Markup.write style d' = .ok (Markup.written (style.documentTokens d')) := by
  obtain ⟨hplain, -⟩ := h.exists_write hs style
  refine Markup.write_eq h.linked (h.shaped (Markup.sound_of_parse hs).shaped) ?_ hplain style
  rw [h.documentElement?_eq]
  exact Markup.isSome_documentElement? (Markup.tops_of_parse hs).1

/-- No element of a document that has been read has two attributes of one full name. -/
theorem nodup_full_of_parse (hs : Markup.parse s = .ok d) :
    ∀ kind ∈ d.payloads.preorder, (kind.attributes.map (·.name.full)).Nodup := by
  have hkeyed : d.Carries (·.IsKeyed Markup.IsKey) :=
    Markup.carries_of_parse (fun tag e he => Markup.isKeyed_of_element he) hs
  have hl := (Markup.sound_of_parse hs).linked
  obtain ⟨f, ht, hf, -⟩ := hl.exists_forest_below .root
  rw [hl.payloads_eq ht hf, Forest.preorder_map]
  intro kind hkind
  obtain ⟨x, -, rfl⟩ := List.mem_map.1 hkind
  cases hk : d.kindOf x with
  | element e =>
    have he : d.element? x = some e := by
      rw [← element?_kindOf, hk]
      rfl
    exact (hkeyed x e he).nodup_full
  | _ => exact List.nodup_nil

end Document

/-! ## The plugin -/

section

variable {descriptors : List Descriptor} {p : Pipeline} {d d₁ d' d₁' : Document} {s s₁ : String}
  {stage : Stage}

theorem Builtin.Prepares.visit_sortAttributes (h : Prepares sortAttributes stage) :
    stage.rewriter.visit = Plugin.editing sortElementAttributes := by
  obtain ⟨-, params, hprepare⟩ := h
  rw [← Except.ok.inj hprepare]

/-- The pipeline puts the attributes of a document in order, and once they are it does nothing. -/
theorem Pipeline.exists_arranged
    (hplugins : (descriptors.filter (·.enabled)).map (·.plugin) = [sortAttributes])
    (hp : Pipeline.ofDescriptors descriptors = .ok p) (hd : d.Sound) :
    ∃ d', (p.apply d).outcome = .ok d' ∧ d'.Sound ∧ Trimmed d d' ∧ d.Arranged d' ∧
      (p.apply d').outcome = .ok d' := by
  obtain ⟨stage, hstage, -, happly⟩ := Pipeline.exists_stage_of_alone hplugins hp
    (by simp [presetPlugins, plugins]) (by decide)
  have hedits : stage.EditsOnly :=
    Stage.editsOnly_of_visit fun d id => congrFun₂ hstage.visit_sortAttributes d id
  have hkeeps : ∀ d id d', (stage.rewriter.visit d id).outcome ≠ .ok (d', .remove) := by
    intro d id d'
    rw [hstage.visit_sortAttributes]
    simp [Plugin.editing, Report.ok]
  have hwalk : ∀ a : Document, a.Sound → ∃ a', (p.apply a).outcome = .ok a' ∧ a'.Sound ∧
      Amended sortEdit a a' := by
    intro a ha
    obtain ⟨a', ho, ha', hamended⟩ := walk_amends (hstage.follows follows_sortAttributes) hedits
      hkeeps stays_sortEdit ha
    exact ⟨a', (happly a).trans ho, ha', hamended⟩
  obtain ⟨d', ho, hd', hamended⟩ := hwalk d hd
  obtain ⟨d'', ho', -, hagain⟩ := hwalk d' hd'
  obtain rfl := hamended.eq_of_settled hagain hd hd' rfl settled_sortEdit
  have htrims := hstage.trims (by simp [plugins])
  obtain ⟨_, hwalked, htrimmed⟩ := (trimmed_walk (List.forall_mem_singleton.2 htrims) hd.linked
    hd.shaped.one_element false).1
  obtain rfl := Except.ok.inj (ho.symm.trans ((happly d).trans hwalked))
  exact ⟨_, ho, hd', htrimmed, arranged_of_amended hamended hd, ho'⟩

/-- Documents that differ in the order of attributes only say the same once these are in order. -/
theorem Document.Arranged.gist_eq (h : d.Arranged d') (h₁ : d₁.Arranged d₁')
    (hs : Markup.parse s = .ok d) (hs₁ : Markup.parse s₁ = .ok d₁) (hd' : d'.Sound)
    (hd₁' : d₁'.Sound) (hdeclaration : d₁.declaration = d.declaration)
    (hdoctype : d₁.doctype = d.doctype)
    (hpayloads : d₁.payloads.map NodeKind.unordered = d.payloads.map NodeKind.unordered) :
    d₁'.gist = d'.gist := by
  have hd := Markup.sound_of_parse hs
  have hd₁ := Markup.sound_of_parse hs₁
  have hsorted : d₁.payloads.map sortedKind = d.payloads.map sortedKind :=
    Forest.map_eq_map hpayloads fun kind hkind _ hlike =>
      sortedKind_congr hlike (nodup_full_of_parse hs kind hkind)
  rw [gist, gist, h.declaration, h₁.declaration, h.doctype, h₁.doctype, hdeclaration, hdoctype,
    hd'.shaped.kindOf_root, hd₁'.shaped.kindOf_root, h.payloads_eq hd.linked hd'.linked,
    h₁.payloads_eq hd₁.linked hd₁'.linked, hsorted]

theorem Document.documentTokens_eq_of_gist (h : d₁.gist = d.gist) (style : Markup.Style) :
    style.documentTokens d₁ = style.documentTokens d := by
  obtain ⟨hdeclaration, hdoctype, -, hpayloads⟩ := Gist.mk.inj h
  rw [Markup.Style.documentTokens, Markup.Style.documentTokens, Markup.Style.prologTokens,
    Markup.Style.prologTokens, hdeclaration, hdoctype, hpayloads]

end

/-- The order relates any two attributes, it is transitive, and what it ties are the attributes of
one full name. So a list of attributes of different names has one form in order, whatever order it
is given in: the declarations of namespaces in front, and the bytes of the names increasing in both
parts. Look-ups find what they found before, and what is in order stays as it is. A pipeline that
does nothing but order attributes does this to all elements of a document, and if two texts differ
in nothing but the order of attributes, it makes equal documents of them, which are written as the
same text. -/
theorem Builtin.sortAttributes_ignores_order :
    ((∀ a, mayPrecede a a = true) ∧
      (∀ a b, mayPrecede a b = true ∨ mayPrecede b a = true) ∧
      (∀ a b c, mayPrecede a b = true → mayPrecede b c = true → mayPrecede a c = true) ∧
      (∀ a b, mayPrecede a b = true → mayPrecede b a = true → a.name.full = b.name.full) ∧
      ∀ a b : Attribute, a.name.IsRead → b.name.IsRead → a.name.full = b.name.full →
        mayPrecede a b = true) ∧
    (∀ e : Element, (e.attributes.map (·.name.full)).Nodup →
      (∀ e' : Element, e'.attributes.Perm e.attributes →
        (sortElementAttributes e').attributes = (sortElementAttributes e).attributes) ∧
      (∀ l : List Attribute, l.Perm e.attributes →
        l.Pairwise (fun a b => mayPrecede a b = true) → l = (sortElementAttributes e).attributes) ∧
      ∃ declarations others, (sortElementAttributes e).attributes = declarations ++ others ∧
        declarations.Perm (e.attributes.filter (·.name.isNamespaceDeclaration)) ∧
        others.Perm (e.attributes.filter (!·.name.isNamespaceDeclaration)) ∧
        ∀ part ∈ [declarations, others],
          part.Pairwise fun a b => Text.bytes a.name.full < Text.bytes b.name.full) ∧
    (∀ e, (sortElementAttributes e).attr? = e.attr? ∧
      sortElementAttributes (sortElementAttributes e) = sortElementAttributes e) ∧
    ∀ (descriptors : List Descriptor) (p : Pipeline) (s : String) (d : Document),
      (descriptors.filter (·.enabled)).map (·.plugin) = [sortAttributes] →
      Pipeline.ofDescriptors descriptors = .ok p → Markup.parse s = .ok d →
      ∃ d', (p.apply d).outcome = .ok d' ∧ d.Arranged d' ∧
        (∀ x name, (d'.element? x).bind (·.attr? name) = (d.element? x).bind (·.attr? name)) ∧
        (p.apply d').outcome = .ok d' ∧
        ∀ (s₁ : String) (d₁ : Document), Markup.parse s₁ = .ok d₁ →
          d₁.declaration = d.declaration → d₁.doctype = d.doctype →
          d₁.payloads.map NodeKind.unordered = d.payloads.map NodeKind.unordered →
          ∃ d₁', (p.apply d₁).outcome = .ok d₁' ∧ (d₁' == d') = true ∧
            ∀ style, Markup.write style d₁' = Markup.write style d' := by
  refine ⟨⟨fun a => mayPrecede_of_name_eq rfl, fun a b => ?_, mayPrecede_trans,
    fun a b => mayPrecede_antisymm, fun a b => mayPrecede_of_full_eq⟩, fun e hn => ?_, fun e =>
    ⟨attr?_sortElementAttributes e, sortElementAttributes_sortElementAttributes e⟩, ?_⟩
  · exact Bool.or_eq_true_iff.1 (mayPrecede_total a b)
  · exact ⟨fun e' => attributes_sortElementAttributes_congr hn,
      fun l => eq_sortElementAttributes hn, exists_parts hn⟩
  · intro descriptors p s d hplugins hp hs
    obtain ⟨d', ho, hd', htrimmed, harranged, hagain⟩ :=
      Pipeline.exists_arranged hplugins hp (Markup.sound_of_parse hs)
    refine ⟨d', ho, harranged, harranged.attr?_eq, hagain, ?_⟩
    intro s₁ d₁ hs₁ hdeclaration hdoctype hpayloads
    obtain ⟨d₁', ho₁, hd₁', htrimmed₁, harranged₁, -⟩ :=
      Pipeline.exists_arranged hplugins hp (Markup.sound_of_parse hs₁)
    have hgist := harranged.gist_eq harranged₁ hs hs₁ hd' hd₁' hdeclaration hdoctype hpayloads
    refine ⟨d₁', ho₁, hd₁'.linked.beq_of_gist hd'.linked hgist, fun style => ?_⟩
    rw [htrimmed.write_eq hs style, htrimmed₁.write_eq hs₁ style, documentTokens_eq_of_gist hgist]

/-- A drawing given twice, with its attributes in two orders. -/
theorem Builtin.sortAttributes_ignores_order_of_drawing :
    [Attribute.ofStrings "xmlns" "u", Attribute.ofStrings "height" "2",
        Attribute.ofStrings "width" "1"] =
      (sortElementAttributes ⟨QName.ofString "svg", [Attribute.ofStrings "width" "1",
        Attribute.ofStrings "xmlns" "u", Attribute.ofStrings "height" "2"]⟩).attributes ∧
    ∃ (p : Pipeline) (d d₁ d' d₁' : Document),
      Pipeline.ofDescriptors [.ofPlugin sortAttributes] = .ok p ∧
      Markup.parse "<svg width='1' xmlns='u' height='2'/>" = .ok d ∧
      Markup.parse "<svg height='2' width='1' xmlns='u'/>" = .ok d₁ ∧
      (p.apply d).outcome = .ok d' ∧ (p.apply d₁).outcome = .ok d₁' ∧ (d₁' == d') = true ∧
      ∀ style, Markup.write style d₁' = Markup.write style d' := by
  obtain ⟨-, hlists, -, hpipelines⟩ := Builtin.sortAttributes_ignores_order
  refine ⟨(hlists _ (by decide)).2.1 _ (by decide) (by decide), ?_⟩
  obtain ⟨p, hp⟩ : ∃ p, Pipeline.ofDescriptors [.ofPlugin sortAttributes] = .ok p := ⟨_, rfl⟩
  obtain ⟨d, hs⟩ : ∃ d, Markup.parse "<svg width='1' xmlns='u' height='2'/>" = .ok d := ⟨_, rfl⟩
  obtain ⟨d₁, hs₁⟩ : ∃ d, Markup.parse "<svg height='2' width='1' xmlns='u'/>" = .ok d := ⟨_, rfl⟩
  obtain ⟨hdeclaration, hdoctype, hpayloads⟩ :=
    Outcome.of_all_toOption (p := fun d : Document => d.declaration = none ∧ d.doctype = none ∧
      d.payloads = .cons (.element ⟨QName.ofString "svg", [Attribute.ofStrings "width" "1",
        Attribute.ofStrings "xmlns" "u", Attribute.ofStrings "height" "2"]⟩) .nil .nil)
      (by decide +kernel) hs
  obtain ⟨hdeclaration₁, hdoctype₁, hpayloads₁⟩ :=
    Outcome.of_all_toOption (p := fun d : Document => d.declaration = none ∧ d.doctype = none ∧
      d.payloads = .cons (.element ⟨QName.ofString "svg", [Attribute.ofStrings "height" "2",
        Attribute.ofStrings "width" "1", Attribute.ofStrings "xmlns" "u"]⟩) .nil .nil)
      (by decide +kernel) hs₁
  have hlike : d₁.payloads.map NodeKind.unordered = d.payloads.map NodeKind.unordered := by
    rw [hpayloads, hpayloads₁]
    exact congrArg (Forest.cons · .nil .nil)
      (Prod.ext rfl (Multiset.coe_eq_coe.2 (by decide)))
  obtain ⟨d', ho, -, -, -, hsame⟩ := hpipelines _ p _ d rfl hp hs
  obtain ⟨d₁', ho₁, hequal, hwrite⟩ := hsame _ d₁ hs₁ (hdeclaration₁.trans hdeclaration.symm)
    (hdoctype₁.trans hdoctype.symm) hlike
  exact ⟨p, d, d₁, d', d₁', hp, hs, hs₁, ho, ho₁, hequal, hwrite⟩

end SvgPress
