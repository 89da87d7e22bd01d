import SvgPress.Proofs.Builtin.Normal

/-!
# Qualifiers and their declarations

A qualifier stands for a namespace only below a declaration of it. A document is qualified if every
qualifier of a name is declared by an attribute of the element or of an element above it. Told of
payloads, this is a property of forests that speaks of one qualifier at a time.
-/

namespace SvgPress

open Document Builtin

/-! ## Uses and declarations -/

/-- The name of the attribute that declares a qualifier. -/
def QName.declaring (q : String) : QName :=
  ⟨some "xmlns", q⟩

namespace Element

/-- The qualifiers in the names of an element and of its attributes. -/
def qualifiers (e : Element) : List String :=
  (e.name :: e.attributes.map (·.name)).filterMap (·.qualifier)

/-- The element has an attribute that declares a qualifier. -/
def Declares (e : Element) (q : String) : Prop :=
  QName.declaring q ∈ e.attributes.map (·.name)

instance (e : Element) (q : String) : Decidable (e.Declares q) :=
  inferInstanceAs (Decidable (_ ∈ _))

/-- A qualifier in an element is that of its name or that of an attribute. -/
theorem mem_qualifiers_iff {e : Element} {q : String} :
    q ∈ e.qualifiers ↔
      e.name.qualifier = some q ∨ ∃ a ∈ e.attributes, a.name.qualifier = some q := by
  simp [qualifiers, List.mem_filterMap]

/-- An element that has lost attributes uses no other qualifiers. -/
theorem qualifiers_subset {e e' : Element} (hn : e'.name = e.name)
    (ha : e'.attributes.Sublist e.attributes) : e'.qualifiers ⊆ e.qualifiers := by
  rw [qualifiers, qualifiers, hn]
  exact (((ha.map _).cons_cons e.name).filterMap _).subset

theorem qualifiers_keepAttrs_subset (e : Element) (keep : Attribute → Bool) :
    (e.keepAttrs keep).qualifiers ⊆ e.qualifiers :=
  qualifiers_subset rfl List.filter_sublist

end Element

namespace Document

/-- A node, or one above it, declares a qualifier. -/
def InScope (d : Document) (id : NodeId) (q : String) : Prop :=
  ∃ a ∈ id :: d.ancestors id, ∃ e ∈ d.element? a, e.Declares q

/-- A qualifier is declared wherever it is used. -/
def Binds (d : Document) (q : String) : Prop :=
  ∀ id ∈ d.elements, ∀ e ∈ d.element? id, q ∈ e.qualifiers → d.InScope id q

/-- No name has a qualifier. -/
def Lacks (d : Document) (q : String) : Prop :=
  ∀ id ∈ d.elements, ∀ e ∈ d.element? id, q ∉ e.qualifiers

/-- All qualifiers are declared where they are used, but for the two that need no declaration. -/
def IsQualified (d : Document) : Prop :=
  ∀ id ∈ d.elements, ∀ e ∈ d.element? id, ∀ q ∈ e.qualifiers, q ≠ "xml" → q ≠ "xmlns" →
    d.InScope id q

instance (d : Document) (q : String) : Decidable (d.Lacks q) :=
  inferInstanceAs (Decidable (∀ id ∈ d.elements, ∀ e ∈ d.element? id, q ∉ e.qualifiers))

instance (d : Document) (id : NodeId) (q : String) : Decidable (d.InScope id q) :=
  inferInstanceAs (Decidable (∃ a ∈ id :: d.ancestors id, ∃ e ∈ d.element? a, e.Declares q))

instance (d : Document) : Decidable d.IsQualified :=
  inferInstanceAs (Decidable (∀ id ∈ d.elements, ∀ e ∈ d.element? id, ∀ q ∈ e.qualifiers,
    q ≠ "xml" → q ≠ "xmlns" → d.InScope id q))

/-- A document is qualified if it binds all qualifiers but two. -/
theorem isQualified_iff {d : Document} :
    d.IsQualified ↔ ∀ q, q ≠ "xml" → q ≠ "xmlns" → d.Binds q :=
  ⟨fun h q hxml hxmlns id hid e he hq => h id hid e he q hq hxml hxmlns,
    fun h id hid e he q hq hxml hxmlns => h q hxml hxmlns id hid e he hq⟩

theorem Lacks.binds {d : Document} {q : String} (h : d.Lacks q) : d.Binds q :=
  fun id hid e he hq => absurd hq (h id hid e he)

end Document

namespace NodeKind

/-- The qualifiers in the names of a payload. -/
def qualifiers : NodeKind → List String
  | .element e => e.qualifiers
  | _ => []

/-- The payload has an attribute that declares a qualifier. -/
def Declares (q : String) : NodeKind → Prop
  | .element e => e.Declares q
  | _ => False

instance (q : String) : DecidablePred (Declares q)
  | .element e => inferInstanceAs (Decidable (e.Declares q))
  | .root | .text _ | .cdata _ | .comment _ | .instruction .. => isFalse id

/-- The payload uses a qualifier only if the other one did, and declares it if the other one did. -/
structure Upholds (q : String) (kind' kind : NodeKind) : Prop where
  uses : q ∈ kind'.qualifiers → q ∈ kind.qualifiers
  declares : kind.Declares q → kind'.Declares q

variable {q : String} {kind : NodeKind} {e e' : Element}

theorem Upholds.refl (q : String) (kind : NodeKind) : kind.Upholds q kind :=
  ⟨id, id⟩

theorem qualifiers_eq (kind : NodeKind) :
    kind.qualifiers = (kind.element?.map Element.qualifiers).getD [] := by
  cases kind <;> rfl

theorem declares_iff : kind.Declares q ↔ ∃ e ∈ kind.element?, e.Declares q := by
  cases kind <;> simp [Declares, element?]

/-- An element whose attributes have other values uses and declares what it did. -/
theorem upholds_of_names (hn : e'.name = e.name)
    (ha : e'.attributes.map (·.name) = e.attributes.map (·.name)) (q : String) :
    Upholds q (.element e') (.element e) where
  uses hq := by rwa [qualifiers, Element.qualifiers, hn, ha] at hq
  declares hd := by rwa [Declares, Element.Declares, ha]

/-- An element that has lost attributes, but no declaration of the qualifier, upholds it. -/
theorem upholds_of_sublist (hn : e'.name = e.name) (ha : e'.attributes.Sublist e.attributes)
    (hd : ∀ a ∈ e.attributes, a.name = QName.declaring q → a ∈ e'.attributes) :
    Upholds q (.element e') (.element e) where
  uses hq := Element.qualifiers_subset hn ha hq
  declares h := by
    obtain ⟨a, ha, hname⟩ := List.mem_map.1 h
    exact List.mem_map.2 ⟨a, hd a ha hname, hname⟩

theorem upholds_keepAttrs {keep : Attribute → Bool}
    (h : ∀ a : Attribute, a.name = QName.declaring q → keep a = true) (e : Element) :
    Upholds q (.element (e.keepAttrs keep)) (.element e) :=
  upholds_of_sublist rfl List.filter_sublist fun a ha hname => List.mem_filter.2 ⟨ha, h a hname⟩

end NodeKind

namespace Forest

variable {q : String} {F G : Forest NodeKind} {kind : NodeKind} {below rest : Forest NodeKind}
  {s : List NodeKind → NodeKind → Option NodeKind} {above : List NodeKind}
  {t : Bool → NodeKind → Forest NodeKind → Forest NodeKind} {top : Bool}

/-- A qualifier is declared wherever it is used: a payload declares it, or does not use it and
neither do those below it without declaring it. -/
def Binds (q : String) : Forest NodeKind → Prop
  | nil => True
  | cons kind below rest =>
    (kind.Declares q ∨ q ∉ kind.qualifiers ∧ below.Binds q) ∧ rest.Binds q

instance decidableBinds (q : String) : DecidablePred (Binds q)
  | nil => isTrue trivial
  | cons kind below rest =>
    have := decidableBinds q below
    have := decidableBinds q rest
    inferInstanceAs
      (Decidable ((kind.Declares q ∨ q ∉ kind.qualifiers ∧ below.Binds q) ∧ rest.Binds q))

/-- No payload uses a qualifier. -/
def Lacks (q : String) (F : Forest NodeKind) : Prop :=
  ∀ kind ∈ F.preorder, q ∉ kind.qualifiers

theorem Lacks.binds (h : F.Lacks q) : F.Binds q := by
  induction F with
  | nil => trivial
  | cons kind below rest ihb ihr =>
    obtain ⟨hkind, hbelow, hrest⟩ := forall_mem_preorder_cons.1 h
    exact ⟨.inr ⟨hkind, ihb hbelow⟩, ihr hrest⟩

theorem Binds.append (hf : F.Binds q) (hg : G.Binds q) : (F ++ G).Binds q := by
  induction F with
  | nil => exact hg
  | cons kind below rest _ ihr => exact ⟨hf.1, ihr hf.2⟩

/-! ### What is done to trees -/

/-- If every payload that stays upholds a qualifier, the trees that are left bind it: a payload that
goes takes all with it that stands below it. -/
theorem Binds.settle
    (hs : ∀ above kind kind', s above kind = some kind' → kind'.Upholds q kind)
    (h : F.Binds q) : (F.settle s above).Binds q := by
  induction F generalizing above with
  | nil => trivial
  | cons kind below rest ihb ihr =>
    obtain ⟨hkind, hrest⟩ := h
    rw [Forest.settle]
    split
    · exact ihr hrest
    · rename_i kind' hkind'
      have hupholds := hs _ _ _ hkind'
      refine ⟨?_, ihr hrest⟩
      rcases hkind with hdeclares | ⟨hlacks, hbelow⟩
      · exact .inl (hupholds.declares hdeclares)
      · exact .inr ⟨fun hq => hlacks (hupholds.uses hq), ihb hbelow⟩

/-- If a qualifier stays bound in each tree that is built anew, it stays bound in all of them. -/
theorem Binds.rebuild
    (ht : ∀ top kind below, (cons kind below nil).Binds q → (t top kind below).Binds q)
    (h : F.Binds q) : (F.rebuild t top).Binds q := by
  induction F generalizing top with
  | nil => trivial
  | cons kind below rest ihb ihr =>
    obtain ⟨hkind, hrest⟩ := h
    refine Binds.append (ht _ _ _ ⟨?_, trivial⟩) (ihr hrest)
    exact hkind.imp_right fun hbelow => hbelow.imp_right ihb

theorem Binds.editFirst {edit : Element → Element}
    (he : ∀ e, (NodeKind.element (edit e)).Upholds q (.element e)) (h : F.Binds q) :
    (F.editFirst edit).Binds q := by
  induction F with
  | nil => trivial
  | cons kind below rest _ ihr =>
    obtain ⟨hkind, hrest⟩ := h
    cases kind with
    | element e =>
      refine ⟨?_, hrest⟩
      rcases hkind with hdeclares | ⟨hlacks, hbelow⟩
      · exact .inl ((he e).declares hdeclares)
      · exact .inr ⟨fun hq => hlacks ((he e).uses hq), hbelow⟩
    | _ =>
      rw [editFirst_cons_of_other rfl]
      exact ⟨hkind, ihr hrest⟩

end Forest

/-! ### What documents say -/

/-- Below a node, a qualifier is declared wherever it is used, if the trees say so or a declaration
stands above them. -/
theorem Stands.binds_iff {d : Document} {parent : NodeId} {f : Forest NodeId} {q : String}
    (h : Stands d parent f) :
    ((f.map d.kindOf).Binds q ∨ ∃ kind ∈ d.lineage parent, kind.Declares q) ↔
      ∀ id ∈ f.preorder, q ∈ (d.kindOf id).qualifiers →
        ∃ kind ∈ d.lineage id, kind.Declares q := by
  induction f generalizing parent with
  | nil => simp [Forest.map, Forest.Binds, Forest.preorder]
  | cons top below rest ihb ihr =>
    have hlineage : d.lineage top = d.kindOf top :: d.lineage parent := by
      rw [lineage, List.map_cons, ← kindsAbove,
        h.linked.kindsAbove_eq (h.parents top List.mem_cons_self)]
    have hbelow := ihb h.below_top
    simp only [hlineage, List.exists_mem_cons_iff] at hbelow
    simp only [Forest.preorder, List.forall_mem_cons, List.forall_mem_append, ← hbelow,
      ← ihr h.after_top, hlineage, List.exists_mem_cons_iff, Forest.map, Forest.Binds]
    by_cases habove : ∃ kind ∈ d.lineage parent, kind.Declares q
    · simp only [habove, or_true, implies_true, and_self]
    · by_cases hdeclares : (d.kindOf top).Declares q
      · simp only [habove, hdeclares, or_false, or_true, true_or, implies_true, true_and]
      · simp only [habove, hdeclares, or_false, false_or, and_assoc]

namespace Document

variable {d : Document} {q : String}

/-- The elements are the nodes below the root that have an element for a payload. -/
theorem forall_mem_elements_iff {P : NodeId → Element → Prop} :
    (∀ id ∈ d.elements, ∀ e ∈ d.element? id, P id e) ↔
      ∀ id ∈ d.descendants .root, ∀ e ∈ d.element? id, P id e := by
  refine forall_congr' fun id => ?_
  rw [elements, List.mem_filter]
  refine ⟨fun h hid e he => h ⟨hid, isElement_of_element? he⟩ e he, fun h hid => h hid.1⟩

theorem mem_qualifiers_kindOf_iff {id : NodeId} :
    q ∈ (d.kindOf id).qualifiers ↔ ∃ e ∈ d.element? id, q ∈ e.qualifiers := by
  rw [NodeKind.qualifiers_eq, element?_kindOf]
  cases d.element? id <;> simp

/-- A qualifier is in scope at a node if the payload of the node, or of one above it, declares it.
-/
theorem inScope_iff {id : NodeId} :
    d.InScope id q ↔ ∃ kind ∈ d.lineage id, kind.Declares q := by
  simp only [InScope, lineage, List.mem_map, exists_exists_and_eq_and, NodeKind.declares_iff,
    element?_kindOf]

/-- A document binds what its payloads bind: nothing above them declares a qualifier. -/
theorem Sound.binds_payloads_iff (hd : d.Sound) : d.payloads.Binds q ↔ d.Binds q := by
  obtain ⟨f, ht, hf, hn, -⟩ := hd.linked.exists_forest_below .root
  have hstands : Stands d .root f :=
    ⟨hd.linked, hf, fun top hm => (hd.linked.parent_iff top .root).2 (ht ▸ hm), hn⟩
  have hroot : ¬ ∃ kind ∈ d.lineage .root, kind.Declares q := by
    rw [hd.linked.lineage_root, hd.shaped.kindOf_root]
    simp [NodeKind.Declares]
  have hbinds := hstands.binds_iff (q := q)
  rw [or_iff_left hroot] at hbinds
  rw [Binds, forall_mem_elements_iff, hd.linked.descendants_eq ht hf, hd.linked.payloads_eq ht hf,
    hbinds]
  simp only [mem_qualifiers_kindOf_iff, inScope_iff, forall_exists_index, and_imp]

theorem Sound.lacks_payloads_iff (hd : d.Sound) : d.payloads.Lacks q ↔ d.Lacks q := by
  obtain ⟨f, ht, hf, -⟩ := hd.linked.exists_forest_below .root
  rw [Lacks, forall_mem_elements_iff, hd.linked.descendants_eq ht hf, hd.linked.payloads_eq ht hf,
    Forest.Lacks, Forest.preorder_map, List.forall_mem_map]
  simp only [mem_qualifiers_kindOf_iff, not_exists, not_and]

end Document

end SvgPress
