import SvgPress.Proofs.Walk.Settling

/-!
# What a document says after a walk

A walk with children first rebuilds the forest of payloads from below, whatever the visit of one
node makes of its tree. What a document says is kept apart from its store, so that walks over
different stores can be compared.
-/

namespace SvgPress

open Document

/-- What the visits of stages make of trees whose lower parts have been visited. -/
def Turns (P : Document → Prop) (stages : List Stage)
    (t : Bool → NodeKind → Forest NodeKind → Forest NodeKind) (lost : NodeKind → Prop) : Prop :=
  ∀ d parent top below, P d → Stands d parent (.cons top below .nil) →
    Settles P d parent (.cons top below .nil) (visitCalls parent top stages.zipIdx d)
      ((visitNode parent top stages d).outcome.map (·.1))
      (t (decide (parent = .root)) (d.kindOf top) (below.map d.kindOf)) lost

variable {P : Document → Prop} {stages : List Stage} {edits : List Edit} {childrenFirst : Bool}
  {d d' : Document} {parent id : NodeId} {f : Forest NodeId} {calls : List Call}
  {outcome : Except Error Document} {F : Forest NodeKind} {lost : NodeKind → Prop}
  {t : Bool → NodeKind → Forest NodeKind → Forest NodeKind}

/-- A walk with children first rebuilds the payloads from below. -/
theorem settles_childrenFirst (ht : Turns P stages t lost) (hd : P d)
    (hf : Stands d parent f) (h : Ends stages true d [.children parent f.tops] calls outcome) :
    Settles P d parent f calls outcome ((f.map d.kindOf).rebuild t (decide (parent = .root)))
      lost := by
  induction f generalizing d parent calls outcome with
  | nil =>
    obtain ⟨rfl, rfl⟩ := h.eq_of_children_nil
    exact .nil hd hf.linked
  | cons top below rest ihb ihr =>
    have hp : d.parent? top = some parent := hf.parents top List.mem_cons_self
    have htop : top ≠ .root := hf.linked.ne_root_of_parent? hp
    have hends := h.descend hp
    rw [hf.shows.1] at hends
    rcases hends.split with ⟨inside, later, d₁, rfl, hinside, hlater⟩ | ⟨e, rfl, hinside⟩
    · obtain ⟨_, f₁, ho, hd₁, hr, hF⟩ := (ihb hd hf.below_top hinside).of_ne_root htop
      obtain rfl := Except.ok.inj ho
      rw [decide_eq_false htop] at hF
      have hstands := hr.stands_nested hf.first
      have hp₁ : d₁.parent? top = some parent := hstands.parents top List.mem_cons_self
      -- The visit of the top meets what the walk has made of the trees below it.
      have htree := (ht d₁ parent top f₁ hd₁ hstands).under hf.first hr
      rw [kindOf_congr (hr.kind?_other top hf.apart.1), hF] at htree
      rw [Forest.map, Forest.rebuild]
      rcases hlater.split with ⟨visit, last, d₂, rfl, hvisit, hlast⟩ | ⟨e, rfl, hvisit⟩
      · obtain ⟨rfl, ho⟩ := hvisit.eq_of_visit hp₁
        rw [← ho] at htree
        refine (htree.cons hf fun d₃ ho hd₃ hstands hmap _ => ?_).mono
          (List.subset_append_right inside _)
        obtain rfl := Except.ok.inj ho
        have hsettles := ihr hd₃ hstands hlast
        rwa [hmap] at hsettles
      · -- The visit fails, so it has been refused.
        obtain ⟨rfl, ho⟩ := hvisit.eq_of_visit hp₁
        rw [← ho] at htree
        have hrefused : Settles P d parent (.cons top below rest)
            (visitCalls parent top stages.zipIdx d₁ ++ []) (.error e)
            (t (decide (parent = .root)) (d.kindOf top)
              ((below.map d.kindOf).rebuild t false) ++
              (rest.map d.kindOf).rebuild t (decide (parent = .root))) lost :=
          htree.cons hf fun d₃ ho => absurd ho (by simp)
        rw [List.append_nil] at hrefused
        exact hrefused.mono (List.subset_append_right inside _)
    · obtain ⟨_, -, ho, -⟩ := (ihb hd hf.below_top hinside).of_ne_root htop
      exact absurd ho (by simp)

/-! ## Documents without their stores -/

/-- All that a document says, apart from its store. -/
structure Gist where
  declaration : Option XmlDeclaration
  doctype : Option String
  root : NodeKind
  payloads : Forest NodeKind

/-- The elements among the payloads in front. -/
def Forest.topElements (F : Forest NodeKind) : List NodeKind :=
  F.tops.filter (·.element?.isSome)

namespace Document

def gist (d : Document) : Gist :=
  ⟨d.declaration, d.doctype, d.kindOf .root, d.payloads⟩

/-- Documents with consistent links that say the same are equal. -/
theorem Linked.beq_of_gist (hl : d.Linked) (hl' : d'.Linked) (h : d.gist = d'.gist) :
    (d == d') = true := by
  simp only [gist, Gist.mk.injEq] at h
  obtain ⟨hdeclaration, hdoctype, hroot, hpayloads⟩ := h
  refine (hl.same_iff hl' ?_).2 ⟨hdeclaration, hdoctype, hpayloads⟩
  rw [kind?_eq_some_kindOf hl.root_held, kind?_eq_some_kindOf hl'.root_held, hroot]

theorem Linked.topElements_payloads (hl : d.Linked) :
    d.payloads.topElements = (d.childElements .root).map d.kindOf := by
  obtain ⟨f, ht, hs, -⟩ := hl.exists_forest_below .root
  rw [hl.payloads_eq ht hs, Forest.topElements, Forest.tops_map, ht, childElements,
    List.filter_map]
  exact congrArg _ (List.filter_congr fun x _ => (isElement_eq_kindOf d x).symm)

end Document

/-- What a part of a walk that covers the whole tree makes of a document. -/
theorem Settles.gist_eq (h : Settles P d .root f calls outcome F lost) (hf : Stands d .root f)
    (ht : f.tops = d.children .root) :
    (∃ d', outcome = .ok d' ∧ P d' ∧ d'.Linked ∧ d'.gist = { d.gist with payloads := F } ∧
      ∀ kind ∈ d.payloads.topElements, ¬ lost kind) ∨
    (∃ c ∈ calls, c.removes = true ∧ c.node ∈ d.childElements .root) ∧
      ∃ kind ∈ d.payloads.topElements, lost kind := by
  rw [hf.linked.topElements_payloads]
  rcases h with ⟨d', f', rfl, hd', hr, rfl, hkeep⟩ | ⟨-, c, hc, hremoves, hnode, he, hlost⟩
  · have hchildren : d'.children .root = f'.tops := hr.children_eq ht
    refine .inl ⟨d', rfl, hd', hr.linked, ?_, fun kind hkind => ?_⟩
    · rw [gist, gist, hr.declaration, hr.doctype, hr.linked.payloads_eq hchildren.symm hr.shows,
        kindOf_congr (hr.kind?_other .root hf.not_mem)]
    · obtain ⟨x, hx, rfl⟩ := List.mem_map.1 hkind
      obtain ⟨hx, he⟩ := mem_childElements_iff.1 hx
      exact hkeep rfl x (ht ▸ hx) he
  · have hmem : c.node ∈ d.childElements .root := mem_childElements_iff.2 ⟨ht ▸ hnode, he⟩
    exact .inr ⟨⟨c, hc, hremoves, hmem⟩, _, List.mem_map_of_mem hmem, hlost⟩

/-! ## Whole walks -/

theorem exists_ends (hl : d.Linked) (hs : ∀ stage ∈ stages, stage.Shrinks) (childrenFirst : Bool) :
    ∃ f, f.tops = d.children .root ∧ Stands d .root f ∧
      Ends stages childrenFirst d [.children .root f.tops] (walkCalls stages childrenFirst d)
        (walk stages childrenFirst d).outcome := by
  obtain ⟨f, ht, hf, -⟩ := hl.exists_forest_below .root
  obtain ⟨r, hr, hw, -⟩ := exists_walkFrom stages childrenFirst d hl hs
  have hends := ends_of_walkFrom hr
  rw [← walkCalls, ← ht, ← hw] at hends
  exact ⟨f, ht, .of_tops hl hf ht, hends⟩

/-- A walk with parents first either settles the payloads of a document, or is asked for the removal
of an element directly under the root. -/
theorem walk_settles (hP : Steady P) (hs : List.Forall₂ (Stage.Follows P) stages edits)
    (hshrinks : ∀ stage ∈ stages, stage.Shrinks) (hd : P d) :
    (∃ d', (walk stages false d).outcome = .ok d' ∧ P d' ∧ d'.Linked ∧
      d'.gist = { d.gist with
        payloads := d.payloads.settle (Edit.settle edits) [d.kindOf .root] } ∧
      ∀ kind ∈ d.payloads.topElements, ¬ Edit.Drops edits [d.kindOf .root] kind) ∨
    (∃ c ∈ walkCalls stages false d, c.removes = true ∧ c.node ∈ d.childElements .root) ∧
      ∃ kind ∈ d.payloads.topElements, Edit.Drops edits [d.kindOf .root] kind := by
  obtain ⟨f, ht, hf, hends⟩ := exists_ends (hP.linked hd) hshrinks false
  have hsettles := settles_parentsFirst hP hs hd hf hends
  rw [hf.linked.lineage_root, ← hf.linked.payloads_eq ht hf.shows] at hsettles
  exact hsettles.gist_eq hf ht

/-- A walk with children first either rebuilds the payloads of a document, or is asked for the
removal of an element directly under the root. -/
theorem walk_rebuilds (hturns : Turns P stages t lost)
    (hshrinks : ∀ stage ∈ stages, stage.Shrinks) (hl : d.Linked) (hd : P d) :
    (∃ d', (walk stages true d).outcome = .ok d' ∧ P d' ∧ d'.Linked ∧
      d'.gist = { d.gist with payloads := d.payloads.rebuild t true } ∧
      ∀ kind ∈ d.payloads.topElements, ¬ lost kind) ∨
    (∃ c ∈ walkCalls stages true d, c.removes = true ∧ c.node ∈ d.childElements .root) ∧
      ∃ kind ∈ d.payloads.topElements, lost kind := by
  obtain ⟨f, ht, hf, hends⟩ := exists_ends hl hshrinks true
  have hsettles := settles_childrenFirst hturns hd hf hends
  rw [decide_eq_true rfl, ← hf.linked.payloads_eq ht hf.shows] at hsettles
  exact hsettles.gist_eq hf ht

end SvgPress
