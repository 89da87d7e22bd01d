import SvgPress.Proofs.Tree.Built
import SvgPress.Proofs.Walk.Rebuilding

/-!
# What becomes of the nodes on a walk

A walk with children first whose visits are never refused remakes the trees of a document from
below: a tree, with what has been made of the trees below it, makes way for the forest that the
visit of its top leaves. Nodes are told together with their payloads here, so that it can be said
which of them are left and what each of them has become.
-/

namespace SvgPress

open Document

/-- A node with its payload. -/
abbrev Entry := NodeId × NodeKind

/-- A node with the payload that a document has for it. -/
def Document.entry (d : Document) (id : NodeId) : Entry :=
  (id, d.kindOf id)

namespace Forest

variable {α : Type}

/-- The second forest is what is made of the first one: each of its trees, after the trees below its
top have been remade, has made way for a forest as the relation allows. Trees directly under the
root are marked. -/
inductive Remade (T : Bool → α → Forest α → Forest α → Prop) : Bool → Forest α → Forest α → Prop
  | nil {top : Bool} : Remade T top nil nil
  | cons {top : Bool} {x : α} {below below' tree rest rest' : Forest α}
      (hbelow : Remade T false below below') (htree : T top x below' tree)
      (hrest : Remade T top rest rest') : Remade T top (cons x below rest) (tree ++ rest')

end Forest

/-- The visits of stages remake a tree, whose lower parts have been remade, as a relation allows. -/
def Remakes (stages : List Stage)
    (T : Bool → Entry → Forest Entry → Forest Entry → Prop) : Prop :=
  ∀ d parent top below, d.Sound → Stands d parent (.cons top below .nil) →
    ∃ d' stays tree, (visitNode parent top stages d).outcome = .ok (d', stays) ∧ d'.Sound ∧
      Replaced d d' parent (.cons top below .nil) tree ∧
      T (decide (parent = .root)) (d.entry top) (below.map d.entry) (tree.map d'.entry)

variable {stages : List Stage} {d d' : Document} {parent top : NodeId}
  {f f' g below rest : Forest NodeId} {calls : List Call} {outcome : Except Error Document}
  {T : Bool → Entry → Forest Entry → Forest Entry → Prop}

theorem Forest.map_entry_snd (d : Document) (f : Forest NodeId) :
    (f.map d.entry).map Prod.snd = f.map d.kindOf :=
  f.map_map Prod.snd d.entry

theorem Forest.map_entry_fst (d : Document) (f : Forest NodeId) :
    (f.map d.entry).map Prod.fst = f := by
  induction f with
  | nil => rfl
  | cons top below rest ihb ihr => rw [map, map, ihb, ihr, entry]

theorem Forest.mem_map_entry {x : NodeId} {kind : NodeKind} :
    (x, kind) ∈ (f.map d.entry).preorder ↔ x ∈ f.preorder ∧ d.kindOf x = kind := by
  rw [preorder_map, List.mem_map]
  refine ⟨fun ⟨y, hy, he⟩ => ?_, fun ⟨hx, hk⟩ => ⟨x, hx, congrArg (x, ·) hk⟩⟩
  obtain ⟨rfl, hk⟩ := Prod.mk.inj he
  exact ⟨hy, hk⟩

/-- Forests of nodes with their payloads tell which nodes they are of. -/
theorem Forest.eq_of_map_entry (h : f'.map d'.entry = f.map d.entry) :
    f' = f ∧ ∀ x ∈ f.preorder, d'.kindOf x = d.kindOf x := by
  have hf : f' = f := by rw [← map_entry_fst d' f', h, map_entry_fst]
  subst hf
  refine ⟨rfl, fun x hx => ?_⟩
  have hlist := congrArg preorder h
  rw [preorder_map, preorder_map, List.map_inj_left] at hlist
  exact (Prod.mk.inj (hlist x hx)).2

theorem Document.entry_congr (h : d'.kind? top = d.kind? top) : d'.entry top = d.entry top :=
  congrArg (top, ·) (kindOf_congr h)

theorem Replaced.map_entry_eq (h : Replaced d d' parent f f')
    (hg : ∀ x ∈ g.preorder, x ∉ f.preorder) : g.map d'.entry = g.map d.entry :=
  Forest.map_congr fun x hx => entry_congr (h.kind?_other x (hg x hx))

/-- A walk with children first remakes the nodes from below. -/
theorem remade_childrenFirst (hs : Remakes stages T) (hd : d.Sound) (hf : Stands d parent f)
    (h : Ends stages true d [.children parent f.tops] calls outcome) :
    ∃ d' f', outcome = .ok d' ∧ d'.Sound ∧ Replaced d d' parent f f' ∧
      (f.map d.entry).Remade T (decide (parent = .root)) (f'.map d'.entry) := by
  induction f generalizing d parent calls outcome with
  | nil =>
    obtain ⟨-, rfl⟩ := h.eq_of_children_nil
    exact ⟨d, .nil, rfl, hd, .refl hf.linked trivial, .nil⟩
  | cons top below rest ihb ihr =>
    have hp : d.parent? top = some parent := hf.parents top List.mem_cons_self
    have htop : top ≠ .root := hf.linked.ne_root_of_parent? hp
    have hends := h.descend hp
    rw [hf.shows.1] at hends
    rcases hends.split with ⟨inside, later, d₁, rfl, hinside, hlater⟩ | ⟨e, rfl, hinside⟩
    · obtain ⟨_, below₁, ho, hd₁, hr₁, hbelow⟩ := ihb hd hf.below_top hinside
      obtain rfl := Except.ok.inj ho
      rw [decide_eq_false htop] at hbelow
      have hstands := hr₁.stands_nested hf.first
      have hp₁ : d₁.parent? top = some parent := hstands.parents top List.mem_cons_self
      -- The visit of the top meets what the walk has made of the trees below it.
      obtain ⟨d₂, stays, tree, hv, hd₂, hr₂, htree⟩ := hs d₁ parent top below₁ hd₁ hstands
      rw [entry_congr (hr₁.kind?_other top hf.apart.1)] at htree
      have hr := (hr₁.nest hf.first).trans hr₂
      rcases hlater.split with ⟨visit, last, d₃, rfl, hvisit, hlast⟩ | ⟨e, rfl, hvisit⟩
      · obtain ⟨-, ho⟩ := hvisit.eq_of_visit hp₁
        rw [hv] at ho
        obtain rfl := Except.ok.inj ho
        obtain ⟨d', rest', ho', hd', hr', hlater⟩ := ihr hd₂ (hr.stands_after hf) hlast
        refine ⟨d', tree ++ rest', ho', hd', hr.cons hr' hf, ?_⟩
        rw [hr.map_entry_eq fun x hx hm => hf.disjoint_first x hm hx] at hlater
        rw [Forest.map, Forest.map_append,
          hr'.map_entry_eq fun x hx => hf.disjoint_first x (hr.subset hx)]
        exact .cons hbelow htree hlater
      · obtain ⟨-, ho⟩ := hvisit.eq_of_visit hp₁
        rw [hv] at ho
        exact absurd ho (by simp [Except.map])
    · obtain ⟨_, -, ho, -⟩ := ihb hd hf.below_top hinside
      exact absurd ho (by simp)

/-- The forest is what a document has below its root. -/
structure Document.Grows (d : Document) (f : Forest NodeId) : Prop where
  stands : Stands d .root f
  tops : f.tops = d.children .root

theorem Document.Grows.descendants_eq (h : d.Grows f) : d.descendants .root = f.preorder :=
  h.stands.linked.descendants_eq h.tops h.stands.shows

theorem Document.Linked.exists_grows (h : d.Linked) : ∃ f, d.Grows f := by
  obtain ⟨f, ht, hf, -⟩ := h.exists_forest_below .root
  exact ⟨f, .of_tops h hf ht, ht⟩

/-- A walk with children first remakes the nodes of a document, and nothing else. -/
theorem walk_remakes (hs : Remakes stages T) (hshrinks : ∀ stage ∈ stages, stage.Shrinks)
    (hd : d.Sound) :
    ∃ d' f f', (walk stages true d).outcome = .ok d' ∧ d'.Sound ∧
      d'.declaration = d.declaration ∧ d'.doctype = d.doctype ∧ d.Grows f ∧ d'.Grows f' ∧
      (f.map d.entry).Remade T true (f'.map d'.entry) := by
  obtain ⟨f, ht, hf, hends⟩ := exists_ends hd.linked hshrinks true
  obtain ⟨d', f', ho, hd', hr, hremade⟩ := remade_childrenFirst hs hd hf hends
  have htops : f'.tops = d'.children .root := (hr.children_eq ht).symm
  rw [decide_eq_true rfl] at hremade
  exact ⟨d', f, f', ho, hd', hr.declaration, hr.doctype, ⟨hf, ht⟩,
    ⟨.of_tops hd'.linked hr.shows htops, htops⟩, hremade⟩

/-! ## Walks that leave everything as it is -/

/-- A walk over nodes whose visits leave the document as it is leaves it as it is. -/
theorem idle_childrenFirst (hf : Stands d parent f)
    (hv : ∀ p x, d.parent? x = some p → x ∈ f.preorder →
      ∃ stays, (visitNode p x stages d).outcome = .ok (d, stays))
    (h : Ends stages true d [.children parent f.tops] calls outcome) : outcome = .ok d := by
  induction f generalizing parent calls outcome with
  | nil => exact h.eq_of_children_nil.2
  | cons top below rest ihb ihr =>
    simp only [Forest.preorder, List.mem_cons, List.mem_append] at hv
    have hp : d.parent? top = some parent := hf.parents top List.mem_cons_self
    have hends := h.descend hp
    rw [hf.shows.1] at hends
    have hbelow : ∀ {calls outcome}, Ends stages true d [.children top below.tops] calls outcome →
        outcome = .ok d := ihb hf.below_top fun p x hx hm => hv p x hx (.inr (.inl hm))
    obtain ⟨stays, htop⟩ := hv parent top hp (.inl rfl)
    rcases hends.split with ⟨inside, later, d₁, rfl, hinside, hlater⟩ | ⟨e, rfl, hinside⟩
    · obtain rfl := Except.ok.inj (hbelow hinside)
      rcases hlater.split with ⟨visit, last, d₂, rfl, hvisit, hlast⟩ | ⟨e, rfl, hvisit⟩
      · have ho := (hvisit.eq_of_visit hp).2
        rw [htop] at ho
        obtain rfl := Except.ok.inj ho
        exact ihr hf.after_top (fun p x hx hm => hv p x hx (.inr (.inr hm))) hlast
      · have ho := (hvisit.eq_of_visit hp).2
        rw [htop] at ho
        exact absurd ho (by simp [Except.map])
    · exact absurd (hbelow hinside) (by simp)

/-- A walk with children first leaves a document as it is if no visit changes it. -/
theorem walk_idle (hl : d.Linked) (hshrinks : ∀ stage ∈ stages, stage.Shrinks)
    (hv : ∀ p x, d.parent? x = some p → x ∈ d.descendants .root →
      ∃ stays, (visitNode p x stages d).outcome = .ok (d, stays)) :
    (walk stages true d).outcome = .ok d := by
  obtain ⟨f, ht, hf, hends⟩ := exists_ends hl hshrinks true
  rw [hl.descendants_eq ht hf.shows] at hv
  exact idle_childrenFirst hf hv hends

end SvgPress
