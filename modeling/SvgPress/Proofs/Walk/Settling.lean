import Mathlib.Data.List.Forall2
import SvgPress.Proofs.Walk.Replacing

/-!
# What a walk makes of the payloads

Some stages say all they do to a node by a function of its payload and of the payloads above it. A
walk with such stages settles the forest of payloads below the root from the top down: a payload is
changed by all stages in turn, and the trees below it see what has become of it. A walk with
children first rebuilds that forest from below. Both come to their end unless an element directly
under the root is to be removed.
-/

namespace SvgPress

open Document

/-- What a stage makes of the payload of a node, given the payloads above it, the nearest first, and
what it decides about the node. -/
def Edit := List NodeKind → NodeKind → NodeKind × Visit

/-- What edits in turn make of a payload, unless one of them removes the node. -/
def Edit.settle : List Edit → List NodeKind → NodeKind → Option NodeKind
  | [], _, kind => some kind
  | edit :: edits, above, kind =>
    match edit above kind with
    | (_, .remove) => none
    | (kind', .keep) => settle edits above kind'

/-- Edits in turn remove a node with this payload. -/
def Edit.Drops (edits : List Edit) (above : List NodeKind) (kind : NodeKind) : Prop :=
  Edit.settle edits above kind = none

namespace Forest

/-- The forest after its payloads have been settled, each below the settled ones above it. A payload
that is gone takes the trees below it along. -/
def settle (s : List NodeKind → NodeKind → Option NodeKind) :
    (above : List NodeKind) → Forest NodeKind → Forest NodeKind
  | _, nil => nil
  | above, cons kind below rest =>
    match s above kind with
    | none => rest.settle s above
    | some kind' => cons kind' (below.settle s (kind' :: above)) (rest.settle s above)

/-- The forest after each of its trees has been replaced by the forest that a payload and the
replaced trees below it give. Payloads directly under the root are marked. -/
def rebuild (t : Bool → NodeKind → Forest NodeKind → Forest NodeKind) :
    (top : Bool) → Forest NodeKind → Forest NodeKind
  | _, nil => nil
  | top, cons kind below rest => t top kind (below.rebuild t false) ++ rest.rebuild t top

end Forest

/-- A property of documents that plugins may rely on, and that they keep as long as every node stays
what it is. -/
structure Steady (P : Document → Prop) : Prop where
  linked : ∀ {d}, P d → d.Linked
  setKind : ∀ {d id kind}, P d → (∀ old, d.kind? id = some old → kind.ctorIdx = old.ctorIdx) →
    P (d.setKind id kind)
  detach : ∀ {d id}, P d → P (d.detach id)

/-- A stage does to the nodes that stand below another one what an edit says, and keeps what kind of
node they are. -/
structure Stage.Follows (P : Document → Prop) (stage : Stage) (edit : Edit) : Prop where
  visit : ∀ d id kind, P d → (d.parent? id).isSome = true → d.kind? id = some kind →
    (stage.rewriter.visit d id).outcome =
      .ok (d.setKind id (edit (d.kindsAbove id) kind).1, (edit (d.kindsAbove id) kind).2)
  alike : ∀ above kind, (edit above kind).1.ctorIdx = kind.ctorIdx

variable {P : Document → Prop} {stages : List Stage} {edits : List Edit} {childrenFirst : Bool}
  {d d₁ d' : Document} {parent child top : NodeId} {f f₁ below rest : Forest NodeId}
  {kind : NodeKind} {calls calls' : List Call} {outcome : Except Error Document}
  {before pending : List WalkStep} {F G : Forest NodeKind} {lost : NodeKind → Prop}

/-! ## One node -/

theorem Document.setKind_self (h : d.kind? child = some kind) : d.setKind child kind = d := by
  refine ext_node? rfl rfl fun other => ?_
  rw [setKind, node?_modifyNode]
  split_ifs with he
  · subst he
    rw [kind?] at h
    obtain ⟨node, hn, rfl⟩ := Option.map_eq_some_iff.1 h
    rw [hn]
    rfl
  · rfl

theorem Document.setKind_setKind (d : Document) (id : NodeId) (kind kind' : NodeKind) :
    (d.setKind id kind).setKind id kind' = d.setKind id kind' :=
  modifyNode_modifyNode d id _ _

theorem Document.kind?_setKind_self (h : d.kind? child = some kind) (kind' : NodeKind) :
    (d.setKind child kind').kind? child = some kind' := by
  rw [kind?_setKind, if_pos rfl, h]
  rfl

theorem Document.kindOf_setKind_self (h : d.kind? child = some kind) (kind' : NodeKind) :
    (d.setKind child kind').kindOf child = kind' := by
  rw [kindOf, kind?_setKind_self h]
  rfl

theorem Document.map_kindOf_setKind (h : child ∉ f.preorder) (kind : NodeKind) :
    f.map (d.setKind child kind).kindOf = f.map d.kindOf := by
  refine Forest.map_congr fun x hx => kindOf_congr ?_
  rw [kind?_setKind, if_neg]
  rintro rfl
  exact h hx

theorem Document.kindsAbove_setKind (hl : d.Linked) (id : NodeId) (kind : NodeKind) :
    (d.setKind id kind).kindsAbove id = d.kindsAbove id := by
  have hancestors : (d.setKind id kind).ancestors id = d.ancestors id := by
    rw [ancestors, ancestors, setKind, size_modifyNode]
    exact ancestorsUpTo_congr fun a _ => parent?_setKind d id a kind
  rw [kindsAbove, kindsAbove, hancestors]
  refine List.map_congr_left fun a ha => kindOf_congr ?_
  rw [kind?_setKind, if_neg]
  rintro rfl
  exact hl.climb.transGen.irrefl.irrefl a (hl.mem_ancestors_iff.1 ha)

theorem Document.isElement_of_ctorIdx {a b : Document} {x y : NodeId} {k k' : NodeKind}
    (ha : a.kind? x = some k) (hb : b.kind? y = some k') (h : k.ctorIdx = k'.ctorIdx) :
    a.isElement x = b.isElement y := by
  rw [SvgPress.isElement_eq, SvgPress.isElement_eq, ha, hb]
  simp only [Option.map_some, Option.any_some, h]

theorem Document.eq_ctorIdx {kind' : NodeKind} (hk : d.kind? child = some kind)
    (h : kind'.ctorIdx = kind.ctorIdx) :
    ∀ old, d.kind? child = some old → kind'.ctorIdx = old.ctorIdx := by
  intro old hold
  rw [hk] at hold
  rwa [← Option.some.inj hold]

/-- What the visit of a node by stages that follow edits comes to. -/
theorem visitNode_follows (hP : Steady P) (hs : List.Forall₂ (Stage.Follows P) stages edits)
    (hd : P d) (hp : d.parent? child = some parent) (hk : d.kind? child = some kind) (n : Nat) :
    (∃ kind', Edit.settle edits (d.kindsAbove child) kind = some kind' ∧
      kind'.ctorIdx = kind.ctorIdx ∧
      (visitNode parent child stages d).outcome = .ok (d.setKind child kind', true)) ∨
    (Edit.settle edits (d.kindsAbove child) kind = none ∧
      (∃ c ∈ visitCalls parent child (stages.zipIdx n) d, c.removes = true) ∧
      ∃ kind', kind'.ctorIdx = kind.ctorIdx ∧
        ((parent = .root ∧ d.isElement child = true) ∨
          (visitNode parent child stages d).outcome =
            .ok ((d.setKind child kind').detach child, false))) := by
  -- The visit changes nothing above the node, so all stages see the same payloads there.
  induction hs generalizing d kind n with
  | nil => exact .inl ⟨kind, rfl, rfl, by rw [setKind_self hk]; rfl⟩
  | @cons stage edit stages edits hstage _ ih =>
    have hvisit := hstage.visit d child kind hd (by rw [hp]; rfl) hk
    have halike := hstage.alike (d.kindsAbove child) kind
    rw [Edit.settle, List.zipIdx_cons]
    generalize edit (d.kindsAbove child) kind = edited at hvisit halike ⊢
    obtain ⟨kind₁, decision⟩ := edited
    have hk₁ : (d.setKind child kind₁).kind? child = some kind₁ := kind?_setKind_self hk kind₁
    cases decision with
    | remove =>
      refine .inr ⟨rfl, ⟨_, by rw [visitCalls_of_remove hvisit]; exact List.mem_cons_self, ?_⟩,
        kind₁, halike, ?_⟩
      · rw [Call.removes, Call.report, hvisit]
      · rw [visitNode_of_remove hvisit]
        by_cases hroot : parent = .root ∧ d.isElement child = true
        · exact .inl hroot
        · rw [← isElement_of_ctorIdx hk₁ hk halike] at hroot
          simp only [Bool.and_eq_true, decide_eq_true_eq]
          exact .inr (if_neg hroot)
    | keep =>
      have hd₁ : P (d.setKind child kind₁) := hP.setKind hd (eq_ctorIdx hk halike)
      have hp₁ : (d.setKind child kind₁).parent? child = some parent := by rwa [parent?_setKind]
      rw [visitNode_of_keep hvisit, visitCalls_of_keep hvisit, if_pos hp₁, if_pos hp₁]
      have hrest := ih hd₁ hp₁ hk₁ (n + 1)
      rw [kindsAbove_setKind (hP.linked hd)] at hrest
      simp only [setKind_setKind, isElement_of_ctorIdx hk₁ hk halike] at hrest
      rcases hrest with ⟨kind', hsettle, hctor, ho⟩ | ⟨hsettle, ⟨c, hc, hremoves⟩, kind', hctor, ho⟩
      · exact .inl ⟨kind', hsettle, hctor.trans halike, ho⟩
      · exact .inr ⟨hsettle, ⟨c, List.mem_cons_of_mem _ hc, hremoves⟩, kind', hctor.trans halike,
          ho⟩

/-! ## Forests -/

/-- A part of a walk has made a forest of the given payloads in the place of one that stands below a
node, or it was asked for the removal of an element directly under the root. Which elements are
asked for is known beforehand. -/
def Settles (P : Document → Prop) (d : Document) (parent : NodeId) (f : Forest NodeId)
    (calls : List Call) (outcome : Except Error Document) (F : Forest NodeKind)
    (lost : NodeKind → Prop) : Prop :=
  (∃ d' f', outcome = .ok d' ∧ P d' ∧ Replaced d d' parent f f' ∧ f'.map d'.kindOf = F ∧
    (parent = .root → ∀ x ∈ f.tops, d.isElement x = true → ¬ lost (d.kindOf x))) ∨
  (parent = .root ∧ ∃ c ∈ calls, c.removes = true ∧ c.node ∈ f.tops ∧
    d.isElement c.node = true ∧ lost (d.kindOf c.node))

namespace Settles

theorem mono (h : Settles P d parent f calls outcome F lost) (hc : calls ⊆ calls') :
    Settles P d parent f calls' outcome F lost := by
  rcases h with h | ⟨hroot, c, hm, h⟩
  · exact .inl h
  · exact .inr ⟨hroot, c, hc hm, h⟩

/-- Below another node than the root, nothing is refused. -/
theorem of_ne_root (h : Settles P d parent f calls outcome F lost) (hp : parent ≠ .root) :
    ∃ d' f', outcome = .ok d' ∧ P d' ∧ Replaced d d' parent f f' ∧ f'.map d'.kindOf = F := by
  rcases h with ⟨d', f', ho, hd', hr, hF, -⟩ | ⟨hroot, -⟩
  · exact ⟨d', f', ho, hd', hr, hF⟩
  · exact absurd hroot hp

theorem nil (hd : P d) (hl : d.Linked) : Settles P d parent .nil [] (.ok d) .nil lost :=
  .inl ⟨d, .nil, rfl, hd, .refl hl trivial, rfl, fun _ _ hx => absurd hx List.not_mem_nil⟩

/-- The trees after the first one are settled after it. -/
theorem cons {outcome' : Except Error Document} (hf : Stands d parent (.cons top below rest))
    (hfirst : Settles P d parent (.cons top below .nil) calls outcome F lost)
    (hrest : ∀ d₁, outcome = .ok d₁ → P d₁ → Stands d₁ parent rest →
      rest.map d₁.kindOf = rest.map d.kindOf → d₁.lineage parent = d.lineage parent →
      Settles P d₁ parent rest calls' outcome' G lost) :
    Settles P d parent (.cons top below rest) (calls ++ calls') outcome' (F ++ G) lost := by
  have hdisjoint : ∀ x ∈ rest.preorder, x ∉ (Forest.cons top below .nil).preorder :=
    fun x hx hm => hf.disjoint_first x hm hx
  rcases hfirst with ⟨d₁, f₁, rfl, hd₁, hr₁, rfl, hkeep₁⟩ | ⟨hroot, c, hc, hremoves, hnode, hlost⟩
  · -- Nothing of the first tree is among the later ones, so these are in `d₁` what they are in `d`.
    have htops : ∀ x ∈ rest.tops, d₁.isElement x = d.isElement x ∧ d₁.kindOf x = d.kindOf x := by
      intro x hx
      have hkind := hr₁.kind?_other x (hdisjoint x (rest.tops_subset_preorder hx))
      exact ⟨isElement_congr hkind, kindOf_congr hkind⟩
    rcases hrest d₁ rfl hd₁ (hr₁.stands_after hf) (hr₁.map_kindOf_eq hdisjoint)
        (hr₁.lineage_eq hf.first) with
      ⟨d', f', ho, hd', hr, rfl, hkeep⟩ | ⟨hroot, c, hc, hremoves, hnode, helement, hlost⟩
    · refine .inl ⟨d', f₁ ++ f', ho, hd', hr₁.cons hr hf, ?_, fun hroot x hx => ?_⟩
      · rw [Forest.map_append,
          hr.map_kindOf_eq fun x hx => hf.disjoint_first x (hr₁.subset hx)]
      · rcases List.mem_cons.1 hx with rfl | hx
        · exact hkeep₁ hroot x List.mem_cons_self
        · obtain ⟨helement, hkind⟩ := htops x hx
          rw [← helement, ← hkind]
          exact hkeep hroot x hx
    · obtain ⟨he, hkind⟩ := htops c.node hnode
      exact .inr ⟨hroot, c, List.mem_append_right _ hc, hremoves, List.mem_cons_of_mem _ hnode,
        he ▸ helement, hkind ▸ hlost⟩
  · refine .inr ⟨hroot, c, List.mem_append_left _ hc, hremoves, ?_, hlost⟩
    rw [List.mem_singleton.1 hnode]
    exact List.mem_cons_self

/-- What is below the top of a tree has been settled before the tree. -/
theorem under (hf : Stands d parent (.cons top below .nil)) (hr : Replaced d d₁ top below f₁)
    (h : Settles P d₁ parent (.cons top f₁ .nil) calls outcome F lost) :
    Settles P d parent (.cons top below .nil) calls outcome F lost := by
  have hkind : d₁.kind? top = d.kind? top := hr.kind?_other top hf.apart.1
  rcases h with ⟨d', f', ho, hd', hr', hF, hkeep⟩ | ⟨hroot, c, hc, hremoves, hnode, he, hlost⟩
  · refine .inl ⟨d', f', ho, hd', (hr.nest hf).trans hr', hF, fun hroot x hx => ?_⟩
    obtain rfl := List.mem_singleton.1 hx
    rw [← isElement_congr hkind, ← kindOf_congr hkind]
    exact hkeep hroot x List.mem_cons_self
  · obtain hnode := List.mem_singleton.1 hnode
    rw [hnode, isElement_congr hkind] at he
    rw [hnode, kindOf_congr hkind] at hlost
    rw [← hnode] at he hlost
    exact .inr ⟨hroot, c, hc, hremoves, by rw [hnode]; exact List.mem_cons_self, he, hlost⟩

end Settles

/-! ## Walks -/

section

variable {above : List NodeKind} {kind' : NodeKind} (hP : Steady P)
include hP

/-- A node that stays is followed by the trees below it. -/
theorem settles_first_of_stays (hd : P d) (hf : Stands d parent (.cons top below rest))
    (habove : d.lineage parent = above)
    (hsettle : Edit.settle edits above (d.kindOf top) = some kind')
    (hctor : kind'.ctorIdx = (d.kindOf top).ctorIdx)
    (hv : (visitNode parent top stages d).outcome = .ok (d.setKind top kind', true))
    (hbelow : ∀ {d₁ calls outcome}, P d₁ → Stands d₁ top below →
      below.map d₁.kindOf = below.map d.kindOf → d₁.lineage top = kind' :: above →
      Ends stages false d₁ [.children top below.tops] calls outcome →
      ∃ d₂ f₂, outcome = .ok d₂ ∧ P d₂ ∧ Replaced d₁ d₂ top below f₂ ∧ f₂.map d₂.kindOf = F)
    (h : Ends stages false d [.children parent (top :: rest.tops)] calls outcome) :
    ∃ first later d₁, calls = first ++ later ∧
      Settles P d parent (.cons top below .nil) first (.ok d₁) (.cons kind' F .nil)
        (Edit.Drops edits above) ∧
      Ends stages false d₁ [.children parent rest.tops] later outcome := by
  have hl := hf.linked
  have hp : d.parent? top = some parent := hf.parents top List.mem_cons_self
  have hk : d.kind? top = some (d.kindOf top) := kind?_eq_some_kindOf (holds_of_parent? hp)
  have hfirst : Stands (d.setKind top kind') parent (.cons top below .nil) :=
    hf.first.setKind top kind'
  have hkind : (d.setKind top kind').kindOf top = kind' := kindOf_setKind_self hk kind'
  have hlineage : (d.setKind top kind').lineage top = kind' :: above := by
    have hcons : (d.setKind top kind').lineage top =
        (d.setKind top kind').kindOf top :: (d.setKind top kind').kindsAbove top := rfl
    rw [hcons, hkind, kindsAbove_setKind hl, hl.kindsAbove_eq hp, habove]
  have hmap : below.map (d.setKind top kind').kindOf = below.map d.kindOf :=
    map_kindOf_setKind hf.apart.1 kind'
  have hinside : ∀ {calls outcome},
      Ends stages false (d.setKind top kind') [.children top below.tops] calls outcome →
      ∃ d₂ f₂, outcome = .ok d₂ ∧ P d₂ ∧ Replaced (d.setKind top kind') d₂ top below f₂ ∧
        f₂.map d₂.kindOf = F :=
    fun hends => hbelow (hP.setKind hd (eq_ctorIdx hk hctor)) hfirst.below_top hmap hlineage hends
  obtain ⟨later, rfl, hlater⟩ := h.enter_of_ok hp hv
  rw [if_pos rfl, children_setKind, hf.shows.1] at hlater
  rcases hlater.split with ⟨inside, last, d₂, rfl, hends, hlast⟩ | ⟨e, rfl, hends⟩
  · obtain ⟨_, f₂, ho, hd₂, hr, hF⟩ := hinside hends
    obtain rfl := Except.ok.inj ho
    refine ⟨_, last, d₂, (List.append_assoc _ _ _).symm, .inl ⟨d₂, .cons top f₂ .nil, rfl, hd₂,
      (Replaced.setKind hf.first List.mem_cons_self kind').trans (hr.nest hfirst), ?_,
      fun _ x hx _ hdrops => ?_⟩, hlast⟩
    · rw [Forest.map, hF, kindOf_congr (hr.kind?_other top hf.apart.1), hkind]
      rfl
    · rw [List.mem_singleton.1 hx, Edit.Drops, hsettle] at hdrops
      exact absurd hdrops (by simp)
  · obtain ⟨_, -, ho, -⟩ := hinside hends
    exact absurd ho (by simp)

/-- A node that goes takes the trees below it along. -/
theorem settles_first_of_goes (hd : P d) (hf : Stands d parent (.cons top below rest))
    (hroot : ¬ (parent = .root ∧ d.isElement top = true))
    (hctor : kind'.ctorIdx = (d.kindOf top).ctorIdx)
    (hv : (visitNode parent top stages d).outcome =
      .ok ((d.setKind top kind').detach top, false))
    (h : Ends stages false d [.children parent (top :: rest.tops)] calls outcome) :
    ∃ first later d₁, calls = first ++ later ∧
      Settles P d parent (.cons top below .nil) first (.ok d₁) .nil lost ∧
      Ends stages false d₁ [.children parent rest.tops] later outcome := by
  have hp : d.parent? top = some parent := hf.parents top List.mem_cons_self
  have hk : d.kind? top = some (d.kindOf top) := kind?_eq_some_kindOf (holds_of_parent? hp)
  obtain ⟨later, rfl, hlater⟩ := h.enter_of_ok hp hv
  rw [if_neg (by simp), List.nil_append] at hlater
  refine ⟨_, later, _, rfl, .inl ⟨_, .nil, rfl, hP.detach (hP.setKind hd (eq_ctorIdx hk hctor)),
    (Replaced.setKind hf.first List.mem_cons_self kind').trans
      (.detach (hf.first.setKind top kind')), rfl, fun hp' x hx he => ?_⟩, hlater⟩
  rw [List.mem_singleton.1 hx] at he
  exact absurd ⟨hp', he⟩ hroot

/-- A walk with parents first settles the payloads from the top down. -/
theorem settles_parentsFirst (hs : List.Forall₂ (Stage.Follows P) stages edits) (hd : P d)
    (hf : Stands d parent f) (h : Ends stages false d [.children parent f.tops] calls outcome) :
    Settles P d parent f calls outcome
      ((f.map d.kindOf).settle (Edit.settle edits) (d.lineage parent))
      (Edit.Drops edits (d.lineage parent)) := by
  induction f generalizing d parent calls outcome with
  | nil =>
    obtain ⟨rfl, rfl⟩ := h.eq_of_children_nil
    exact .nil hd hf.linked
  | cons top below rest ihb ihr =>
    have hl := hf.linked
    have hp : d.parent? top = some parent := hf.parents top List.mem_cons_self
    have hk : d.kind? top = some (d.kindOf top) := kind?_eq_some_kindOf (holds_of_parent? hp)
    have hafter : ∀ {F first later d₁}, Settles P d parent (.cons top below .nil) first (.ok d₁) F
          (Edit.Drops edits (d.lineage parent)) →
        Ends stages false d₁ [.children parent rest.tops] later outcome →
        Settles P d parent (.cons top below rest) (first ++ later) outcome
          (F ++ (rest.map d.kindOf).settle (Edit.settle edits) (d.lineage parent))
          (Edit.Drops edits (d.lineage parent)) := by
      intro F first later d₁ htree hends
      refine htree.cons hf fun d₂ ho hd₂ hstands hmap hlineage => ?_
      obtain rfl := Except.ok.inj ho
      have hsettles := ihr hd₂ hstands hends
      rwa [hmap, hlineage] at hsettles
    -- The walk goes below a node only if the node stays, and then under its new payload.
    have hvisited := visitNode_follows hP hs hd hp hk 0
    rw [hl.kindsAbove_eq hp] at hvisited
    rw [Forest.map, Forest.settle]
    rcases hvisited with
      ⟨kind', hsettle, hctor, hv⟩ | ⟨hsettle, ⟨c, hc, hremoves⟩, kind', hctor, hv⟩
    · rw [hsettle]
      obtain ⟨first, later, d₁, rfl, htree, hends⟩ := settles_first_of_stays hP hd hf rfl hsettle
        hctor hv (fun hd₁ hstands hmap hlineage hends => by
          have hsettles := ihb hd₁ hstands hends
          rw [hmap, hlineage] at hsettles
          exact hsettles.of_ne_root (hl.ne_root_of_parent? hp)) h
      exact hafter htree hends
    · rw [hsettle]
      by_cases hroot : parent = .root ∧ d.isElement top = true
      · have hnode : c.node = top := node_of_mem_visitCalls hc
        have hmem : c ∈ calls := by
          rcases h.enter hp with ⟨e, -, rfl, -⟩ | ⟨d₁, stays, later, -, rfl, -⟩
          · exact hc
          · exact List.mem_append_left _ hc
        exact .inr ⟨hroot.1, c, hmem, hremoves, hnode ▸ List.mem_cons_self, hnode ▸ hroot.2,
          hnode ▸ hsettle⟩
      · obtain ⟨first, later, d₁, rfl, htree, hends⟩ :=
          settles_first_of_goes hP hd hf hroot hctor (hv.resolve_left hroot) h
        exact hafter htree hends

end

end SvgPress
