import SvgPress.Proofs.Builtin.Edits
import SvgPress.Proofs.Walk.Remaking

/-!
# Empty containers and groups

Two plugins of the preset visit children first and look at what stands below a node: one removes
containers that are empty, the other unwraps groups. Unwrapping leaves no container empty that was
not, since an empty group without attributes has been removed before. So it makes no difference
whether the first plugin has gone through the whole tree when the second one starts.
-/

namespace SvgPress

open Document

/-! ## Forests -/

namespace Forest

variable {t : Bool → NodeKind → Forest NodeKind → Forest NodeKind}

theorem rebuild_append (F G : Forest NodeKind) (top : Bool) :
    (F ++ G).rebuild t top = F.rebuild t top ++ G.rebuild t top := by
  induction F with
  | nil => rfl
  | cons kind below rest _ ihr => rw [cons_append, rebuild, rebuild, ihr, append_assoc]

end Forest

/-- An element with the attributes of another one after its own. -/
def Element.receive (c : Element) (attributes : List Attribute) : Element :=
  { c with attributes := c.attributes ++ attributes }

theorem NodeKind.eq_element {kind : NodeKind} {e : Element} (h : kind.element? = some e) :
    kind = .element e := by
  cases kind <;> simp_all [element?]

namespace Builtin

/-- Whether an element is a container without an identity. -/
def isVain (e : Element) : Bool :=
  containerNames.contains e.name.localPart && (e.attr? "id").isNone

/-- Whether an empty container goes. -/
def goes (top : Bool) (kind : NodeKind) (below : Forest NodeKind) : Bool :=
  !top && kind.element?.any isVain && below.tops.isEmpty

/-- What `removeEmptyContainers` leaves of a tree. -/
def emptied (top : Bool) (kind : NodeKind) (below : Forest NodeKind) : Forest NodeKind :=
  if goes top kind below then .nil else .cons kind below .nil

/-- A group and what stands below it after it has handed down its attributes, if that can be. -/
def handed (g : Element) : Forest NodeKind → Element × Forest NodeKind
  | .cons (.element c) below .nil =>
    if canHandDown g c then
      ({ g with attributes := [] },
        .cons (.element { c with attributes := c.attributes ++ g.attributes }) below .nil)
    else (g, .cons (.element c) below .nil)
  | below => (g, below)

/-- What is left of a group. -/
def ungrouped (g : Element) (below : Forest NodeKind) : Forest NodeKind :=
  if (handed g below).1.attributes.isEmpty then (handed g below).2
  else .cons (.element (handed g below).1) (handed g below).2 .nil

/-- What `collapseGroups` leaves of a tree. -/
def collapsed (top : Bool) (kind : NodeKind) (below : Forest NodeKind) : Forest NodeKind :=
  match kind.element?.filter fun e => e.isNamed "g" && !top with
  | some g => ungrouped g below
  | none => .cons kind below .nil

/-- What both plugins leave of a tree. -/
def tidied (top : Bool) (kind : NodeKind) (below : Forest NodeKind) : Forest NodeKind :=
  if goes top kind below then .nil else collapsed top kind below

variable {F : Forest NodeKind} {g : Element} {kind : NodeKind} {top : Bool}
  {below : Forest NodeKind}

theorem handed_eq_nil (h : (handed g below).2 = .nil) : below = .nil := by
  rw [handed.eq_def] at h
  split at h
  · split_ifs at h
  · exact h

/-- Attributes that are handed down have other names than those of the child. -/
theorem nodup_names_receive {g c : Element} (hg : (g.attributes.map (·.name)).Nodup)
    (hc : (c.attributes.map (·.name)).Nodup) (h : canHandDown g c = true) :
    ((c.receive g.attributes).attributes.map (·.name)).Nodup := by
  rw [canHandDown, Bool.and_eq_true, List.all_eq_true] at h
  rw [Element.receive, List.map_append, List.nodup_append]
  refine ⟨hc, hg, ?_⟩
  rintro _ hx _ hy rfl
  obtain ⟨a, ha, rfl⟩ := List.mem_map.1 hx
  obtain ⟨b, hb, hname⟩ := List.mem_map.1 hy
  have hnone := h.2 b hb
  rw [Bool.not_eq_true', List.any_eq_false] at hnone
  exact hnone a ha (by simp [hname])

/-- What is left of a tree is nothing only if it was a group with nothing to it. -/
theorem goes_of_collapsed_eq_nil (h : collapsed top kind below = .nil) :
    goes top kind .nil = true ∧ below = .nil := by
  rw [collapsed] at h
  split at h
  · rename_i g hg
    obtain ⟨hkind, hg⟩ := Option.filter_eq_some_iff.1 hg
    rw [ungrouped] at h
    split_ifs at h with hempty
    obtain rfl := handed_eq_nil h
    refine ⟨?_, rfl⟩
    have hnone : g.attributes = [] := List.isEmpty_iff.1 hempty
    simp only [Bool.and_eq_true, Bool.not_eq_true', Element.isNamed, beq_iff_eq] at hg
    simp [goes, hkind, hg, isVain, Element.attr?, hnone, containerNames, Forest.tops]
  · exact absurd h (by simp)

/-- Unwrapping groups leaves something of a forest without empty groups, if it is not empty. -/
theorem emptied_eq_nil (h : (F.rebuild emptied false).rebuild collapsed false = .nil) :
    F.rebuild emptied false = .nil := by
  induction F with
  | nil => rfl
  | cons kind below rest ihb ihr =>
    rw [Forest.rebuild, Forest.rebuild_append] at h
    obtain ⟨hfirst, hlater⟩ := Forest.append_eq_nil.1 h
    rw [Forest.rebuild, ihr hlater, Forest.append_nil, emptied]
    rw [emptied] at hfirst
    split_ifs at hfirst ⊢ with hgoes
    · rfl
    · rw [Forest.rebuild, Forest.rebuild, Forest.append_nil] at hfirst
      obtain ⟨hnone, hbelow⟩ := goes_of_collapsed_eq_nil hfirst
      rw [ihb hbelow] at hgoes
      exact absurd hnone hgoes

theorem rebuild_tidied (F : Forest NodeKind) (top : Bool) :
    (F.rebuild emptied top).rebuild collapsed top = F.rebuild tidied top := by
  induction F generalizing top with
  | nil => rfl
  | cons kind below rest ihb ihr =>
    -- In walks of their own, containers are looked at while the groups below them still stand; in a
    -- shared walk, after these are gone. A container is empty in both cases or in neither.
    have hgoes : goes top kind (below.rebuild emptied false) =
        goes top kind (below.rebuild tidied false) := by
      have hnil : below.rebuild tidied false = .nil ↔ below.rebuild emptied false = .nil := by
        rw [← ihb]
        refine ⟨emptied_eq_nil, fun h => ?_⟩
        rw [h]
        rfl
      rw [goes, goes, Bool.eq_iff_iff]
      simp only [Bool.and_eq_true, Forest.isEmpty_tops_iff, hnil]
    rw [Forest.rebuild, Forest.rebuild, Forest.rebuild_append, ihr, emptied, tidied, hgoes]
    split_ifs
    · rfl
    · rw [Forest.rebuild, ihb]
      simp [Forest.rebuild]

/-! ## Visits -/

/-- A visit of stages makes of a tree, whose lower parts have been visited, what a function says. -/
def Visits (stages : List Stage)
    (t : Bool → NodeKind → Forest NodeKind → Forest NodeKind) : Prop :=
  ∀ d parent top below, d.Sound → Stands d parent (.cons top below .nil) →
    ∃ d' stays f', (visitNode parent top stages d).outcome = .ok (d', stays) ∧ d'.Sound ∧
      Replaced d d' parent (.cons top below .nil) f' ∧
      f'.map d'.kindOf = t (decide (parent = .root)) (d.kindOf top) (below.map d.kindOf)

theorem Visits.turns {stages : List Stage}
    {t : Bool → NodeKind → Forest NodeKind → Forest NodeKind} (h : Visits stages t) :
    Turns Document.Sound stages t fun _ => False := by
  intro d parent top below hd hf
  obtain ⟨d', stays, f', ho, hd', hr, hmap⟩ := h d parent top below hd hf
  rw [ho]
  exact .inl ⟨d', f', rfl, hd', hr, hmap, fun _ _ _ _ h => h⟩

/-- What is said of the nodes of a tree is said of their payloads. -/
theorem visits_of_remakes {stages : List Stage}
    {T : Bool → Entry → Forest Entry → Forest Entry → Prop}
    {t : Bool → NodeKind → Forest NodeKind → Forest NodeKind} (h : Remakes stages T)
    (ht : ∀ {top x below tree}, T top x below tree →
      tree.map Prod.snd = t top x.2 (below.map Prod.snd)) : Visits stages t := by
  intro d parent top below hd hf
  obtain ⟨d', stays, f', ho, hd', hr, htree⟩ := h d parent top below hd hf
  have hmap := ht htree
  simp only [Forest.map_entry_snd] at hmap
  exact ⟨d', stays, f', ho, hd', hr, hmap⟩

/-! ## What becomes of the nodes -/

/-- A group that does not stand directly under the root has attributes, and cannot hand them down. -/
def IsFirm (top : Bool) (kind : NodeKind) (below : Forest NodeKind) : Prop :=
  ∀ g, kind = .element g → g.isNamed "g" = true → top = false →
    g.attributes ≠ [] ∧ ∀ c inner, below = .cons (.element c) inner .nil → canHandDown g c = false

/-- What `removeEmptyContainers` makes of a tree. -/
inductive Sweeps (top : Bool) (x : Entry) (below : Forest Entry) : Forest Entry → Prop
  | removes (h : goes top x.2 (below.map Prod.snd) = true) : Sweeps top x below .nil
  | stays (h : goes top x.2 (below.map Prod.snd) = false) : Sweeps top x below (.cons x below .nil)

/-- What `collapseGroups` makes of a tree. -/
inductive Collapses : Bool → Entry → Forest Entry → Forest Entry → Prop
  | stays {top : Bool} {x : Entry} {below : Forest Entry}
      (h : IsFirm top x.2 (below.map Prod.snd)) : Collapses top x below (.cons x below .nil)
  | dissolves {id : NodeId} {g : Element} {below : Forest Entry} (hg : g.isNamed "g" = true)
      (hnone : g.attributes = []) : Collapses false (id, .element g) below below
  | handsDown {id child : NodeId} {g c : Element} {inner : Forest Entry}
      (hg : g.isNamed "g" = true) (hcan : canHandDown g c = true) :
      Collapses false (id, .element g) (.cons (child, .element c) inner .nil)
        (.cons (child, .element (c.receive g.attributes)) inner .nil)

/-- What both plugins make of a tree. -/
inductive Tidies (top : Bool) (x : Entry) (below : Forest Entry) : Forest Entry → Prop
  | removes (h : goes top x.2 (below.map Prod.snd) = true) : Tidies top x below .nil
  | collapses {tree : Forest Entry} (h : goes top x.2 (below.map Prod.snd) = false)
      (hc : Collapses top x below tree) : Tidies top x below tree

section

variable {x : Entry} {below tree : Forest Entry}

theorem Sweeps.map_snd (h : Sweeps top x below tree) :
    tree.map Prod.snd = emptied top x.2 (below.map Prod.snd) := by
  cases h with
  | removes h => rw [emptied, if_pos h, Forest.map]
  | stays h => rw [emptied, if_neg (by simp [h]), Forest.map, Forest.map]

theorem collapsed_eq_ungrouped (hg : g.isNamed "g" = true) (F : Forest NodeKind) :
    collapsed false (.element g) F = ungrouped g F := by
  simp only [collapsed, NodeKind.element?, Option.filter_some, hg, Bool.not_false, Bool.and_self,
    if_true]

/-- A firm group stays. -/
theorem ungrouped_of_isFirm (hg : g.isNamed "g" = true) (h : IsFirm false (.element g) F) :
    ungrouped g F = .cons (.element g) F .nil := by
  obtain ⟨hsome, hblocked⟩ := h g rfl hg rfl
  have hhanded : handed g F = (g, F) := by
    rw [handed.eq_def]
    split
    · rw [if_neg (by simp [hblocked _ _ rfl])]
    · rfl
  rw [ungrouped, hhanded, if_neg (by simpa using hsome)]

theorem Collapses.map_snd (h : Collapses top x below tree) :
    tree.map Prod.snd = collapsed top x.2 (below.map Prod.snd) := by
  cases h with
  | stays h =>
    rw [collapsed]
    split
    · rename_i g hg
      obtain ⟨hkind, hg⟩ := Option.filter_eq_some_iff.1 hg
      simp only [Bool.and_eq_true, Bool.not_eq_true'] at hg
      have hx : x.2 = .element g := NodeKind.eq_element hkind
      rw [hx, hg.2] at h
      rw [ungrouped_of_isFirm hg.1 h, Forest.map, hx, Forest.map]
    · rfl
  | @dissolves id g _ hg hnone =>
    have hkept : ∀ F, handed g F = (g, F) := by
      intro F
      rw [handed.eq_def]
      split
      · rw [if_neg (by simp [canHandDown, hnone])]
      · rfl
    rw [collapsed_eq_ungrouped hg, ungrouped, hkept, if_pos (by simp [hnone])]
  | handsDown hg hcan =>
    simp only [collapsed_eq_ungrouped hg, ungrouped, Forest.map, handed, if_pos hcan]
    rfl

theorem Tidies.map_snd (h : Tidies top x below tree) :
    tree.map Prod.snd = tidied top x.2 (below.map Prod.snd) := by
  cases h with
  | removes h => rw [tidied, if_pos h, Forest.map]
  | collapses h hc => rw [tidied, if_neg (by simp [h]), hc.map_snd]

end

variable {a b : Stage} {d : Document} {parent top : NodeId} {below : Forest NodeId}

/-! ## Containers -/

theorem decideEmptyContainer_eq (hd : d.Sound) (hf : Stands d parent (.cons top below .nil)) :
    decideEmptyContainer d top =
      if goes (decide (parent = .root)) (d.kindOf top) (below.map d.kindOf) then .remove
      else .keep := by
  have hp : d.parent? top = some parent := hf.parents top List.mem_cons_self
  have hempty : (d.children top).isEmpty = (below.map d.kindOf).tops.isEmpty := by
    rw [hf.shows.1, Forest.tops_map]
    cases below <;> rfl
  rw [goes, element?_kindOf, ← hempty, decideEmptyContainer]
  cases he : d.element? top with
  | none => simp
  | some e =>
    have hroot : d.documentElement? = some top ↔ parent = .root := by
      rw [hd.documentElement?_eq_some_iff (isElement_of_element? he), hp, Option.some.injEq]
    by_cases hparent : parent = .root
    · rw [if_pos (hroot.2 hparent)]
      simp [hparent]
    · rw [if_neg (hroot.not.2 hparent)]
      simp only [hparent, decide_false, Bool.not_false, Bool.true_and, Option.any_some, isVain,
        Bool.and_right_comm]

theorem outcome_visitNode_of_keep {d' : Document}
    (h : (b.rewriter.visit d top).outcome = .ok (d', .keep)) (parent : NodeId) :
    ∃ stays, (visitNode parent top [b] d).outcome = .ok (d', stays) := by
  rw [visitNode_of_keep h]
  split_ifs
  · exact ⟨true, rfl⟩
  · exact ⟨false, rfl⟩

/-- The visit of a container that goes detaches it. -/
theorem remakes_removal {stages : List Stage}
    (ha : a.rewriter.visit = Plugin.deciding decideEmptyContainer) (hd : d.Sound)
    (hf : Stands d parent (.cons top below .nil))
    (hgoes : goes (decide (parent = .root)) (d.kindOf top) (below.map d.kindOf) = true) :
    (visitNode parent top (a :: stages) d).outcome = .ok (d.detach top, false) ∧
      (d.detach top).Sound ∧ Replaced d (d.detach top) parent (.cons top below .nil) .nil := by
  have hvisit : (a.rewriter.visit d top).outcome = .ok (d, .remove) := by
    rw [ha, Plugin.deciding, decideEmptyContainer_eq hd hf, if_pos hgoes]
    rfl
  have hroot : parent ≠ .root := by
    rintro rfl
    simp [goes] at hgoes
  refine ⟨?_, steady_sound.detach hd, .detach hf⟩
  rw [visitNode_of_remove hvisit]
  simp [hroot]

theorem remakes_sweeps (ha : a.rewriter.visit = Plugin.deciding decideEmptyContainer) :
    Remakes [a] Sweeps := by
  intro d parent top below hd hf
  cases hgoes : goes (decide (parent = .root)) (d.kindOf top) (below.map d.kindOf) with
  | true =>
    obtain ⟨ho, hd', hr⟩ := remakes_removal ha hd hf hgoes
    refine ⟨d.detach top, false, .nil, ho, hd', hr, .removes ?_⟩
    rwa [Forest.map_entry_snd]
  | false =>
    have hvisit : (a.rewriter.visit d top).outcome = .ok (d, .keep) := by
      rw [ha, Plugin.deciding, decideEmptyContainer_eq hd hf, hgoes]
      rfl
    obtain ⟨stays, ho⟩ := outcome_visitNode_of_keep hvisit parent
    refine ⟨d, stays, .cons top below .nil, ho, hd, .refl hf.linked hf.shows, .stays ?_⟩
    rwa [Forest.map_entry_snd]

theorem visits_emptied (ha : a.rewriter.visit = Plugin.deciding decideEmptyContainer) :
    Visits [a] emptied :=
  visits_of_remakes (remakes_sweeps ha) Sweeps.map_snd

/-! ## Groups -/

theorem handDown_cases (hf : Stands d parent (.cons top below .nil)) {g : Element}
    (hg : d.element? top = some g) :
    (∃ child inner c, below = .cons child inner .nil ∧ d.element? child = some c ∧
      canHandDown g c = true) ∨
    handDown d top = d ∧
      ∀ c inner, below.map d.kindOf = .cons (.element c) inner .nil → canHandDown g c = false := by
  have hchildren : d.children top = below.tops := hf.shows.1
  rw [handDown, hchildren]
  rcases below with _ | ⟨child, inner, _ | ⟨next, inner', rest⟩⟩
  · exact .inr ⟨rfl, fun c inner h => absurd h (by simp [Forest.map])⟩
  · have hchild : d.element? child = (d.kindOf child).element? := (element?_kindOf d child).symm
    simp only [Forest.tops, Forest.map, hg]
    cases hc : d.kindOf child with
    | element c =>
      rw [hc] at hchild
      by_cases hcan : canHandDown g c = true
      · exact .inl ⟨child, inner, c, rfl, hchild, hcan⟩
      · rw [hchild]
        refine .inr ⟨?_, fun c' inner' h => ?_⟩
        · simp only [NodeKind.element?, hcan, Bool.false_eq_true, if_false]
        · simp only [Forest.cons.injEq, NodeKind.element.injEq] at h
          obtain ⟨rfl, -⟩ := h
          simpa using hcan
    | _ =>
      rw [hchild, hc]
      exact .inr ⟨rfl, fun c inner h => absurd h (by simp)⟩
  · exact .inr ⟨rfl, fun c inner h => absurd h (by simp [Forest.map])⟩

/-- Handing down attributes changes the payloads of a group and of its only child. -/
theorem handDown_spec (hd : d.Sound) {child : NodeId} {inner : Forest NodeId}
    (hf : Stands d parent (.cons top (.cons child inner .nil) .nil)) {g c : Element}
    (hg : d.element? top = some g) (hc : d.element? child = some c)
    (hcan : canHandDown g c = true) :
    (handDown d top).Sound ∧
      Replaced d (handDown d top) parent (.cons top (.cons child inner .nil) .nil)
        (.cons top (.cons child inner .nil) .nil) ∧
      (handDown d top).element? top = some { g with attributes := [] } ∧
      (Forest.cons child inner .nil).map (handDown d top).entry =
        .cons (child, .element (c.receive g.attributes)) (inner.map d.entry) .nil := by
  have hn := hf.nodup
  simp only [Forest.preorder, List.append_nil, List.nodup_cons, List.mem_cons, not_or] at hn
  have hk := element?_eq_some_iff.1 hg
  have hkc := element?_eq_some_iff.1 hc
  have hkc' : (d.setKind top (.element { g with attributes := [] })).kind? child =
      some (.element c) := by
    rw [kind?_setKind, if_neg (Ne.symm hn.1.1), hkc]
  have hdoc : handDown d top = (d.setKind top (.element { g with attributes := [] })).setKind child
      (.element (c.receive g.attributes)) := by
    have hchildren : d.children top = [child] := hf.shows.1
    rw [handDown, hchildren]
    simp only [hg, hc, hcan, if_true]
    rfl
  have hfirst := hf.setKind top (.element { g with attributes := [] })
  rw [hdoc]
  refine ⟨steady_sound.setKind (steady_sound.setKind hd (eq_ctorIdx hk rfl)) (eq_ctorIdx hkc' rfl),
    (Replaced.setKind hf List.mem_cons_self _).trans
      (.setKind hfirst (by simp [Forest.preorder]) _), ?_, ?_⟩
  · rw [element?_eq_some_iff, kind?_setKind, if_neg hn.1.1, kind?_setKind_self hk]
  · have hinner : inner.map ((d.setKind top (.element { g with attributes := [] })).setKind child
        (.element (c.receive g.attributes))).entry = inner.map d.entry := by
      refine Forest.map_congr fun x hx => entry_congr ?_
      have hchild : x ≠ child := fun h => hn.2.1 (h ▸ hx)
      have htop : x ≠ top := fun h => hn.1.2 (h ▸ hx)
      rw [kind?_setKind, if_neg hchild, kind?_setKind, if_neg htop]
    rw [Forest.map, hinner, entry, kindOf_setKind_self hkc', Forest.map]

/-- A group that does not stand directly under the root can be unwrapped. -/
theorem remakes_unwrap (hd : d.Sound) (hf : Stands d parent (.cons top below .nil))
    (hroot : parent ≠ .root) (he : d.isElement top = true) :
    ∃ d', d.unwrap top = .ok d' ∧ d'.Sound ∧ Replaced d d' parent (.cons top below .nil) below ∧
      below.map d'.entry = below.map d.entry := by
  have hp : d.parent? top = some parent := hf.parents top List.mem_cons_self
  obtain ⟨d', hu⟩ : ∃ d', d.unwrap top = .ok d' :=
    exists_unwrap (by simp [hp]) (by simpa [hp] using hroot) he
  have hr := Replaced.unwrap hf hu
  refine ⟨d', hu, ⟨hr.linked, hd.shaped.unwrap hd.linked hu⟩, hr, ?_⟩
  obtain ⟨parent', -, -, -, rfl⟩ := unwrap_eq_ok_iff.1 hu
  exact Forest.map_congr fun x _ => entry_congr (kind?_spliced _ _ _ _)

theorem remakes_collapses (hb : b.rewriter.visit = visitGroup) : Remakes [b] Collapses := by
  intro d parent top below hd hf
  have hp : d.parent? top = some parent := hf.parents top List.mem_cons_self
  -- A visit that leaves the document as it is leaves the tree as it is.
  have hkeep : (b.rewriter.visit d top).outcome = .ok (d, .keep) →
      IsFirm (decide (parent = .root)) (d.kindOf top) (below.map d.kindOf) →
      ∃ d' stays tree, (visitNode parent top [b] d).outcome = .ok (d', stays) ∧ d'.Sound ∧
        Replaced d d' parent (.cons top below .nil) tree ∧
        Collapses (decide (parent = .root)) (d.entry top) (below.map d.entry)
          (tree.map d'.entry) := by
    intro hvisit hfirm
    obtain ⟨stays, ho⟩ := outcome_visitNode_of_keep hvisit parent
    refine ⟨d, stays, .cons top below .nil, ho, hd, .refl hf.linked hf.shows, .stays ?_⟩
    rwa [Forest.map_entry_snd]
  by_cases hgroup : d.isElementNamed top "g" = true ∧ d.parent? top ≠ some .root
  · obtain ⟨g, hg, hnamed⟩ : ∃ g, d.element? top = some g ∧ g.isNamed "g" = true :=
      Option.any_eq_true _ _ |>.1 hgroup.1
    have hroot : parent ≠ .root := fun h => hgroup.2 (h ▸ hp)
    have hentry : d.entry top = (top, .element g) := by rw [entry, kindOf_of_element? hg]
    have hvisit : (b.rewriter.visit d top).outcome = (visitGroup d top).outcome := by rw [hb]
    rw [visitGroup_of_group hgroup.1 hgroup.2] at hvisit
    rcases handDown_cases hf hg with ⟨child, inner, c, rfl, hc, hcan⟩ | ⟨hdoc, hblocked⟩
    · obtain ⟨hsound, hr, hemptied, hmap⟩ := handDown_spec hd hf hg hc hcan
      have hstands : Stands (handDown d top) parent (.cons top (.cons child inner .nil) .nil) :=
        ⟨hr.linked, hr.shows, fun x hx => by rw [parent?_handDown]; exact hf.parents x hx, hf.nodup⟩
      obtain ⟨d', hu, hd', hr', hmap'⟩ :=
        remakes_unwrap hsound hstands hroot (isElement_of_element? hemptied)
      rw [hemptied, Option.any_some, hu] at hvisit
      obtain ⟨stays, ho⟩ := outcome_visitNode_of_keep hvisit parent
      refine ⟨d', stays, .cons child inner .nil, ho, hd', hr.trans hr', ?_⟩
      rw [hmap', hmap, hentry, decide_eq_false hroot, Forest.map, Forest.map, entry,
        kindOf_of_element? hc]
      exact .handsDown hnamed hcan
    · rw [hdoc, hg, Option.any_some] at hvisit
      split_ifs at hvisit with hnone
      · obtain ⟨d', hu, hd', hr', hmap'⟩ :=
          remakes_unwrap hd hf hroot (isElement_of_element? hg)
        rw [hu] at hvisit
        obtain ⟨stays, ho⟩ := outcome_visitNode_of_keep hvisit parent
        refine ⟨d', stays, below, ho, hd', hr', ?_⟩
        rw [hmap', hentry, decide_eq_false hroot]
        exact .dissolves hnamed (List.isEmpty_iff.1 hnone)
      · refine hkeep hvisit fun g' hg' _ _ => ?_
        rw [kindOf_of_element? hg, NodeKind.element.injEq] at hg'
        subst hg'
        exact ⟨by simpa using hnone, hblocked⟩
  · refine hkeep (by rw [hb, visitGroup_of_other hgroup]; rfl) fun g hg hnamed hnot => ?_
    refine absurd ⟨?_, ?_⟩ hgroup
    · rw [isElementNamed, ← element?_kindOf, hg]
      exact hnamed
    · rw [hp]
      simpa using hnot

theorem visits_collapsed (hb : b.rewriter.visit = visitGroup) : Visits [b] collapsed :=
  visits_of_remakes (remakes_collapses hb) Collapses.map_snd

/-- A stage that comes after the removal of empty containers sees what is not removed. -/
theorem remakes_tidies (ha : a.rewriter.visit = Plugin.deciding decideEmptyContainer)
    (hb : b.rewriter.visit = visitGroup) : Remakes [a, b] Tidies := by
  intro d parent top below hd hf
  cases hgoes : goes (decide (parent = .root)) (d.kindOf top) (below.map d.kindOf) with
  | true =>
    obtain ⟨ho, hd', hr⟩ := remakes_removal ha hd hf hgoes
    refine ⟨d.detach top, false, .nil, ho, hd', hr, .removes ?_⟩
    rwa [Forest.map_entry_snd]
  | false =>
    have hp : d.parent? top = some parent := hf.parents top List.mem_cons_self
    have hvisit : (a.rewriter.visit d top).outcome = .ok (d, .keep) := by
      rw [ha, Plugin.deciding, decideEmptyContainer_eq hd hf, hgoes]
      rfl
    obtain ⟨d', stays, tree, ho, hd', hr, htree⟩ := remakes_collapses hb d parent top below hd hf
    rw [visitNode_of_keep hvisit, if_pos hp]
    refine ⟨d', stays, tree, ho, hd', hr, .collapses ?_ htree⟩
    rwa [Forest.map_entry_snd]

theorem visits_tidied (ha : a.rewriter.visit = Plugin.deciding decideEmptyContainer)
    (hb : b.rewriter.visit = visitGroup) : Visits [a, b] tidied :=
  visits_of_remakes (remakes_tidies ha hb) Tidies.map_snd

end Builtin

end SvgPress
