import SvgPress.Proofs.Walk.Rebuilding

/-!
# Which nodes a walk reaches

Plugins may edit the node that they visit, take it out of the tree, or put its children in its
place. A walk with children first reaches every node that is in the tree before and after it, and
calls each plugin on it once. A walk with parents first does not go below a node that has left the
tree: children that have been put in the place of such a node stay in the tree and are not reached.
-/

namespace SvgPress

open Document Relation

/-! ## Acting on one node -/

namespace Document

/-- An edit of the payload or the place of one node. -/
inductive ActStep (id : NodeId) (d : Document) : Document → Prop
  | edit (kind : NodeKind) : ActStep id d (d.setKind id kind)
  | detach : ActStep id d (d.detach id)
  | unwrap {d' : Document} (h : d.unwrap id = .ok d') : ActStep id d d'

/-- Such edits, one after the other. -/
def Acts (id : NodeId) : Document → Document → Prop :=
  ReflTransGen (ActStep id)

theorem ActStep.shrinkStep {id : NodeId} {d d' : Document} (h : ActStep id d d') :
    ShrinkStep d d' := by
  cases h with
  | edit kind => exact .edit id kind
  | detach => exact .detach id
  | unwrap hu => exact .unwrap hu

theorem Acts.shrinks {id : NodeId} {d d' : Document} (h : Acts id d d') : d.Shrinks d' := by
  induction h with
  | refl => exact .refl
  | tail _ hstep ih => exact ih.tail hstep.shrinkStep

end Document

/-- Whatever a stage does to a document when it visits a node, it does to this node. -/
def Stage.ActsOnNode (stage : Stage) : Prop :=
  ∀ d id d' decision, d.Linked → d.Holds id →
    (stage.rewriter.visit d id).outcome = .ok (d', decision) → Acts id d d'

theorem Stage.ActsOnNode.shrinks {stage : Stage} (h : stage.ActsOnNode) : stage.Shrinks :=
  fun d id d' decision hl hid ho => (h d id d' decision hl hid ho).shrinks

variable {stages : List Stage} {childrenFirst : Bool} {d d₁ d' : Document}
  {parent top id x : NodeId} {f f₁ f' g below rest tree : Forest NodeId} {calls calls' : List Call}
  {unit : Nat}

theorem Replaced.andSetKind (h : Replaced d d₁ parent f f₁) (hid : id ∈ f.preorder)
    (kind : NodeKind) : Replaced d (d₁.setKind id kind) parent f f₁ where
  linked := h.linked.setKind id kind
  size_eq := by simpa [Document.setKind] using h.size_eq
  declaration := h.declaration
  doctype := h.doctype
  children_parent before after hsplit := by
    rw [children_setKind]
    exact h.children_parent before after hsplit
  children_other y hy hf := (children_setKind d₁ id y kind).trans (h.children_other y hy hf)
  parent?_other y hf := (parent?_setKind d₁ id y kind).trans (h.parent?_other y hf)
  kind?_other y hf := by
    rw [kind?_setKind, if_neg]
    · exact h.kind?_other y hf
    · rintro rfl
      exact hf hid
  shows := h.shows.congr fun y _ => children_setKind d₁ id y kind
  subset := h.subset

/-- What has become of a tree when its top has been acted on, and whether the top has stayed. -/
inductive Acted (d d' : Document) (parent top : NodeId) (below : Forest NodeId) :
    Bool → Forest NodeId → Prop
  /-- The tree is where it was. -/
  | stays (hp : d'.parent? top = some parent)
      (hr : Replaced d d' parent (.cons top below .nil) (.cons top below .nil)) :
      Acted d d' parent top below true (.cons top below .nil)
  /-- The tree is gone. -/
  | goes (hp : d'.parent? top = none) (hr : Replaced d d' parent (.cons top below .nil) .nil) :
      Acted d d' parent top below false .nil
  /-- What stood below the top has taken its place. -/
  | yields (hp : d'.parent? top = none) (hr : Replaced d d' parent (.cons top below .nil) below) :
      Acted d d' parent top below false below

namespace Acted

variable {stays : Bool}

theorem replaced (h : Acted d d' parent top below stays tree) :
    Replaced d d' parent (.cons top below .nil) tree := by
  cases h with
  | stays _ hr => exact hr
  | goes _ hr => exact hr
  | yields _ hr => exact hr

theorem stays_iff (h : Acted d d' parent top below stays tree) :
    d'.parent? top = some parent ↔ stays = true := by
  cases h with
  | stays hp _ => simp [hp]
  | goes hp _ => simp [hp]
  | yields hp _ => simp [hp]

/-- The tree still stands where it stood, unless its top has left. -/
theorem stands (h : Acted d d' parent top below true tree)
    (hf : Stands d parent (.cons top below .nil)) : Stands d' parent (.cons top below .nil) := by
  cases h with
  | stays hp hr =>
    refine ⟨hr.linked, hr.shows, fun x hx => ?_, hf.nodup⟩
    rw [List.mem_singleton.1 hx]
    exact hp

/-- Only a top that has stayed is among the nodes that are left. -/
theorem mem_preorder (h : Acted d d' parent top below stays tree) (hx : x ∈ tree.preorder) :
    (x = top ∧ stays = true) ∨ x ∈ below.preorder := by
  cases h with
  | stays _ _ =>
    simp only [Forest.preorder, List.append_nil, List.mem_cons] at hx
    exact hx.imp_left fun h => ⟨h, rfl⟩
  | goes _ _ => exact absurd hx List.not_mem_nil
  | yields _ _ => exact .inr hx

/-- One more edit of the top. -/
theorem step (h : Acted d d₁ parent top below stays tree)
    (hf : Stands d parent (.cons top below .nil)) (hstep : ActStep top d₁ d') :
    ∃ stays' tree', Acted d d' parent top below stays' tree' := by
  have htop : top ∈ (Forest.cons top below .nil).preorder := List.mem_cons_self
  cases hstep with
  | edit kind =>
    cases h with
    | stays hp hr => exact ⟨_, _, .stays (by rwa [parent?_setKind]) (hr.andSetKind htop kind)⟩
    | goes hp hr => exact ⟨_, _, .goes (by rwa [parent?_setKind]) (hr.andSetKind htop kind)⟩
    | yields hp hr => exact ⟨_, _, .yields (by rwa [parent?_setKind]) (hr.andSetKind htop kind)⟩
  | detach =>
    have hnone : (d₁.detach top).parent? top = none := by rw [parent?_detach, if_pos rfl]
    have hsame : d₁.parent? top = none → d₁.detach top = d₁ := fun hp => by rw [Document.detach, hp]
    cases h with
    | stays hp hr => exact ⟨_, _, .goes hnone (hr.trans (.detach ((stays hp hr).stands hf)))⟩
    | goes hp hr => exact ⟨_, _, .goes hnone (by rwa [hsame hp])⟩
    | yields hp hr => exact ⟨_, _, .yields hnone (by rwa [hsame hp])⟩
  | unwrap hu =>
    obtain ⟨above, hp', -, -, hd'⟩ := unwrap_eq_ok_iff.1 hu
    cases h with
    | stays hp hr =>
      have hstands := (stays hp hr).stands hf
      refine ⟨_, _, .yields ?_ (hr.trans (.unwrap hstands hu))⟩
      rw [hd', hstands.linked.parent?_spliced, if_pos rfl]
    | goes hp _ => rw [hp] at hp'; exact absurd hp' (by simp)
    | yields hp _ => rw [hp] at hp'; exact absurd hp' (by simp)

end Acted

theorem Document.Acts.acted (h : Acts top d d') (hf : Stands d parent (.cons top below .nil)) :
    ∃ stays tree, Acted d d' parent top below stays tree := by
  induction h with
  | refl =>
    exact ⟨true, _, .stays (hf.parents top List.mem_cons_self) (.refl hf.linked hf.shows)⟩
  | tail _ hstep ih =>
    obtain ⟨stays, tree, hacted⟩ := ih
    exact hacted.step hf hstep

/-! ## Visits -/

/-- How often a stage is called on a node. -/
def timesCalled (calls : List Call) (unit : Nat) (x : NodeId) : Nat :=
  calls.countP fun c => c.unit == unit && c.node == x

theorem timesCalled_append (calls calls' : List Call) (unit : Nat) (x : NodeId) :
    timesCalled (calls ++ calls') unit x = timesCalled calls unit x + timesCalled calls' unit x :=
  List.countP_append

theorem timesCalled_eq_zero (h : ∀ c ∈ calls, c.node ≠ x) : timesCalled calls unit x = 0 := by
  rw [timesCalled, List.countP_eq_zero]
  intro c hc
  simp [h c hc]

theorem timesCalled_visitCalls_of_ne {units : List (Stage × Nat)} (h : x ≠ top) :
    timesCalled (visitCalls parent top units d) unit x = 0 :=
  timesCalled_eq_zero fun c hc => by
    rw [node_of_mem_visitCalls hc]
    exact h.symm

/-- Stages act on the node that they visit. If it stays, all of them have been called. -/
theorem acts_visitNode (hs : ∀ stage ∈ stages, stage.ActsOnNode) (hl : d.Linked)
    (hp : d.parent? top = some parent) {stays : Bool} (first : Nat)
    (h : (visitNode parent top stages d).outcome = .ok (d', stays)) :
    Acts top d d' ∧ (d'.parent? top = some parent ↔ stays = true) ∧
      (stays = true → (visitCalls parent top (stages.zipIdx first) d).map (·.unit) =
        List.range' first stages.length) := by
  induction stages generalizing d first with
  | nil =>
    obtain ⟨rfl, rfl⟩ := Prod.mk.inj (Except.ok.inj h)
    exact ⟨.refl, by simp [hp], fun _ => rfl⟩
  | cons stage stages ih =>
    rw [List.zipIdx_cons]
    obtain ⟨d₁, decision, hv, hends⟩ := visitNode_cons_eq_ok h
    have hacts : Acts top d d₁ :=
      hs stage List.mem_cons_self d top d₁ decision hl (holds_of_parent? hp) hv
    rcases hends with ⟨-, -, rfl, rfl⟩ | ⟨-, hp₁, rfl, rfl⟩ | ⟨rfl, hp₁, h⟩
    · have hnone : (d₁.detach top).parent? top = none := by rw [parent?_detach, if_pos rfl]
      exact ⟨hacts.tail .detach, by simp [hnone], fun hstays => absurd hstays (by simp)⟩
    · exact ⟨hacts, by simp [hp₁], fun hstays => absurd hstays (by simp)⟩
    · obtain ⟨hlater, hstays, hcalls⟩ :=
        ih (fun s hm => hs s (List.mem_cons_of_mem _ hm)) (hacts.shrinks.shrunk hl).linked hp₁
          (first + 1) h
      refine ⟨hacts.trans hlater, hstays, fun h => ?_⟩
      rw [visitCalls_of_keep hv, if_pos hp₁, List.map_cons, hcalls h, List.length_cons,
        List.range'_succ]

/-- What the visit of a node leaves of its tree. A node that stays has been shown to each stage
once. -/
theorem acted_visitNode (hs : ∀ stage ∈ stages, stage.ActsOnNode)
    (hf : Stands d parent (.cons top below .nil)) {stays : Bool}
    (h : (visitNode parent top stages d).outcome = .ok (d', stays)) :
    (∃ tree, Acted d d' parent top below stays tree) ∧
      (stays = true → ∀ unit < stages.length,
        timesCalled (visitCalls parent top stages.zipIdx d) unit top = 1) := by
  have hp : d.parent? top = some parent := hf.parents top List.mem_cons_self
  obtain ⟨hacts, hstays, hcalls⟩ := acts_visitNode hs hf.linked hp 0 h
  constructor
  · obtain ⟨stays', tree, hacted⟩ := hacts.acted hf
    obtain rfl : stays = stays' := Bool.eq_iff_iff.2 (hstays.symm.trans hacted.stays_iff)
    exact ⟨tree, hacted⟩
  · intro h unit hu
    have hcount : timesCalled (visitCalls parent top stages.zipIdx d) unit top =
        ((visitCalls parent top stages.zipIdx d).map (·.unit)).count unit := by
      rw [timesCalled, List.count, List.countP_map]
      refine List.countP_congr fun c hc => ?_
      simp [node_of_mem_visitCalls hc]
    have hmem : unit ∈ List.range' 0 stages.length := by simpa [List.mem_range'_1] using hu
    rw [hcount, hcalls h]
    exact List.count_eq_one_of_mem List.nodup_range' hmem

/-! ## Forests -/

/-- A part of a walk has put a forest in the place of another one, with calls on the nodes of the
latter only, and has called each stage on each of the nodes that remain as often as is said. -/
structure Reaches (stages : List Stage) (d d' : Document) (parent : NodeId) (f f' : Forest NodeId)
    (calls : List Call) (times : NodeId → Nat) : Prop where
  replaced : Replaced d d' parent f f'
  within : ∀ c ∈ calls, c.node ∈ f.preorder
  called : ∀ x ∈ f'.preorder, ∀ unit < stages.length, timesCalled calls unit x = times x

namespace Reaches

variable {times times' : NodeId → Nat}

theorem nil (hl : d.Linked) : Reaches stages d d parent .nil .nil [] times where
  replaced := .refl hl trivial
  within _ hc := absurd hc List.not_mem_nil
  called _ hx := absurd hx List.not_mem_nil

theorem congr (h : Reaches stages d d' parent f f' calls times)
    (heq : ∀ x ∈ f'.preorder, times x = times' x) :
    Reaches stages d d' parent f f' calls times' :=
  { h with called := fun x hx unit hu => (h.called x hx unit hu).trans (heq x hx) }

/-- No calls are made on nodes that stand elsewhere. -/
theorem not_called (h : Reaches stages d d' parent f f' calls times) (hx : x ∉ f.preorder) :
    timesCalled calls unit x = 0 :=
  timesCalled_eq_zero fun c hc he => hx (he ▸ h.within c hc)

/-- Forests side by side are reached one after the other. -/
theorem append (h : Reaches stages d d₁ parent f f₁ calls times)
    (h' : Reaches stages d₁ d' parent g f' calls' times) (hp : parent ∉ f.preorder)
    (hd : ∀ x ∈ f.preorder, x ∉ g.preorder) :
    Reaches stages d d' parent (f ++ g) (f₁ ++ f') (calls ++ calls') times where
  replaced := h.replaced.append h'.replaced hp hd
  within c hc := by
    rw [Forest.preorder_append, List.mem_append]
    exact (List.mem_append.1 hc).imp (h.within c) (h'.within c)
  called y hy unit hu := by
    rw [Forest.preorder_append, List.mem_append] at hy
    rw [timesCalled_append]
    rcases hy with hy | hy
    · rw [h.called y hy unit hu, h'.not_called (hd y (h.replaced.subset hy)), Nat.add_zero]
    · have hnot : y ∉ f.preorder := fun hm => hd y hm (h'.replaced.subset hy)
      rw [h.not_called hnot, h'.called y hy unit hu, Nat.zero_add]

/-- The top of a tree is visited when what stands below it has been walked. -/
theorem visit (h : Reaches stages d d₁ top below f₁ calls times)
    (hs : ∀ stage ∈ stages, stage.ActsOnNode) (hf : Stands d parent (.cons top below .nil))
    {stays : Bool} (hv : (visitNode parent top stages d₁).outcome = .ok (d', stays)) :
    ∃ tree, Reaches stages d d' parent (.cons top below .nil) tree
      (calls ++ visitCalls parent top stages.zipIdx d₁)
      fun x => if x = top then 1 else times x := by
  have hstands := h.replaced.stands_nested hf
  obtain ⟨⟨tree, hacted⟩, hcalled⟩ := acted_visitNode hs hstands hv
  refine ⟨tree, (h.replaced.nest hf).trans hacted.replaced, fun c hc => ?_, fun x hx unit hu => ?_⟩
  · rcases List.mem_append.1 hc with hc | hc
    · exact List.mem_cons_of_mem _ (List.mem_append_left _ (h.within c hc))
    · rw [node_of_mem_visitCalls hc]
      exact List.mem_cons_self
  · rw [timesCalled_append]
    rcases hacted.mem_preorder hx with ⟨rfl, rfl⟩ | hx
    · rw [if_pos rfl, h.not_called hf.apart.1, hcalled rfl unit hu]
    · have hne : x ≠ top := fun he => hf.apart.1 (he ▸ h.replaced.subset hx)
      rw [if_neg hne, h.called x hx unit hu, timesCalled_visitCalls_of_ne hne, Nat.add_zero]

end Reaches

/-- A walk with children first calls each stage once on all nodes that remain. -/
theorem reaches_childrenFirst (hs : ∀ stage ∈ stages, stage.ActsOnNode) (hf : Stands d parent f)
    (h : Ends stages true d [.children parent f.tops] calls (.ok d')) :
    ∃ f', Reaches stages d d' parent f f' calls fun _ => 1 := by
  induction f generalizing d d' parent calls with
  | nil =>
    obtain ⟨rfl, ho⟩ := h.eq_of_children_nil
    obtain rfl := Except.ok.inj ho
    exact ⟨.nil, .nil hf.linked⟩
  | cons top below rest ihb ihr =>
    have hends := h.descend (hf.parents top List.mem_cons_self)
    rw [hf.shows.1] at hends
    rcases hends.split with ⟨inside, later, d₁, rfl, hinside, hlater⟩ | ⟨e, he, -⟩
    · obtain ⟨f₁, hbelow⟩ := ihb hf.below_top hinside
      have hp₁ : d₁.parent? top = some parent :=
        (hbelow.replaced.stands_nested hf.first).parents top List.mem_cons_self
      rcases hlater.split with ⟨visit, last, d₂, rfl, hvisit, hlast⟩ | ⟨e, he, -⟩
      · obtain ⟨rfl, ho⟩ := hvisit.eq_of_visit hp₁
        obtain ⟨⟨_, stays⟩, hv, rfl⟩ := Outcome.map_eq_ok_iff.1 ho.symm
        obtain ⟨tree, htree⟩ := hbelow.visit hs hf.first hv
        obtain ⟨rest', hrest⟩ := ihr (htree.replaced.stands_after hf) hlast
        rw [← List.append_assoc]
        simp only [ite_self] at htree
        exact ⟨tree ++ rest', htree.append hrest hf.first.not_mem hf.disjoint_first⟩
      · exact absurd he (by simp)
    · exact absurd he (by simp)

/-! ## Parents first -/

namespace Forest

theorem outer_append {α : Type} (gone : α → Bool) (f g : Forest α) :
    (f ++ g).outer gone = f.outer gone ++ g.outer gone := by
  induction f with
  | nil => rfl
  | cons top below rest _ ih => exact congrArg (cons top _) ih

/-- The part of a forest that is reached with parents first: all but what stood below nodes that
are missing in the forest that has taken its place. -/
def reached (f f' : Forest NodeId) : Forest NodeId :=
  f.outer fun y => decide (y ∉ f'.preorder)

theorem reached_append (hd : ∀ x ∈ f.preorder, x ∉ g.preorder) (hf : f'.preorder ⊆ f.preorder)
    (hg : g'.preorder ⊆ g.preorder) :
    (f ++ g).reached (f' ++ g') = f.reached f' ++ g.reached g' := by
  have hfirst : f.outer (fun y => decide (y ∉ (f' ++ g').preorder)) = f.reached f' := by
    refine outer_congr fun y hy => ?_
    have hnot : y ∉ g'.preorder := fun hm => hd y hy (hg hm)
    simp [hnot]
  have hlater : g.outer (fun y => decide (y ∉ (f' ++ g').preorder)) = g.reached g' := by
    refine outer_congr fun y hy => ?_
    have hnot : y ∉ f'.preorder := fun hm => hd y (hf hm) hy
    simp [hnot]
  rw [reached, outer_append, hfirst, hlater]

theorem reached_of_stays (htop : top ∉ below.preorder) :
    (cons top below nil).reached (cons top f' nil) = cons top (below.reached f') nil := by
  have hbelow : below.outer (fun y => decide (y ∉ (cons top f' nil).preorder)) =
      below.reached f' := by
    refine outer_congr fun y hy => ?_
    have hne : y ≠ top := fun he => htop (he ▸ hy)
    simp [preorder, hne]
  rw [reached, outer, hbelow]
  simp [preorder, outer]

theorem reached_of_leaves (htop : top ∉ f'.preorder) :
    (cons top below nil).reached f' = cons top nil nil := by
  simp [reached, outer, htop]

end Forest

/-- Once if the node is reached, and never otherwise. -/
def onceIfReached (f f' : Forest NodeId) (x : NodeId) : Nat :=
  if x ∈ (f.reached f').preorder then 1 else 0

/-- Of two forests side by side, each decides what is reached of it. -/
theorem onceIfReached_append (hd : ∀ x ∈ f.preorder, x ∉ g.preorder)
    (hf : f'.preorder ⊆ f.preorder) (hg : g'.preorder ⊆ g.preorder) :
    (∀ x ∈ f.preorder, onceIfReached f f' x = onceIfReached (f ++ g) (f' ++ g') x) ∧
      ∀ x ∈ g.preorder, onceIfReached g g' x = onceIfReached (f ++ g) (f' ++ g') x := by
  simp only [onceIfReached, Forest.reached_append hd hf hg, Forest.preorder_append, List.mem_append]
  constructor
  · intro x hx
    have hnot : x ∉ (g.reached g').preorder := fun hm => hd x hx (Forest.mem_outer hm)
    simp [hnot]
  · intro x hx
    have hnot : x ∉ (f.reached f').preorder := fun hm => hd x (Forest.mem_outer hm) hx
    simp [hnot]

theorem Reaches.append_once
    (h : Reaches stages d d₁ parent f f₁ calls (onceIfReached f f₁))
    (h' : Reaches stages d₁ d' parent g f' calls' (onceIfReached g f')) (hp : parent ∉ f.preorder)
    (hd : ∀ x ∈ f.preorder, x ∉ g.preorder) :
    Reaches stages d d' parent (f ++ g) (f₁ ++ f') (calls ++ calls')
      (onceIfReached (f ++ g) (f₁ ++ f')) := by
  obtain ⟨hfirst, hlater⟩ := onceIfReached_append hd h.replaced.subset h'.replaced.subset
  exact (h.congr fun x hx => hfirst x (h.replaced.subset hx)).append
    (h'.congr fun x hx => hlater x (h'.replaced.subset hx)) hp hd

/-- A node that stays is visited, and then what stands below it is walked. -/
theorem Reaches.enter (hs : ∀ stage ∈ stages, stage.ActsOnNode)
    (hf : Stands d parent (.cons top below .nil))
    (hv : (visitNode parent top stages d).outcome = .ok (d₁, true))
    (hacted : Acted d d₁ parent top below true tree)
    (h : Reaches stages d₁ d' top below f₁ calls (onceIfReached below f₁)) :
    Reaches stages d d' parent (.cons top below .nil) (.cons top f₁ .nil)
      (visitCalls parent top stages.zipIdx d ++ calls)
      (onceIfReached (.cons top below .nil) (.cons top f₁ .nil)) := by
  obtain ⟨-, hcalled⟩ := acted_visitNode hs hf hv
  have hstands := hacted.stands hf
  have hreplaced : Replaced d d₁ parent (.cons top below .nil) (.cons top below .nil) := by
    cases hacted with
    | stays _ hr => exact hr
  refine ⟨hreplaced.trans (h.replaced.nest hstands), fun c hc => ?_, fun x hx unit hu => ?_⟩
  · rcases List.mem_append.1 hc with hc | hc
    · rw [node_of_mem_visitCalls hc]
      exact List.mem_cons_self
    · exact List.mem_cons_of_mem _ (List.mem_append_left _ (h.within c hc))
  · rw [timesCalled_append, onceIfReached, Forest.reached_of_stays hf.apart.1]
    simp only [Forest.preorder, List.append_nil, List.mem_cons] at hx ⊢
    rcases hx with rfl | hx
    · rw [hcalled rfl unit hu, h.not_called hf.apart.1, if_pos (.inl rfl)]
    · have hne : x ≠ top := fun he => hf.apart.1 (he ▸ h.replaced.subset hx)
      rw [timesCalled_visitCalls_of_ne hne, Nat.zero_add, h.called x hx unit hu, onceIfReached]
      simp only [hne, false_or]

/-- Below a node that does not stay nothing is walked. -/
theorem Reaches.leave (hf : Stands d parent (.cons top below .nil))
    (hacted : Acted d d' parent top below false tree) :
    Reaches stages d d' parent (.cons top below .nil) tree
      (visitCalls parent top stages.zipIdx d) (onceIfReached (.cons top below .nil) tree) := by
  refine ⟨hacted.replaced, fun c hc => ?_, fun x hx unit hu => ?_⟩
  · rw [node_of_mem_visitCalls hc]
    exact List.mem_cons_self
  · have hbelow : ∀ y ∈ tree.preorder, y ∈ below.preorder := fun y hy =>
      (hacted.mem_preorder hy).resolve_left fun h => absurd h.2 (by simp)
    have hne : x ≠ top := fun he => hf.apart.1 (he ▸ hbelow x hx)
    have htop : top ∉ tree.preorder := fun hm => hf.apart.1 (hbelow top hm)
    rw [timesCalled_visitCalls_of_ne hne, onceIfReached, Forest.reached_of_leaves htop]
    simp [Forest.preorder, hne]

/-- A walk with parents first calls each stage once on the nodes that it reaches. -/
theorem reaches_parentsFirst (hs : ∀ stage ∈ stages, stage.ActsOnNode) (hf : Stands d parent f)
    (h : Ends stages false d [.children parent f.tops] calls (.ok d')) :
    ∃ f', Reaches stages d d' parent f f' calls (onceIfReached f f') := by
  induction f generalizing d d' parent calls with
  | nil =>
    obtain ⟨rfl, ho⟩ := h.eq_of_children_nil
    obtain rfl := Except.ok.inj ho
    exact ⟨.nil, .nil hf.linked⟩
  | cons top below rest ihb ihr =>
    have hafter : ∀ {d₁ tree first later},
        Reaches stages d d₁ parent (.cons top below .nil) tree first
          (onceIfReached (.cons top below .nil) tree) →
        Ends stages false d₁ [.children parent rest.tops] later (.ok d') →
        ∃ f', Reaches stages d d' parent (.cons top below rest) f' (first ++ later)
          (onceIfReached (.cons top below rest) f') := by
      intro d₁ tree first later htree hends
      obtain ⟨rest', hrest⟩ := ihr (htree.replaced.stands_after hf) hends
      exact ⟨tree ++ rest', htree.append_once hrest hf.first.not_mem hf.disjoint_first⟩
    rcases h.enter (hf.parents top List.mem_cons_self) with
      ⟨e, -, -, he⟩ | ⟨d₁, stays, later, hv, rfl, hlater⟩
    · exact absurd he (by simp)
    obtain ⟨⟨tree, hacted⟩, -⟩ := acted_visitNode hs hf.first hv
    cases stays with
    | false => exact hafter (.leave hf.first hacted) hlater
    | true =>
      have hstands := hacted.stands hf.first
      rw [if_pos rfl, hstands.shows.1] at hlater
      rcases hlater.split with ⟨inside, last, d₂, rfl, hinside, hlast⟩ | ⟨e, he, -⟩
      · obtain ⟨f₁, hbelow⟩ := ihb hstands.below_top hinside
        rw [← List.append_assoc]
        exact hafter (hbelow.enter hs hf.first hv hacted) hlast
      · exact absurd he (by simp)

/-! ## Whole walks -/

theorem Stands.mem_of_above (hf : Stands d parent f) {a : NodeId} (ha : a ∈ f.preorder)
    (h : TransGen d.IsParent a x) : x ∈ f.preorder := by
  rw [hf.linked.mem_preorder_iff hf.shows] at ha ⊢
  obtain ⟨top, ht, hr⟩ := ha
  exact ⟨top, ht, hr.trans h.to_reflTransGen⟩

/-- No node of a forest stands above a top of it. -/
theorem Stands.not_above_top (hf : Stands d parent f) {a : NodeId} (ha : a ∈ f.preorder)
    (ht : top ∈ f.tops) : ¬ TransGen d.IsParent a top := by
  intro h
  obtain ⟨b, hab, hb⟩ := TransGen.tail'_iff.1 h
  obtain rfl : b = parent := Option.some.inj (hb.symm.trans (hf.parents top ht))
  rcases reflTransGen_iff_eq_or_transGen.1 hab with rfl | hab
  · exact hf.not_mem ha
  · exact hf.not_mem_of_above (hf.linked.mem_ancestors_iff.2 hab) ha

/-- What is left of a forest below no gone node, in terms of the tree that it stands in. -/
theorem Stands.mem_outer_iff (hf : Stands d parent f) (gone : NodeId → Bool) :
    x ∈ (f.outer gone).preorder ↔
      x ∈ f.preorder ∧ ∀ a ∈ f.preorder, TransGen d.IsParent a x → gone a = false := by
  induction f generalizing parent with
  | nil => simp [Forest.outer, Forest.preorder]
  | cons top below rest ihb ihr =>
    have hrest := hf.after_top
    have hbelow := hf.below_top
    have houter : ∀ {g : Forest NodeId}, x ∉ g.preorder → x ∉ (g.outer gone).preorder :=
      fun hx hm => hx (Forest.mem_outer hm)
    simp only [Forest.outer, Forest.preorder, List.mem_cons, List.mem_append]
    by_cases htop : x = top
    · subst htop
      refine iff_of_true (.inl rfl) ⟨.inl rfl, fun a ha h => ?_⟩
      refine absurd h (hf.not_above_top ?_ List.mem_cons_self)
      simpa [Forest.preorder] using ha
    by_cases hx : x ∈ rest.preorder
    · -- Nothing of the first tree stands above a node of a later one.
      have hfirst : ∀ a, a = top ∨ a ∈ below.preorder → ¬ TransGen d.IsParent a x := by
        intro a ha h
        have hmem := hf.first.mem_of_above (by simpa [Forest.preorder] using ha) h
        exact hf.disjoint_first x hmem hx
      have hnot : x ∉ below.preorder := fun hm => hf.apart.2.2 x hm hx
      have hinside : x ∉ (if gone top then Forest.nil else below.outer gone).preorder := by
        split_ifs
        · exact List.not_mem_nil
        · exact houter hnot
      simp only [htop, hinside, hnot, hx, false_or, or_true, true_and, ihr hrest]
      constructor
      · rintro h a (rfl | ha | ha) hax
        · exact absurd hax (hfirst _ (.inl rfl))
        · exact absurd hax (hfirst a (.inr ha))
        · exact h a ha hax
      · exact fun h a ha => h a (.inr (.inr ha))
    · have hlater : ∀ a ∈ rest.preorder, ¬ TransGen d.IsParent a x :=
        fun a ha h => hx (hrest.mem_of_above ha h)
      simp only [htop, houter hx, hx, false_or, or_false]
      cases hgone : gone top with
      | true =>
        refine iff_of_false List.not_mem_nil ?_
        rintro ⟨hm, h⟩
        exact absurd (h top (.inl rfl) (hbelow.above hm)) (by simp [hgone])
      | false =>
        rw [if_neg (by simp), ihb hbelow]
        refine and_congr_right fun hm => ?_
        constructor
        · rintro h a (rfl | ha | ha) hax
          · exact hgone
          · exact h a ha hax
          · exact absurd hax (hlater a ha)
        · exact fun h a ha => h a (.inr (.inl ha))

/-- If plugins act on nothing but the node that they visit, a walk with children first calls each of
them once on every node that is below the root before and after it. A walk with parents first does
so with the nodes that have not lost a node above them, and calls no plugin on the others. -/
theorem walk_reaches_remaining (stages : List Stage) (childrenFirst : Bool) (d d' : Document)
    (hl : d.Linked) (hs : ∀ stage ∈ stages, stage.ActsOnNode)
    (ho : (walk stages childrenFirst d).outcome = .ok d') :
    ∀ x ∈ d.descendants .root, x ∈ d'.descendants .root → ∀ unit < stages.length,
      timesCalled (walkCalls stages childrenFirst d) unit x =
        if childrenFirst = true ∨
            ∀ a ∈ d.ancestors x, a ∈ d.descendants .root → a ∈ d'.descendants .root then 1
        else 0 := by
  intro x hx hx' unit hu
  obtain ⟨f, ht, hf, hends⟩ := exists_ends hl (fun stage hm => (hs stage hm).shrinks) childrenFirst
  rw [ho] at hends
  have hafter : ∀ {f'}, Replaced d d' .root f f' → d'.descendants .root = f'.preorder := by
    intro f' hr
    exact hr.linked.descendants_eq (hr.children_eq ht).symm hr.shows
  have hbefore : d.descendants .root = f.preorder := hl.descendants_eq ht hf.shows
  cases childrenFirst with
  | true =>
    obtain ⟨f', hreaches⟩ := reaches_childrenFirst hs hf hends
    rw [hafter hreaches.replaced] at hx'
    rw [hreaches.called x hx' unit hu, if_pos (.inl rfl)]
  | false =>
    obtain ⟨f', hreaches⟩ := reaches_parentsFirst hs hf hends
    rw [hafter hreaches.replaced] at hx'
    rw [hbefore] at hx
    rw [hreaches.called x hx' unit hu, onceIfReached, hafter hreaches.replaced, hbefore]
    refine if_congr ?_ rfl rfl
    rw [Forest.reached, hf.mem_outer_iff]
    simp only [hx, true_and, decide_eq_false_iff_not, not_not, hl.mem_ancestors_iff,
      Bool.false_eq_true, false_or]
    exact ⟨fun h a ha hm => h a hm ha, fun h a hm ha => h a ha hm⟩

/-- A stage that replaces each group by its children. -/
def Stage.ungrouping : Stage where
  name := "ungroup"
  traversal := .perItem
  rewriter := { visit := fun d id => match d.isElementNamed id "g", d.unwrap id with
    | true, .ok d' => .ok (d', .keep)
    | _, _ => .ok (d, .keep) }

theorem Stage.ungrouping_actsOnNode : Stage.ungrouping.ActsOnNode := by
  intro d id d' decision _ _ h
  simp only [Stage.ungrouping] at h
  split at h
  · rename_i d₁ _ hu
    obtain ⟨rfl, -⟩ := Prod.mk.inj (Except.ok.inj h)
    exact .single (.unwrap hu)
  · obtain ⟨rfl, -⟩ := Prod.mk.inj (Except.ok.inj h)
    exact .refl

/-- A drawing with a group that has one shape. -/
theorem exists_grouped : ∃ d : Document, d.Linked ∧ d.descendants .root = [⟨1⟩, ⟨2⟩, ⟨3⟩] ∧
    (∃ d', (walk [.ungrouping] true d).outcome = .ok d' ∧ d'.descendants .root = [⟨1⟩, ⟨3⟩]) ∧
    (∃ d', (walk [.ungrouping] false d).outcome = .ok d' ∧ d'.descendants .root = [⟨1⟩, ⟨3⟩]) ∧
    timesCalled (walkCalls [.ungrouping] false d) 0 ⟨3⟩ = 0 := by
  have h1 : Reachable false _ := .createElement .empty (Element.named "svg")
  have h2 := @Reachable.appendChild false _ .root ⟨1⟩ h1 (by decide) (by decide)
  have h3 := h2.createElement (Element.named "g")
  have h4 := @Reachable.appendChild false _ ⟨1⟩ ⟨2⟩ h3 (by decide) (by decide)
  have h5 := h4.createElement (Element.named "rect")
  have h6 := @Reachable.appendChild false _ ⟨2⟩ ⟨3⟩ h5 (by decide) (by decide)
  exact ⟨_, h6.linked, by decide, ⟨_, rfl, by decide⟩, ⟨_, rfl, by decide⟩, by decide⟩

/-- With children first, a shape is called before it takes the place of its group. -/
theorem walk_reaches_remaining_of_grouped : ∃ d d' : Document, d.Linked ∧
    (∀ stage ∈ [Stage.ungrouping], stage.ActsOnNode) ∧
    (walk [.ungrouping] true d).outcome = .ok d' ∧
    ⟨3⟩ ∈ d.descendants .root ∧ ⟨3⟩ ∈ d'.descendants .root ∧
    timesCalled (walkCalls [.ungrouping] true d) 0 ⟨3⟩ = 1 := by
  obtain ⟨d, hl, hd, ⟨d', ho, hd'⟩, -⟩ := exists_grouped
  have hs : ∀ stage ∈ [Stage.ungrouping], stage.ActsOnNode :=
    List.forall_mem_singleton.2 Stage.ungrouping_actsOnNode
  have hx : (⟨3⟩ : NodeId) ∈ d.descendants .root := by rw [hd]; decide
  have hx' : (⟨3⟩ : NodeId) ∈ d'.descendants .root := by rw [hd']; decide
  have htimes := walk_reaches_remaining [.ungrouping] true d d' hl hs ho ⟨3⟩ hx hx' 0 Nat.one_pos
  rw [if_pos (.inl rfl)] at htimes
  exact ⟨d, d', hl, hs, ho, hx, hx', htimes⟩

/-- With parents first, a shape that has taken the place of its group is not reached. -/
theorem walk_misses_ungrouped : ∃ d d' : Document, d.Linked ∧
    (∀ stage ∈ [Stage.ungrouping], stage.ActsOnNode) ∧
    (walk [.ungrouping] false d).outcome = .ok d' ∧
    ⟨3⟩ ∈ d.descendants .root ∧ ⟨3⟩ ∈ d'.descendants .root ∧
    timesCalled (walkCalls [.ungrouping] false d) 0 ⟨3⟩ = 0 := by
  obtain ⟨d, hl, hd, -, ⟨d', ho, hd'⟩, htimes⟩ := exists_grouped
  exact ⟨d, d', hl, List.forall_mem_singleton.2 Stage.ungrouping_actsOnNode, ho,
    by rw [hd]; decide, by rw [hd']; decide, htimes⟩

end SvgPress
