import Mathlib.Tactic.Linarith
import SvgPress.Proofs.Tree.Reachable
import SvgPress.Proofs.Walk.Calls

/-!
# Walks over trees that shrink

Plugins may take nodes out of the tree and put the children of an element in its place while it is
walked, wherever they like. No node is taken up twice all the same: whatever stands above a node
that has been found, at any time after it was found, has been taken up before. Every node that is
taken up pays for the steps that it causes.
-/

namespace SvgPress

open Relation
open scoped List

/-! ## Edits that let a tree shrink -/

namespace Document

/-- An edit that puts no node below another one that it did not stand below before. -/
inductive ShrinkStep (d : Document) : Document → Prop
  | edit (id : NodeId) (kind : NodeKind) : ShrinkStep d (d.setKind id kind)
  | detach (id : NodeId) : ShrinkStep d (d.detach id)
  | unwrap {id : NodeId} {d' : Document} (h : d.unwrap id = .ok d') : ShrinkStep d d'

/-- Such edits, one after the other. -/
def Shrinks : Document → Document → Prop :=
  ReflTransGen ShrinkStep

/-- What is left of a document after such edits. -/
structure Shrunk (d d' : Document) : Prop where
  linked : d'.Linked
  size_eq : d'.nodes.size = d.nodes.size
  above : ∀ {a x}, TransGen d'.IsParent a x → TransGen d.IsParent a x

variable {d d' : Document}

theorem ShrinkStep.shrunk (h : ShrinkStep d d') (hl : d.Linked) : Shrunk d d' := by
  cases h with
  | edit id kind =>
    refine ⟨hl.setKind id kind, by simp [Document.setKind], fun {a x} ht => ?_⟩
    refine TransGen.mono (fun above below hab => ?_) a x ht
    rwa [IsParent, parent?_setKind] at hab
  | detach id =>
    refine ⟨hl.detach id, size_detach d id, fun {a x} ht => ?_⟩
    exact TransGen.mono (fun above below => isParent_of_detach) a x ht
  | unwrap hu =>
    refine ⟨hl.unwrap hu, ?_, fun {a x} ht => ?_⟩
    · obtain ⟨parent, -, -, -, rfl⟩ := unwrap_eq_ok_iff.1 hu
      exact size_spliced d parent _
    · obtain ⟨parent, hp, -, -, rfl⟩ := unwrap_eq_ok_iff.1 hu
      induction ht with
      | single hab => exact hl.transGen_of_spliced hp hab
      | tail _ hbc ih => exact ih.trans (hl.transGen_of_spliced hp hbc)

theorem Shrinks.shrunk (h : d.Shrinks d') (hl : d.Linked) : Shrunk d d' := by
  induction h with
  | refl => exact ⟨hl, rfl, fun ht => ht⟩
  | tail _ hstep ih =>
    have hlast := hstep.shrunk ih.linked
    exact ⟨hlast.linked, hlast.size_eq.trans ih.size_eq, fun ht => ih.above (hlast.above ht)⟩

end Document

open Document

/-- Whatever a stage does to a document when it visits a node, it lets the tree shrink. -/
def Stage.Shrinks (stage : Stage) : Prop :=
  ∀ d id d' decision, d.Linked → d.Holds id →
    (stage.rewriter.visit d id).outcome = .ok (d', decision) → d.Shrinks d'

variable {stages : List Stage} {childrenFirst : Bool} {bound : Nat} {d d' : Document}
  {parent child : NodeId} {rest taken : List NodeId} {step : WalkStep} {calls : List Call}
  {first pending : List WalkStep}

theorem shrinks_of_visitNode (hs : ∀ stage ∈ stages, stage.Shrinks) (hl : d.Linked)
    (hc : d.Holds child) {stays : Bool}
    (h : (visitNode parent child stages d).outcome = .ok (d', stays)) : d.Shrinks d' := by
  induction stages generalizing d with
  | nil =>
    obtain ⟨rfl, -⟩ := Prod.mk.inj (Except.ok.inj h)
    exact .refl
  | cons stage stages ih =>
    obtain ⟨d₁, decision, hv, hends⟩ := visitNode_cons_eq_ok h
    have hfirst : d.Shrinks d₁ := hs stage List.mem_cons_self d child d₁ decision hl hc hv
    rcases hends with ⟨-, -, rfl, -⟩ | ⟨-, -, rfl, -⟩ | ⟨-, -, h⟩
    · exact hfirst.tail (.detach child)
    · exact hfirst
    · have hshrunk := hfirst.shrunk hl
      have hheld : d₁.Holds child := by rwa [Holds, hshrunk.size_eq]
      have hlater : d₁.Shrinks d' :=
        ih (fun s hm => hs s (List.mem_cons_of_mem _ hm)) hshrunk.linked hheld h
      exact hfirst.trans hlater

/-! ## What has been found -/

/-- The nodes that a step still has to take up. -/
def WalkStep.ahead : WalkStep → List NodeId
  | .children _ rest => rest
  | .visit _ _ => []

/-- The nodes that a step will visit although they have been taken up. -/
def WalkStep.delayed : WalkStep → List NodeId
  | .children _ _ => []
  | .visit _ child => [child]

/-- The nodes that are still to be taken up. -/
def ahead (pending : List WalkStep) : List NodeId :=
  pending.flatMap WalkStep.ahead

/-- The nodes whose visit waits for their subtree. -/
def delayed (pending : List WalkStep) : List NodeId :=
  pending.flatMap WalkStep.delayed

/-- The state of a walk that has taken up nodes: each node is found once, and what stands above a
node that has been found has been taken up. -/
structure Walking (d : Document) (taken : List NodeId) (pending : List WalkStep) : Prop where
  linked : d.Linked
  nodup : (taken ++ ahead pending).Nodup
  held : ∀ x ∈ taken ++ ahead pending, d.Holds x
  above : ∀ x ∈ taken ++ ahead pending, ∀ a, TransGen d.IsParent a x → a ∈ taken
  delayed_nodup : (delayed pending).Nodup
  delayed_taken : ∀ x ∈ delayed pending, x ∈ taken

@[simp] theorem ahead_nil : ahead [] = [] := rfl

@[simp] theorem ahead_cons : ahead (step :: pending) = step.ahead ++ ahead pending :=
  List.flatMap_cons

@[simp] theorem delayed_cons : delayed (step :: pending) = step.delayed ++ delayed pending :=
  List.flatMap_cons

@[simp] theorem ahead_children : (WalkStep.children parent rest).ahead = rest := rfl

namespace Walking

/-- At the start, the children of the root have been found. -/
theorem start (hl : d.Linked) : Walking d [.root] [.children .root (d.children .root)] := by
  have habove := hl.not_above_root
  refine ⟨hl, ?_, fun x hx => ?_, fun x hx a ht => ?_, List.nodup_nil,
    fun x hx => absurd hx List.not_mem_nil⟩
  · simp only [ahead_cons, ahead_children, ahead_nil, List.append_nil,
      List.singleton_append, List.nodup_cons]
    exact ⟨hl.not_mem_children hl.root_parent, hl.nodup .root⟩
  · simp only [ahead_cons, ahead_children, ahead_nil, List.append_nil,
      List.singleton_append, List.mem_cons] at hx
    rcases hx with rfl | hx
    · exact hl.root_held
    · exact hl.child_held hx
  · simp only [ahead_cons, ahead_children, ahead_nil, List.append_nil,
      List.singleton_append, List.mem_cons] at hx
    rcases hx with rfl | hx
    · exact absurd ht (habove a)
    · obtain ⟨b, hab, hb⟩ := TransGen.tail'_iff.1 ht
      have hroot : d.parent? x = some .root := (hl.parent_iff x .root).2 hx
      rw [IsParent, hroot] at hb
      obtain rfl := Option.some.inj hb
      rcases reflTransGen_iff_eq_or_transGen.1 hab with rfl | hab
      · exact List.mem_singleton_self _
      · exact absurd hab (habove a)

theorem shrink (h : Walking d taken pending) (hs : Shrunk d d') : Walking d' taken pending where
  linked := hs.linked
  nodup := h.nodup
  held x hx := by
    rw [Holds, hs.size_eq]
    exact h.held x hx
  above x hx a ht := h.above x hx a (hs.above ht)
  delayed_nodup := h.delayed_nodup
  delayed_taken := h.delayed_taken

/-- A step from which nothing is ahead can be left out. -/
theorem drop (h : Walking d taken (step :: pending)) (ha : step.ahead = []) :
    Walking d taken pending := by
  have hahead : ahead (step :: pending) = ahead pending := by rw [ahead_cons, ha, List.nil_append]
  have hdelayed : ∀ x ∈ delayed pending, x ∈ delayed (step :: pending) := by
    intro x hx
    rw [delayed_cons]
    exact List.mem_append_right _ hx
  have hn := h.nodup
  have hh := h.held
  have habove := h.above
  have hdn := h.delayed_nodup
  rw [hahead] at hn hh habove
  rw [delayed_cons] at hdn
  exact ⟨h.linked, hn, hh, habove, hdn.of_append_right,
    fun x hx => h.delayed_taken x (hdelayed x hx)⟩

theorem mem_ahead_cons {x : NodeId} :
    x ∈ ahead (.children parent (child :: rest) :: pending) ↔
      x = child ∨ x ∈ ahead (.children parent rest :: pending) := by
  simp

/-- A child that is taken up is not ahead any more. -/
theorem take (h : Walking d taken (.children parent (child :: rest) :: pending)) :
    Walking d (child :: taken) (.children parent rest :: pending) := by
  have hmem : ∀ x, x ∈ (child :: taken) ++ ahead (.children parent rest :: pending) →
      x ∈ taken ++ ahead (.children parent (child :: rest) :: pending) := by
    intro x hx
    rw [List.mem_append, mem_ahead_cons]
    rw [List.mem_append, List.mem_cons] at hx
    tauto
  refine ⟨h.linked, ?_, fun x hx => h.held x (hmem x hx), fun x hx a ht => ?_, h.delayed_nodup,
    fun x hx => List.mem_cons_of_mem _ (h.delayed_taken x hx)⟩
  · have hn := h.nodup
    simp only [ahead_cons, ahead_children, List.cons_append] at hn ⊢
    exact (List.perm_middle.nodup_iff).1 hn
  · exact List.mem_cons_of_mem _ (h.above x (hmem x hx) a ht)

theorem not_taken (h : Walking d taken (.children parent (child :: rest) :: pending)) :
    child ∉ taken := by
  intro hm
  have hahead : child ∈ ahead (.children parent (child :: rest) :: pending) := by simp
  exact (List.nodup_append.1 h.nodup).2.2 child hm child hahead rfl

/-- The children of a node that has been taken up are found, if they have not been found yet. -/
theorem find (h : Walking d taken pending) (ht : child ∈ taken)
    (hnew : ∀ x ∈ d.children child, x ∉ taken ++ ahead pending) :
    Walking d taken (.children child (d.children child) :: pending) := by
  have hperm : taken ++ ahead (.children child (d.children child) :: pending) ~
      d.children child ++ (taken ++ ahead pending) := by
    rw [ahead_cons, ahead_children]
    exact List.perm_append_comm_assoc _ _ _
  refine ⟨h.linked, ?_, fun x hx => ?_, fun x hx a ha => ?_, h.delayed_nodup, h.delayed_taken⟩
  · rw [hperm.nodup_iff, List.nodup_append]
    refine ⟨h.linked.nodup child, h.nodup, ?_⟩
    rintro x hx _ hy rfl
    exact hnew x hx hy
  · rcases List.mem_append.1 (hperm.mem_iff.1 hx) with hx | hx
    · exact h.linked.child_held hx
    · exact h.held x hx
  · rcases List.mem_append.1 (hperm.mem_iff.1 hx) with hx | hx
    · have hparent : d.parent? x = some child := (h.linked.parent_iff x child).2 hx
      obtain ⟨b, hab, hb⟩ := TransGen.tail'_iff.1 ha
      rw [IsParent, hparent] at hb
      obtain rfl := Option.some.inj hb
      rcases reflTransGen_iff_eq_or_transGen.1 hab with rfl | hab
      · exact ht
      · exact h.above _ (List.mem_append_left _ ht) a hab
    · exact h.above x hx a ha

/-- The children of a node that is taken up have not been found before: this node would have been
taken up before as well. -/
theorem children_new (h : Walking d taken (.children parent (child :: rest) :: pending)) :
    ∀ x ∈ d.children child, x ∉ (child :: taken) ++ ahead (.children parent rest :: pending) := by
  intro x hx hm
  have hparent : d.IsParent child x := (h.linked.parent_iff x child).2 hx
  have hne : x ≠ child := h.linked.ne_of_parent? hparent
  have hfound : x ∈ taken ++ ahead (.children parent (child :: rest) :: pending) := by
    rw [List.mem_append, mem_ahead_cons]
    rw [List.mem_append, List.mem_cons] at hm
    tauto
  exact h.not_taken (h.above x hfound child (.single hparent))

theorem delay (h : Walking d taken pending) (ht : child ∈ taken) (hd : child ∉ delayed pending) :
    Walking d taken (.visit parent child :: pending) := by
  refine ⟨h.linked, h.nodup, h.held, h.above, ?_, ?_⟩
  · rw [delayed_cons]
    exact List.nodup_cons.2 ⟨hd, h.delayed_nodup⟩
  · intro x hx
    rw [delayed_cons] at hx
    rcases List.mem_cons.1 hx with rfl | hx
    · exact ht
    · exact h.delayed_taken x hx

theorem length_taken_lt (h : Walking d taken (.children parent (child :: rest) :: pending)) :
    taken.length < d.nodes.size := by
  have htake := h.take
  have hn : (child :: taken).Nodup := htake.nodup.of_append_left
  exact length_le_size_of_nodup hn fun x hx => htake.held x (List.mem_append_left _ hx)

end Walking

/-! ## One step -/

/-- The steps that a step stands for, as long as no node is taken up. -/
def WalkStep.cost : WalkStep → Nat
  | .children _ rest => rest.length + 1
  | .visit _ _ => 1

/-- The number of steps that a walk may still take: each node that has not been taken up brings a
list of children and two more steps. -/
def dues (size : Nat) (taken : List NodeId) (pending : List WalkStep) : Nat :=
  (size - taken.length) * (size + 3) + (pending.map WalkStep.cost).sum

theorem dues_cons (size : Nat) :
    dues size taken (step :: pending) = dues size taken pending + step.cost := by
  simp only [dues, List.map_cons, List.sum_cons]
  omega

theorem dues_taken {size : Nat} (child : NodeId) (h : taken.length < size) :
    dues size taken pending = dues size (child :: taken) pending + (size + 3) := by
  have hsucc : size - taken.length = size - (taken.length + 1) + 1 := by omega
  rw [dues, dues, hsucc, List.length_cons, Nat.succ_mul]
  omega

/-- A node on which calls may still be made. -/
def Open (taken : List NodeId) (pending : List WalkStep) (x : NodeId) : Prop :=
  x ∈ delayed pending ∨ x ∉ taken

/-- What a step leaves: less to do, and no calls to come on the nodes that it has visited. -/
structure Advanced (taken : List NodeId) (d : Document) (before : List WalkStep) (calls : List Call)
    (taken' : List NodeId) (d' : Document) (after : List WalkStep) : Prop where
  walking : Walking d' taken' after
  dues_lt : dues d'.nodes.size taken' after < dues d.nodes.size taken before
  remain : ∀ x, Open taken' after x → Open taken before x ∧ ∀ c ∈ calls, c.node ≠ x

namespace Walking

/-- A step that takes up a child, with a visit or without. -/
theorem advanced_take (h : Walking d taken (.children parent (child :: rest) :: pending))
    (hs : Shrunk d d') (hc : ∀ c ∈ calls, c.node = child) :
    Advanced taken d (.children parent (child :: rest) :: pending) calls (child :: taken) d'
      (.children parent rest :: pending) := by
  have h' := h.shrink hs
  have hnot := h.not_taken
  refine ⟨h'.take, ?_, fun x hx => ?_⟩
  · rw [hs.size_eq, dues_taken child h.length_taken_lt, dues_cons, dues_cons]
    simp only [WalkStep.cost, List.length_cons]
    omega
  · have hne : x ≠ child := by
      rintro rfl
      rcases hx with hx | hx
      · exact hnot (h.delayed_taken x hx)
      · exact hx List.mem_cons_self
    refine ⟨?_, fun c hm => ?_⟩
    · rcases hx with hx | hx
      · exact .inl hx
      · exact .inr fun hm => hx (List.mem_cons_of_mem _ hm)
    · rw [hc c hm]
      exact hne.symm

/-- A step that takes up a child and finds its children. -/
theorem advanced_find (h : Walking d taken (.children parent (child :: rest) :: pending))
    (hs : Shrunk d d') (hc : ∀ c ∈ calls, c.node = child) :
    Advanced taken d (.children parent (child :: rest) :: pending) calls (child :: taken) d'
      (.children child (d'.children child) :: .children parent rest :: pending) := by
  have h' := h.shrink hs
  have htaken := h.advanced_take hs hc
  have hlength : (d'.children child).length ≤ d'.nodes.size :=
    length_le_size_of_nodup (h'.linked.nodup child) fun x hx => h'.linked.child_held hx
  refine ⟨h'.take.find List.mem_cons_self h'.children_new, ?_, htaken.remain⟩
  rw [dues_taken child h.length_taken_lt, dues_cons, dues_cons, dues_cons, ← hs.size_eq]
  simp only [WalkStep.cost, List.length_cons]
  omega

/-- A step that takes up a child, finds its children and puts its visit off. -/
theorem advanced_delay (h : Walking d taken (.children parent (child :: rest) :: pending)) :
    Advanced taken d (.children parent (child :: rest) :: pending) [] (child :: taken) d
      (.children child (d.children child) :: .visit parent child :: .children parent rest ::
        pending) := by
  have hs : Shrunk d d := ⟨h.linked, rfl, id⟩
  have hnot := h.not_taken
  have hdelay : Walking d (child :: taken)
      (.visit parent child :: .children parent rest :: pending) :=
    h.take.delay List.mem_cons_self fun hm => hnot (h.delayed_taken child hm)
  have hlength : (d.children child).length ≤ d.nodes.size :=
    length_le_size_of_nodup (h.linked.nodup child) fun x hx => h.linked.child_held hx
  refine ⟨hdelay.find List.mem_cons_self h.children_new, ?_, fun x hx => ⟨?_, ?_⟩⟩
  · rw [dues_taken child h.length_taken_lt, dues_cons, dues_cons, dues_cons, dues_cons]
    simp only [WalkStep.cost, List.length_cons]
    omega
  · rcases hx with hx | hx
    · rcases List.mem_cons.1 hx with rfl | hx
      · exact .inr hnot
      · exact .inl hx
    · exact .inr fun hm => hx (List.mem_cons_of_mem _ hm)
  · exact fun c hm => absurd hm List.not_mem_nil

/-- A step that takes up no node. -/
theorem advanced_drop (h : Walking d taken (step :: pending)) (ha : step.ahead = [])
    (hs : Shrunk d d') (hc : ∀ c ∈ calls, c.node ∈ step.delayed) :
    Advanced taken d (step :: pending) calls taken d' pending := by
  have hdelayed : ∀ x ∈ step.delayed, x ∈ delayed (step :: pending) := by
    intro x hx
    rw [delayed_cons]
    exact List.mem_append_left _ hx
  refine ⟨(h.shrink hs).drop ha, ?_, fun x hx => ⟨?_, ?_⟩⟩
  · rw [hs.size_eq, dues_cons]
    cases step <;> simp only [WalkStep.cost] <;> omega
  · rcases hx with hx | hx
    · rw [Open, delayed_cons]
      exact .inl (List.mem_append_right _ hx)
    · exact .inr hx
  · rintro c hm rfl
    have hnode := hc c hm
    rcases hx with hx | hx
    · have hn := h.delayed_nodup
      rw [delayed_cons, List.nodup_append] at hn
      exact hn.2.2 _ hnode _ hx rfl
    · exact hx (h.delayed_taken _ (hdelayed _ hnode))

theorem advanced (h : Walking d taken (step :: pending)) (hs : ∀ stage ∈ stages, stage.Shrinks)
    (ht : Takes stages childrenFirst d step calls d' first) :
    ∃ taken', Advanced taken d (step :: pending) calls taken' d' (first ++ pending) := by
  have hnone : ∀ {p : Call → Prop}, ∀ c ∈ ([] : List Call), p c :=
    fun c hm => absurd hm List.not_mem_nil
  have hsame : Shrunk d d := ⟨h.linked, rfl, id⟩
  cases ht with
  | finish => exact ⟨taken, h.advanced_drop rfl hsame hnone⟩
  | skip => exact ⟨_, h.advanced_take hsame hnone⟩
  | descend => exact ⟨_, h.advanced_delay⟩
  | enter hp hc hv =>
    have hshrunk := (shrinks_of_visitNode hs h.linked (holds_of_parent? hp) hv).shrunk h.linked
    exact ⟨_, h.advanced_find hshrunk fun c hm => node_of_mem_visitCalls hm⟩
  | leave hp hc hv =>
    have hshrunk := (shrinks_of_visitNode hs h.linked (holds_of_parent? hp) hv).shrunk h.linked
    exact ⟨_, h.advanced_take hshrunk fun c hm => node_of_mem_visitCalls hm⟩
  | visit hp hv =>
    have hshrunk := (shrinks_of_visitNode hs h.linked (holds_of_parent? hp) hv).shrunk h.linked
    refine ⟨taken, h.advanced_drop rfl hshrunk fun c hm => ?_⟩
    rw [node_of_mem_visitCalls hm]
    exact List.mem_cons_self
  | miss => exact ⟨taken, h.advanced_drop rfl hsame hnone⟩

/-! ## Whole walks -/

/-- A walk that may take all the steps it may still need comes to its end. -/
theorem isSome_walkFrom (h : Walking d taken pending) (hs : ∀ stage ∈ stages, stage.Shrinks)
    (hb : dues d.nodes.size taken pending ≤ bound) (said : Array Note) :
    (walkFrom stages childrenFirst bound said d pending).isSome = true := by
  induction bound generalizing d taken pending said with
  | zero =>
    cases pending with
    | nil => rfl
    | cons step pending =>
      rw [dues_cons] at hb
      cases step <;> simp only [WalkStep.cost] at hb <;> omega
  | succ bound ih =>
    cases pending with
    | nil => rfl
    | cons step pending =>
      cases ho : (step.take stages childrenFirst d).outcome with
      | error e =>
        rw [walkFrom_cons_of_error ho]
        rfl
      | ok state =>
        obtain ⟨d', first⟩ := state
        obtain ⟨taken', hadvanced⟩ := h.advanced hs (takes_of_take ho)
        rw [walkFrom_cons_of_ok ho]
        have hdues := hadvanced.dues_lt
        exact ih hadvanced.walking (by omega) _

theorem nodup_visitCalls :
    ((visitCalls parent child stages.zipIdx d).map fun c => (c.unit, c.node)).Nodup := by
  have hunits : ((visitCalls parent child stages.zipIdx d).map fun c => (c.stage, c.unit)).map
      Prod.snd <+: stages.zipIdx.map Prod.snd := (units_visitCalls stages.zipIdx).map Prod.snd
  rw [List.map_map, List.zipIdx_map_snd] at hunits
  have hn : ((visitCalls parent child stages.zipIdx d).map (·.unit)).Nodup :=
    (List.nodup_range').sublist hunits.sublist
  refine List.Nodup.of_map Prod.fst ?_
  rw [List.map_map]
  exact hn

/-- A step calls no stage twice, and only on a node on which calls may still be made. -/
theorem nodup_calls (h : Walking d taken (step :: pending)) :
    ((step.calls stages childrenFirst d).map fun c => (c.unit, c.node)).Nodup ∧
      ∀ c ∈ step.calls stages childrenFirst d, Open taken (step :: pending) c.node := by
  have hnone : ∀ {p : Call → Prop}, ([].map fun c : Call => (c.unit, c.node)).Nodup ∧
      ∀ c ∈ ([] : List Call), p c := ⟨List.nodup_nil, fun c hm => absurd hm List.not_mem_nil⟩
  have hvisit : ∀ parent child, Open taken (step :: pending) child →
      ((visitCalls parent child stages.zipIdx d).map fun c => (c.unit, c.node)).Nodup ∧
        ∀ c ∈ visitCalls parent child stages.zipIdx d, Open taken (step :: pending) c.node := by
    intro parent child ho
    refine ⟨nodup_visitCalls, fun c hm => ?_⟩
    rwa [node_of_mem_visitCalls hm]
  cases step with
  | visit parent child =>
    rw [WalkStep.calls]
    split_ifs
    · exact hvisit parent child (.inl List.mem_cons_self)
    · exact hnone
  | children parent rest =>
    cases rest with
    | nil => exact hnone
    | cons child rest =>
      rw [WalkStep.calls]
      split_ifs
      · exact hnone
      · exact hvisit parent child (.inr h.not_taken)
      · exact hnone

/-- The calls of the steps to come are on nodes on which calls may still be made, and no two of them
are of one stage on one node. -/
theorem nodup_callsFrom (h : Walking d taken pending) (hs : ∀ stage ∈ stages, stage.Shrinks) :
    ((callsFrom stages childrenFirst bound d pending).map fun c => (c.unit, c.node)).Nodup ∧
      ∀ c ∈ callsFrom stages childrenFirst bound d pending, Open taken pending c.node := by
  induction bound generalizing d taken pending with
  | zero => cases pending <;> exact ⟨List.nodup_nil, fun c hm => absurd hm List.not_mem_nil⟩
  | succ bound ih =>
    cases pending with
    | nil => exact ⟨List.nodup_nil, fun c hm => absurd hm List.not_mem_nil⟩
    | cons step pending =>
      cases ho : (step.take stages childrenFirst d).outcome with
      | error e =>
        rw [callsFrom_cons_of_error ho]
        exact h.nodup_calls
      | ok state =>
        obtain ⟨d', first⟩ := state
        obtain ⟨taken', hadvanced⟩ := h.advanced hs (takes_of_take ho)
        obtain ⟨hn, hopen⟩ := ih hadvanced.walking
        obtain ⟨hfirst, hcalled⟩ := h.nodup_calls
        rw [callsFrom_cons_of_ok ho, List.map_append, List.nodup_append]
        refine ⟨⟨hfirst, hn, ?_⟩, fun c hm => ?_⟩
        · rintro p hp _ hq rfl
          obtain ⟨c, hc, rfl⟩ := List.mem_map.1 hp
          obtain ⟨c', hc', he⟩ := List.mem_map.1 hq
          have hnode : c'.node = c.node := (Prod.mk.inj he).2
          exact (hadvanced.remain c'.node (hopen c' hc')).2 c hc hnode.symm
        · rcases List.mem_append.1 hm with hm | hm
          · exact hcalled c hm
          · exact (hadvanced.remain c.node (hopen c hm)).1

end Walking

/-- The bound of a walk is no less than what it may need. -/
theorem dues_start_le (hl : d.Linked) :
    dues d.nodes.size [.root] [.children .root (d.children .root)] ≤ walkBound d := by
  have hchildren : (d.children .root).length ≤ d.nodes.size :=
    length_le_size_of_nodup (hl.nodup .root) fun x hx => hl.child_held hx
  have hfirst : (d.nodes.size - 1) * (d.nodes.size + 3) ≤
      (d.nodes.size + 1) * (d.nodes.size + 3) := Nat.mul_le_mul_right _ (by omega)
  simp only [dues, walkBound, List.length_singleton, List.map_cons, List.map_nil, List.sum_cons,
    List.sum_nil, WalkStep.cost]
  nlinarith

theorem exists_walkFrom (stages : List Stage) (childrenFirst : Bool) (d : Document) (hl : d.Linked)
    (hs : ∀ stage ∈ stages, stage.Shrinks) :
    ∃ r, walkFrom stages childrenFirst (walkBound d) #[] d [.children .root (d.children .root)] =
        some r ∧
      walk stages childrenFirst d = r ∧
      r.notes.toList = notesOf (walkCalls stages childrenFirst d) := by
  have hsome : (walkFrom stages childrenFirst (walkBound d) #[] d
      [.children .root (d.children .root)]).isSome = true :=
    (Walking.start hl).isSome_walkFrom hs (dues_start_le hl) #[]
  obtain ⟨r, hr⟩ := Option.isSome_iff_exists.1 hsome
  have hnotes := notes_walkFrom hr
  rw [List.nil_append] at hnotes
  refine ⟨r, hr, ?_, ?_⟩
  · rw [walk, hr, Option.getD_some]
  · rw [walkCalls, hnotes]

/-- If plugins only let the tree shrink, a walk comes to its end in both orders, and it calls no
stage twice on a node. -/
theorem walk_ends_and_calls_once (stages : List Stage) (childrenFirst : Bool) (d : Document)
    (hl : d.Linked) (hs : ∀ stage ∈ stages, stage.Shrinks) :
    (∃ r, walkFrom stages childrenFirst (walkBound d) #[] d [.children .root (d.children .root)] =
        some r ∧
      walk stages childrenFirst d = r ∧
      r.notes.toList = notesOf (walkCalls stages childrenFirst d)) ∧
    ((walkCalls stages childrenFirst d).map fun c => (c.unit, c.node)).Nodup := by
  refine ⟨exists_walkFrom stages childrenFirst d hl hs, ?_⟩
  rw [walkCalls]
  exact ((Walking.start hl).nodup_callsFrom hs).1

/-- A stage that replaces each element by its children, where it can. -/
def Stage.unwrapping : Stage where
  name := "unwrap"
  traversal := .perItem
  rewriter := { visit := fun d id => match d.unwrap id with
    | .ok d' => .ok (d', .keep)
    | .error _ => .ok (d, .keep) }

theorem Stage.unwrapping_shrinks : Stage.unwrapping.Shrinks := by
  intro d id d' decision _ _ h
  simp only [Stage.unwrapping] at h
  cases hu : d.unwrap id with
  | ok d₁ =>
    rw [hu] at h
    obtain ⟨rfl, -⟩ := Prod.mk.inj (Except.ok.inj h)
    exact .single (.unwrap hu)
  | error e =>
    rw [hu] at h
    obtain ⟨rfl, -⟩ := Prod.mk.inj (Except.ok.inj h)
    exact .refl

/-- Of two nested elements the inner one is unwrapped by the first unit, and the second unit is not
called for it any more; the outer one stays, and both units are called for it. -/
theorem walk_ends_and_calls_once_of_unwrapping : ∃ d : Document, d.Linked ∧
    d.children .root = [⟨1⟩] ∧ d.children ⟨1⟩ = [⟨2⟩] ∧
    (∀ stage ∈ [Stage.unwrapping, .unwrapping], stage.Shrinks) ∧
    ((walkCalls [.unwrapping, .unwrapping] true d).map fun c => (c.unit, c.node)) =
      [(0, ⟨2⟩), (0, ⟨1⟩), (1, ⟨1⟩)] ∧
    ((walkCalls [.unwrapping, .unwrapping] true d).map fun c => (c.unit, c.node)).Nodup := by
  have h1 : Reachable false _ := .createElement .empty (Element.named "svg")
  have h2 := @Reachable.appendChild false _ .root ⟨1⟩ h1 (by decide) (by decide)
  have h3 := h2.createElement (Element.named "g")
  have h4 := @Reachable.appendChild false _ ⟨1⟩ ⟨2⟩ h3 (by decide) (by decide)
  have hs : ∀ stage ∈ [Stage.unwrapping, .unwrapping], stage.Shrinks := by
    intro stage hm
    simp only [List.mem_cons, List.not_mem_nil, or_false, or_self] at hm
    rw [hm]
    exact Stage.unwrapping_shrinks
  exact ⟨_, h4.linked, by decide, by decide, hs, by decide +kernel,
    (walk_ends_and_calls_once [.unwrapping, .unwrapping] true _ h4.linked hs).2⟩

end SvgPress
