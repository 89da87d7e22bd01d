import SvgPress.Proofs.Tree.Pruning
import SvgPress.Proofs.Walk.Editing
import SvgPress.Proofs.Walk.Shrinking

/-!
# Walks that edit payloads

If plugins edit nothing but the payloads of the nodes they visit, a walk follows the tree that it
starts from: in preorder, leaving out what stands below a node that it has removed, or in postorder.
The stack of a walk is cut into segments, each of which tours a forest of the tree; a segment leaves
the forests of the others where they were.
-/

namespace SvgPress

open Document

/-- The steps on a stack are taken until none is left, or until one fails. -/
inductive Ends (stages : List Stage) (childrenFirst : Bool) :
    Document → List WalkStep → List Call → Except Error Document → Prop
  | nil {d : Document} : Ends stages childrenFirst d [] [] (.ok d)
  | step {d d' : Document} {step : WalkStep} {first pending : List WalkStep} {calls : List Call}
      {outcome : Except Error Document}
      (h : (step.take stages childrenFirst d).outcome = .ok (d', first))
      (hr : Ends stages childrenFirst d' (first ++ pending) calls outcome) :
      Ends stages childrenFirst d (step :: pending)
        (step.calls stages childrenFirst d ++ calls) outcome
  | fail {d : Document} {step : WalkStep} {pending : List WalkStep} {e : Error}
      (h : (step.take stages childrenFirst d).outcome = .error e) :
      Ends stages childrenFirst d (step :: pending) (step.calls stages childrenFirst d) (.error e)

/-- The stage that has removed the node, if one of the calls has. -/
def remover (calls : List Call) (x : NodeId) : Option Nat :=
  (calls.find? fun c => c.node == x && c.removes).map (·.unit)

/-- The stages that are called on a node: all of them in order, up to the one that removes it. -/
def asked (units : Nat) (calls : List Call) (x : NodeId) : List (NodeId × Nat) :=
  (List.range (((remover calls x).map (· + 1)).getD units)).map (x, ·)

/-- The nodes that are called, each with the stage. -/
def places (calls : List Call) : List (NodeId × Nat) :=
  calls.map fun c => (c.node, c.unit)

/-- The calls follow each other on these nodes only, in the planned order, and if no error ends them
they are all that is planned. The plan may depend on which stages remove nodes. -/
structure Tour (stages : List Stage) (d : Document) (calls : List Call)
    (outcome : Except Error Document) (nodes : List NodeId)
    (plan : List Call → List (NodeId × Nat)) : Prop where
  chained : Chained d calls outcome
  within : ∀ c ∈ calls, c.node ∈ nodes
  staged : ∀ c ∈ calls, stages[c.unit]? = some c.stage
  ordered : places calls <+: plan calls
  complete : ∀ d', outcome = .ok d' → places calls = plan calls

/-- The plan depends only on what removes these nodes. -/
def IsLocal (nodes : List NodeId) (plan : List Call → List (NodeId × Nat)) : Prop :=
  ∀ calls calls', (∀ x ∈ nodes, remover calls x = remover calls' x) → plan calls = plan calls'

variable {stages : List Stage} {childrenFirst : Bool} {bound : Nat} {d d' : Document}
  {calls calls' : List Call} {outcome : Except Error Document} {x parent child : NodeId}
  {nodes nodes' : List NodeId} {plan plan' : List Call → List (NodeId × Nat)} {e : Error}
  {before pending : List WalkStep}

/-! ## Stacks -/

theorem ends_of_walkFrom {said : Array Note} {r : Report Error Document}
    (h : walkFrom stages childrenFirst bound said d pending = some r) :
    Ends stages childrenFirst d pending (callsFrom stages childrenFirst bound d pending)
      r.outcome := by
  induction bound generalizing said d pending with
  | zero =>
    cases pending with
    | nil =>
      obtain rfl := Option.some.inj h
      exact .nil
    | cons step pending => exact absurd h (by simp [walkFrom])
  | succ bound ih =>
    cases pending with
    | nil =>
      obtain rfl := Option.some.inj h
      exact .nil
    | cons step pending =>
      cases ho : (step.take stages childrenFirst d).outcome with
      | error e =>
        rw [walkFrom_cons_of_error ho] at h
        obtain rfl := Option.some.inj h
        rw [callsFrom_cons_of_error ho]
        exact .fail ho
      | ok state =>
        obtain ⟨d', first⟩ := state
        rw [walkFrom_cons_of_ok ho] at h
        rw [callsFrom_cons_of_ok ho]
        exact .step ho (ih h)

/-- The upper part of a stack is done before the lower one. -/
theorem Ends.split (h : Ends stages childrenFirst d (before ++ pending) calls outcome) :
    (∃ first later d', calls = first ++ later ∧ Ends stages childrenFirst d before first (.ok d') ∧
      Ends stages childrenFirst d' pending later outcome) ∨
    ∃ e, outcome = .error e ∧ Ends stages childrenFirst d before calls (.error e) := by
  generalize hs : before ++ pending = stack at h
  induction h generalizing before with
  | nil =>
    obtain ⟨rfl, rfl⟩ := List.append_eq_nil_iff.1 hs
    exact .inl ⟨[], [], _, rfl, .nil, .nil⟩
  | @step d d' step first _ calls outcome ho hr ih =>
    cases before with
    | nil =>
      obtain rfl := hs
      exact .inl ⟨[], _, d, rfl, .nil, .step ho hr⟩
    | cons top before =>
      obtain ⟨rfl, rfl⟩ := List.cons.inj hs
      have hrest : (first ++ before) ++ pending = first ++ (before ++ pending) :=
        List.append_assoc _ _ _
      rcases ih hrest with ⟨early, later, d₁, rfl, hearly, hlater⟩ | ⟨e, rfl, hearly⟩
      · exact .inl ⟨_, later, d₁, (List.append_assoc _ _ _).symm, .step ho hearly, hlater⟩
      · exact .inr ⟨e, rfl, .step ho hearly⟩
  | @fail d step _ e ho =>
    cases before with
    | nil =>
      obtain rfl := hs
      exact .inl ⟨[], _, d, rfl, .nil, .fail ho⟩
    | cons top before =>
      obtain ⟨rfl, rfl⟩ := List.cons.inj hs
      exact .inr ⟨e, rfl, .fail ho⟩

theorem Ends.eq_of_nil (h : Ends stages childrenFirst d [] calls outcome) :
    calls = [] ∧ outcome = .ok d := by
  cases h
  exact ⟨rfl, rfl⟩

theorem Ends.eq_of_children_nil
    (h : Ends stages childrenFirst d [.children parent []] calls outcome) :
    calls = [] ∧ outcome = .ok d := by
  cases h with
  | step ho hr =>
    obtain ⟨rfl, rfl⟩ := Prod.mk.inj (Except.ok.inj ho)
    exact hr.eq_of_nil
  | fail ho => exact absurd ho (by simp [WalkStep.take, Report.ok])

theorem Ends.eq_of_visit (hp : d.parent? child = some parent)
    (h : Ends stages childrenFirst d [.visit parent child] calls outcome) :
    calls = visitCalls parent child stages.zipIdx d ∧
      outcome = (visitNode parent child stages d).outcome.map (·.1) := by
  have htake : (WalkStep.take stages childrenFirst d (.visit parent child)).outcome =
      (visitNode parent child stages d).outcome.map fun visited => (visited.1, []) := by
    rw [WalkStep.take, if_pos hp, outcome_bind]
    cases (visitNode parent child stages d).outcome <;> rfl
  have hcalls : WalkStep.calls stages childrenFirst d (.visit parent child) =
      visitCalls parent child stages.zipIdx d := if_pos hp
  cases h with
  | step ho hr =>
    rw [htake] at ho
    obtain ⟨⟨d₁, stays⟩, hv, he⟩ := Outcome.map_eq_ok_iff.1 ho
    obtain ⟨rfl, rfl⟩ := Prod.mk.inj he
    obtain ⟨rfl, rfl⟩ := hr.eq_of_nil
    rw [hcalls, List.append_nil, hv]
    exact ⟨rfl, rfl⟩
  | fail ho =>
    rw [htake] at ho
    cases hv : (visitNode parent child stages d).outcome with
    | ok visited => simp [hv, Except.map] at ho
    | error e =>
      rw [hv] at ho
      rw [hcalls, ← Except.error.inj ho]
      exact ⟨rfl, rfl⟩

theorem Ends.descend (hp : d.parent? child = some parent) {rest : List NodeId}
    (h : Ends stages true d [.children parent (child :: rest)] calls outcome) :
    Ends stages true d ([.children child (d.children child)] ++
      ([.visit parent child] ++ [.children parent rest])) calls outcome := by
  have htake : (WalkStep.take stages true d (.children parent (child :: rest))).outcome = .ok (d,
      [.children child (d.children child), .visit parent child, .children parent rest]) := by
    rw [WalkStep.take, if_neg (by simp [hp])]
    rfl
  have hcalls : WalkStep.calls stages true d (.children parent (child :: rest)) = [] := if_pos hp
  cases h with
  | step ho hr =>
    rw [htake] at ho
    obtain ⟨rfl, rfl⟩ := Prod.mk.inj (Except.ok.inj ho)
    rw [hcalls]
    exact hr
  | fail ho =>
    rw [htake] at ho
    exact absurd ho (by simp)

theorem Ends.enter (hp : d.parent? child = some parent) {rest : List NodeId}
    (h : Ends stages false d [.children parent (child :: rest)] calls outcome) :
    (∃ e, (visitNode parent child stages d).outcome = .error e ∧
      calls = visitCalls parent child stages.zipIdx d ∧ outcome = .error e) ∨
    ∃ d' stays later, (visitNode parent child stages d).outcome = .ok (d', stays) ∧
      calls = visitCalls parent child stages.zipIdx d ++ later ∧
      Ends stages false d' ((if stays then [.children child (d'.children child)] else []) ++
        [.children parent rest]) later outcome := by
  have htake : (WalkStep.take stages false d (.children parent (child :: rest))).outcome =
      (visitNode parent child stages d).outcome.map fun visited => (visited.1,
        (if visited.2 then [.children child (visited.1.children child)] else []) ++
          [.children parent rest]) := by
    rw [WalkStep.take, if_neg (by simp [hp]), if_neg (by simp), outcome_bind]
    cases (visitNode parent child stages d).outcome with
    | error e => rfl
    | ok visited =>
      obtain ⟨d₁, stays⟩ := visited
      cases stays <;> rfl
  have hcalls : WalkStep.calls stages false d (.children parent (child :: rest)) =
      visitCalls parent child stages.zipIdx d := if_pos hp
  cases h with
  | @step _ _ _ _ _ later _ ho hr =>
    rw [htake] at ho
    obtain ⟨⟨d₁, stays⟩, hv, he⟩ := Outcome.map_eq_ok_iff.1 ho
    obtain ⟨rfl, rfl⟩ := Prod.mk.inj he
    rw [List.append_nil] at hr
    rw [hcalls]
    exact .inr ⟨_, stays, later, hv, rfl, hr⟩
  | fail ho =>
    rw [htake] at ho
    cases hv : (visitNode parent child stages d).outcome with
    | ok visited => simp [hv, Except.map] at ho
    | error e =>
      rw [hv] at ho
      rw [hcalls, ← Except.error.inj ho]
      exact .inl ⟨e, rfl, rfl, rfl⟩

/-- A visit that does not fail is followed by what is below the node, if it stays. -/
theorem Ends.enter_of_ok (hp : d.parent? child = some parent) {rest : List NodeId} {stays : Bool}
    (hv : (visitNode parent child stages d).outcome = .ok (d', stays))
    (h : Ends stages false d [.children parent (child :: rest)] calls outcome) :
    ∃ later, calls = visitCalls parent child stages.zipIdx d ++ later ∧
      Ends stages false d' ((if stays then [.children child (d'.children child)] else []) ++
        [.children parent rest]) later outcome := by
  rcases h.enter hp with ⟨e, he, -⟩ | ⟨d₁, stays₁, later, hv₁, rfl, hends⟩
  · exact absurd (hv.symm.trans he) (by simp)
  · obtain ⟨rfl, rfl⟩ := Prod.mk.inj (Except.ok.inj (hv.symm.trans hv₁))
    exact ⟨later, rfl, hends⟩

/-! ## What removes a node -/

theorem remover_append (calls calls' : List Call) (x : NodeId) :
    remover (calls ++ calls') x = (remover calls x).or (remover calls' x) := by
  rw [remover, List.find?_append, Option.map_or]
  rfl

theorem isSome_remover (calls : List Call) (x : NodeId) :
    (remover calls x).isSome = gone calls x := by
  rw [remover, Option.isSome_map, gone, List.isSome_find?]

theorem remover_eq_none (h : ∀ c ∈ calls, c.node ≠ x) : remover calls x = none := by
  rw [remover, Option.map_eq_none_iff, List.find?_eq_none]
  intro c hc
  simp [h c hc]

theorem gone_eq_false (h : ∀ c ∈ calls, c.node ≠ x) : gone calls x = false := by
  rw [← isSome_remover, remover_eq_none h]
  rfl

/-! ## Tours -/

theorem Chained.append (h : Chained d calls (.ok d')) (h' : Chained d' calls' outcome) :
    Chained d (calls ++ calls') outcome := by
  generalize ho : Except.ok d' = middle at h
  induction h with
  | nil =>
    obtain rfl := Except.ok.inj ho
    exact h'
  | next ha _ ih => exact .next ha (ih ho)
  | stop => exact absurd ho (by simp)

namespace Tour

theorem nil (h : plan [] = []) : Tour stages d [] (.ok d) nodes plan where
  chained := .nil
  within _ hc := absurd hc List.not_mem_nil
  staged _ hc := absurd hc List.not_mem_nil
  ordered := List.nil_prefix
  complete _ _ := h.symm

theorem congr (h : Tour stages d calls outcome nodes plan) (hn : ∀ x ∈ nodes, x ∈ nodes')
    (hp : plan calls = plan' calls) : Tour stages d calls outcome nodes' plan' where
  chained := h.chained
  within c hc := hn _ (h.within c hc)
  staged := h.staged
  ordered := hp ▸ h.ordered
  complete d' ho := (h.complete d' ho).trans hp

/-- A tour that fails is the beginning of a longer one. -/
theorem fail (h : Tour stages d calls (.error e) nodes plan) (nodes' : List NodeId)
    (plan' : List Call → List (NodeId × Nat)) :
    Tour stages d calls (.error e) (nodes ++ nodes') fun calls => plan calls ++ plan' calls where
  chained := h.chained
  within c hc := List.mem_append_left _ (h.within c hc)
  staged := h.staged
  ordered := h.ordered.trans (List.prefix_append _ _)
  complete d' ho := absurd ho (by simp)

/-- One tour after another, on other nodes. -/
theorem append (h : Tour stages d calls (.ok d') nodes plan)
    (h' : Tour stages d' calls' outcome nodes' plan') (hd : ∀ x ∈ nodes, x ∉ nodes')
    (hl : IsLocal nodes plan) (hl' : IsLocal nodes' plan') :
    Tour stages d (calls ++ calls') outcome (nodes ++ nodes')
      fun calls => plan calls ++ plan' calls := by
  have hfirst : plan (calls ++ calls') = plan calls := by
    refine hl _ _ fun x hx => ?_
    have hnone : remover calls' x = none := remover_eq_none fun c hc he =>
      hd x hx (he ▸ h'.within c hc)
    rw [remover_append, hnone, Option.or_none]
  have hlater : plan' (calls ++ calls') = plan' calls' := by
    refine hl' _ _ fun x hx => ?_
    have hnone : remover calls x = none := remover_eq_none fun c hc he =>
      hd x (he ▸ h.within c hc) hx
    rw [remover_append, hnone, Option.none_or]
  have hplaces : places (calls ++ calls') = plan (calls ++ calls') ++ places calls' := by
    rw [hfirst, ← h.complete d' rfl]
    exact List.map_append
  refine ⟨h.chained.append h'.chained, fun c hc => ?_, fun c hc => ?_, ?_, fun d'' ho => ?_⟩
  · rw [List.mem_append]
    exact (List.mem_append.1 hc).imp (h.within c) (h'.within c)
  · exact (List.mem_append.1 hc).elim (h.staged c) (h'.staged c)
  · rw [hplaces, hlater, List.prefix_append_right_inj]
    exact h'.ordered
  · rw [hplaces, hlater, h'.complete d'' ho]

/-- A tour removes none but its nodes. -/
theorem gone_eq_false (h : Tour stages d calls outcome nodes plan) (hx : x ∉ nodes) :
    gone calls x = false := by
  refine SvgPress.gone_eq_false fun c hc he => hx ?_
  rw [← he]
  exact h.within c hc

theorem pruned (h : Tour stages d calls (.ok d') nodes plan)
    (hs : ∀ stage ∈ stages, stage.EditsOnly) (hl : d.Linked) (hh : ∀ x ∈ nodes, d.Holds x) :
    Pruned d d' calls :=
  .of_chained h.chained hl (fun c hc => hs _ (List.mem_of_getElem? (h.staged c hc)))
    fun c hc => hh _ (h.within c hc)

end Tour

/-- Two parts of a stack are toured one after the other. -/
theorem Ends.tour (h : Ends stages childrenFirst d (before ++ pending) calls outcome)
    (hfirst : ∀ {calls outcome}, Ends stages childrenFirst d before calls outcome →
      Tour stages d calls outcome nodes plan)
    (hlater : ∀ {d' first later}, Tour stages d first (.ok d') nodes plan →
      Ends stages childrenFirst d' pending later outcome →
        Tour stages d' later outcome nodes' plan')
    (hd : ∀ x ∈ nodes, x ∉ nodes') (hl : IsLocal nodes plan) (hl' : IsLocal nodes' plan') :
    Tour stages d calls outcome (nodes ++ nodes') fun calls => plan calls ++ plan' calls := by
  rcases h.split with ⟨first, later, d', rfl, hbefore, hpending⟩ | ⟨e, rfl, hbefore⟩
  · have htour := hfirst hbefore
    exact htour.append (hlater htour hpending) hd hl hl'
  · exact (hfirst hbefore).fail nodes' plan'

/-! ## Visits -/

theorem isLocal_asked (units : Nat) (x : NodeId) :
    IsLocal [x] fun calls => asked units calls x := by
  intro calls calls' h
  simp only [asked, h x List.mem_cons_self]

theorem IsLocal.append (h : IsLocal nodes plan) (h' : IsLocal nodes' plan') :
    IsLocal (nodes ++ nodes') fun calls => plan calls ++ plan' calls := by
  intro calls calls' hr
  have hfirst := h calls calls' fun x hx => hr x (List.mem_append_left _ hx)
  have hlater := h' calls calls' fun x hx => hr x (List.mem_append_right _ hx)
  simp only [hfirst, hlater]

/-- The units that are asked in turn, from one on, up to the one that removes the node. -/
def turn (calls : List Call) (x : NodeId) (first units : Nat) : List Nat :=
  List.range' first (((remover calls x).map (· + 1 - first)).getD units)

/-- The visit of a node is a chain of calls; unless it fails, the node stays if no call removes
it. -/
structure Visits (d : Document) (x : NodeId) (first units : Nat) (calls : List Call)
    (outcome : Except Error (Document × Bool)) : Prop where
  chained : Chained d calls (outcome.map (·.1))
  ordered : calls.map (·.unit) <+: turn calls x first units
  complete : ∀ d' stays, outcome = .ok (d', stays) →
    calls.map (·.unit) = turn calls x first units ∧ gone calls x = !stays

section

variable {stage : Stage} {first units : Nat} {c : Call}

theorem remover_cons_of_keep (h : c.removes = false) :
    remover (c :: calls) x = remover calls x := by
  rw [remover, List.find?_cons_of_neg (by simp [h]), remover]

theorem remover_singleton_of_remove (h : c.removes = true) :
    remover [c] c.node = some c.unit := by
  rw [remover, List.find?_cons_of_pos (by simp [h])]
  rfl

theorem exists_call_of_remover (h : remover calls x = some units) :
    ∃ c ∈ calls, c.unit = units := by
  obtain ⟨c, hc, hu⟩ := Option.map_eq_some_iff.1 h
  exact ⟨c, List.mem_of_find?_eq_some hc, hu⟩

/-- A stage that fails ends the visit. -/
theorem visits_error {e : PluginError} (h : c.report.outcome = .error e) :
    Visits c.document c.node c.unit (units + 1) [c] (.error (c.stage.failure e)) where
  chained := .stop (by rw [Call.after, h])
  ordered := by
    have hremoves : c.removes = false := by rw [Call.removes, h]
    have hnone : remover [c] c.node = none := remover_cons_of_keep hremoves
    rw [turn, hnone, Option.map_none, Option.getD_none, List.range'_succ]
    exact List.prefix_append [c.unit] _
  complete d' stays ho := absurd ho (by simp)

/-- So does a stage that removes the node, or would remove an element directly under the root. -/
theorem visits_remove (h : c.report.outcome = .ok (d', .remove)) :
    Visits c.document c.node c.unit (units + 1) [c]
      (if c.node ∈ d'.childElements .root then
        .error (c.stage.failure ⟨"cannot remove the document element"⟩)
      else .ok (d'.detach c.node, false)) := by
  have hremoves : c.removes = true := by rw [Call.removes, h]
  have hturn : [c].map (·.unit) = turn [c] c.node c.unit (units + 1) := by
    have hone : c.unit + 1 - c.unit = 1 := by omega
    rw [turn, remover_singleton_of_remove hremoves, Option.map_some, Option.getD_some, hone]
    rfl
  refine ⟨?_, hturn ▸ List.prefix_rfl, fun d'' stays ho => ⟨hturn, ?_⟩⟩
  · split_ifs with hroot
    · exact .stop (by rw [Call.after, h]; exact if_pos hroot)
    · exact .next (by rw [Call.after, h]; exact if_neg hroot) .nil
  · split_ifs at ho with hroot
    obtain ⟨-, rfl⟩ := Prod.mk.inj (Except.ok.inj ho)
    simp [gone, hremoves]

/-- A stage that keeps the node leaves the visit to the stages after it. -/
theorem visits_keep {o : Except Error (Document × Bool)} (h : c.report.outcome = .ok (d', .keep))
    (hv : Visits d' c.node (c.unit + 1) units calls o) :
    Visits c.document c.node c.unit (units + 1) (c :: calls) o := by
  have hremoves : c.removes = false := by rw [Call.removes, h]
  have hturn : turn (c :: calls) c.node c.unit (units + 1) =
      c.unit :: turn calls c.node (c.unit + 1) units := by
    rw [turn, turn, remover_cons_of_keep hremoves]
    cases hr : remover calls c.node with
    | none => exact List.range'_succ
    | some u =>
      obtain ⟨c', hc', hu⟩ := exists_call_of_remover hr
      have hmem : u ∈ turn calls c.node (c.unit + 1) units :=
        hv.ordered.subset (hu ▸ List.mem_map_of_mem hc')
      have hle : c.unit + 1 ≤ u := (List.mem_range'_1.1 hmem).1
      have hsucc : u + 1 - c.unit = u + 1 - (c.unit + 1) + 1 := by omega
      simp only [Option.map_some, Option.getD_some]
      rw [hsucc, List.range'_succ]
  refine ⟨.next (by rw [Call.after, h]) hv.chained, ?_, fun d'' stays ho => ?_⟩
  · rw [hturn, List.map_cons, List.cons_prefix_cons]
    exact ⟨rfl, hv.ordered⟩
  · obtain ⟨hunits, hgone⟩ := hv.complete d'' stays ho
    rw [hturn, List.map_cons, hunits, ← hgone]
    exact ⟨rfl, by simp [gone, hremoves]⟩

theorem mem_childElements_root_iff (hl : d.Linked) (hp : d.parent? child = some parent) :
    child ∈ d.childElements .root ↔ (parent = .root && d.isElement child) = true := by
  rw [mem_childElements_iff, ← hl.parent_iff, hp, Bool.and_eq_true, decide_eq_true_eq,
    Option.some.injEq]

theorem visits_visitNode {rest : List Stage} (hs : ∀ stage ∈ rest, stage.EditsOnly) (hl : d.Linked)
    (hp : d.parent? child = some parent) (first : Nat) :
    Visits d child first rest.length (visitCalls parent child (rest.zipIdx first) d)
      (visitNode parent child rest d).outcome := by
  induction rest generalizing d first with
  | nil =>
    refine ⟨.nil, List.nil_prefix, fun d' stays ho => ?_⟩
    obtain ⟨rfl, rfl⟩ := Prod.mk.inj (Except.ok.inj ho)
    exact ⟨rfl, rfl⟩
  | cons stage rest ih =>
    rw [List.zipIdx_cons, List.length_cons]
    cases ho : (stage.rewriter.visit d child).outcome with
    | error e =>
      rw [visitNode_of_error ho, visitCalls_of_error ho]
      exact visits_error (c := ⟨first, stage, child, d⟩) ho
    | ok visited =>
      obtain ⟨d₁, decision⟩ := visited
      obtain ⟨kind, rfl, -⟩ :=
        hs stage List.mem_cons_self d child d₁ decision hl (holds_of_parent? hp) ho
      have hl₁ := hl.setKind child kind
      have hp₁ : (d.setKind child kind).parent? child = some parent := by rw [parent?_setKind, hp]
      cases decision with
      | remove =>
        rw [visitNode_of_remove ho, visitCalls_of_remove ho]
        have hv : Visits d child first (rest.length + 1) [⟨first, stage, child, d⟩] _ :=
          visits_remove (c := ⟨first, stage, child, d⟩) ho
        simp only [mem_childElements_root_iff hl₁ hp₁] at hv
        exact hv
      | keep =>
        rw [visitNode_of_keep ho, visitCalls_of_keep ho, if_pos hp₁, if_pos hp₁]
        have hrest := ih (fun s hm => hs s (List.mem_cons_of_mem _ hm)) hl₁ hp₁ (first + 1)
        exact visits_keep (c := ⟨first, stage, child, d⟩) ho hrest

end

theorem asked_eq (units : Nat) (calls : List Call) (x : NodeId) :
    asked units calls x = (turn calls x 0 units).map (x, ·) := by
  rw [asked, turn, List.range_eq_range']
  rfl

/-- The visit of a node tours this node. -/
theorem tour_visit (hs : ∀ stage ∈ stages, stage.EditsOnly) (hl : d.Linked)
    (hp : d.parent? child = some parent) :
    Tour stages d (visitCalls parent child stages.zipIdx d)
      ((visitNode parent child stages d).outcome.map (·.1)) [child]
      fun calls => asked stages.length calls child := by
  have hv := visits_visitNode hs hl hp 0
  have hplaces : places (visitCalls parent child stages.zipIdx d) =
      ((visitCalls parent child stages.zipIdx d).map (·.unit)).map (child, ·) := by
    rw [places, List.map_map]
    refine List.map_congr_left fun c hc => ?_
    rw [node_of_mem_visitCalls hc]
    rfl
  refine ⟨hv.chained, fun c hc => ?_, fun c hc => ?_, ?_, fun d' ho => ?_⟩
  · rw [node_of_mem_visitCalls hc]
    exact List.mem_singleton_self _
  · have hmem := (units_visitCalls stages.zipIdx).subset
      (List.mem_map_of_mem (f := fun c : Call => (c.stage, c.unit)) hc)
    exact List.mem_zipIdx_iff_getElem?.1 hmem
  · rw [hplaces, asked_eq]
    exact hv.ordered.map _
  · cases hv' : (visitNode parent child stages d).outcome with
    | error e =>
      rw [hv'] at ho
      exact absurd ho (by simp [Except.map])
    | ok visited =>
      obtain ⟨d₁, stays⟩ := visited
      rw [hplaces, asked_eq, (hv.complete d₁ stays hv').1]

/-! ## Forests -/

/-- The forest stands below a node. -/
structure Stands (d : Document) (parent : NodeId) (f : Forest NodeId) : Prop where
  linked : d.Linked
  shows : d.Shows f
  parents : ∀ top ∈ f.tops, d.parent? top = some parent
  nodup : f.preorder.Nodup

namespace Stands

variable {f below rest : Forest NodeId} {top : NodeId}

theorem holds (h : Stands d parent f) : ∀ x ∈ f.preorder, d.Holds x := fun _ hx =>
  h.linked.holds_of_mem_preorder h.shows (fun top ht => holds_of_parent? (h.parents top ht)) hx

theorem below_top (h : Stands d parent (.cons top below rest)) : Stands d top below where
  linked := h.linked
  shows := h.shows.2.1
  parents x hx := by
    rw [h.linked.parent_iff, h.shows.1]
    exact hx
  nodup := by
    have hn := h.nodup
    rw [Forest.preorder, List.nodup_cons] at hn
    exact hn.2.of_append_left

theorem after_top (h : Stands d parent (.cons top below rest)) : Stands d parent rest where
  linked := h.linked
  shows := h.shows.2.2
  parents x hx := h.parents x (List.mem_cons_of_mem _ hx)
  nodup := by
    have hn := h.nodup
    rw [Forest.preorder, List.nodup_cons] at hn
    exact hn.2.of_append_right

/-- Calls on other nodes leave a forest where it is. -/
theorem pruned (h : Stands d parent f) (hp : Pruned d d' calls)
    (hc : ∀ c ∈ calls, c.node ∉ f.preorder) : Stands d' parent f := by
  have hstays : ∀ x ∈ f.preorder, gone calls x = false := fun x hx =>
    gone_eq_false fun c hm he => hc c hm (he ▸ hx)
  refine ⟨hp.linked, h.shows.congr fun x hx => ?_, fun x hx => ?_, h.nodup⟩
  · rw [hp.children, List.filter_eq_self]
    intro y hy
    have hmem : y ∈ f.preorder := by
      obtain ⟨top, ht, hr⟩ := (h.linked.mem_preorder_iff h.shows).1 hx
      have hparent : d.IsParent x y := (h.linked.parent_iff y x).2 hy
      exact (h.linked.mem_preorder_iff h.shows).2 ⟨top, ht, hr.tail hparent⟩
    rw [hstays y hmem]
    rfl
  · have hmem : x ∈ f.preorder :=
      (h.linked.mem_preorder_iff h.shows).2 ⟨x, hx, .refl⟩
    rw [hp.parent?, hstays x hmem]
    exact h.parents x hx

end Stands

/-! ## Walks -/

/-- What is planned for a walk over a forest, with children before their parents or after them. -/
def planned (units : Nat) (childrenFirst : Bool) (f : Forest NodeId) (calls : List Call) :
    List (NodeId × Nat) :=
  (if childrenFirst then f.postorder else (f.outer (gone calls)).preorder).flatMap
    (asked units calls)

variable {f below rest : Forest NodeId} {top : NodeId}

theorem isLocal_planned (units : Nat) (childrenFirst : Bool) (f : Forest NodeId) :
    IsLocal f.preorder (planned units childrenFirst f) := by
  intro calls calls' h
  have hasked : ∀ x ∈ f.preorder, asked units calls x = asked units calls' x := by
    intro x hx
    rw [asked, asked, h x hx]
  have hgone : ∀ x ∈ f.preorder, gone calls x = gone calls' x := by
    intro x hx
    rw [← isSome_remover, ← isSome_remover, h x hx]
  rw [planned, planned, Forest.outer_congr hgone]
  refine List.flatMap_congr fun x hx => ?_
  cases childrenFirst with
  | true => exact hasked x (Forest.mem_postorder.1 hx)
  | false => exact hasked x (Forest.mem_outer hx)

theorem planned_cons_of_childrenFirst (units : Nat) :
    planned units true (.cons top below rest) calls =
      planned units true below calls ++
        (asked units calls top ++ planned units true rest calls) := by
  simp [planned, Forest.postorder, List.flatMap_append, List.flatMap_cons]

theorem planned_cons_of_stays (units : Nat) (h : gone calls top = false) :
    planned units false (.cons top below rest) calls =
      asked units calls top ++
        (planned units false below calls ++ planned units false rest calls) := by
  simp [planned, Forest.outer, h, Forest.preorder, List.flatMap_append, List.flatMap_cons]

theorem planned_cons_of_gone (units : Nat) (h : gone calls top = true) :
    planned units false (.cons top below rest) calls =
      asked units calls top ++ planned units false rest calls := by
  simp [planned, Forest.outer, h, Forest.preorder, List.flatMap_cons]

/-- The nodes of the parts of a forest are different. -/
theorem Stands.apart (h : Stands d parent (.cons top below rest)) :
    top ∉ below.preorder ∧ top ∉ rest.preorder ∧ ∀ x ∈ below.preorder, x ∉ rest.preorder := by
  have hn := h.nodup
  rw [Forest.preorder, List.nodup_cons, List.mem_append, not_or, List.nodup_append] at hn
  obtain ⟨⟨hb, hr⟩, -, -, hapart⟩ := hn
  exact ⟨hb, hr, fun x hx hx' => hapart x hx x hx' rfl⟩

theorem Tour.stands {g : Forest NodeId} (h : Tour stages d calls (.ok d') nodes plan)
    (hs : ∀ stage ∈ stages, stage.EditsOnly) (hg : Stands d parent g)
    (hh : ∀ x ∈ nodes, d.Holds x) (hn : ∀ x ∈ nodes, x ∉ g.preorder) : Stands d' parent g :=
  hg.pruned (h.pruned hs hg.linked hh) fun c hc => hn _ (h.within c hc)

/-- A walk with children first tours a forest in postorder. -/
theorem tour_childrenFirst (hs : ∀ stage ∈ stages, stage.EditsOnly) (hf : Stands d parent f)
    (h : Ends stages true d [.children parent f.tops] calls outcome) :
    Tour stages d calls outcome f.preorder (planned stages.length true f) := by
  induction f generalizing d parent calls outcome with
  | nil =>
    obtain ⟨rfl, rfl⟩ := h.eq_of_children_nil
    exact .nil rfl
  | cons top below rest ihb ihr =>
    obtain ⟨htb, htr, hbr⟩ := hf.apart
    have hp : d.parent? top = some parent := hf.parents top List.mem_cons_self
    have hends := h.descend hp
    rw [hf.shows.1] at hends
    have hlocal : IsLocal ([top] ++ rest.preorder) fun calls =>
        asked stages.length calls top ++ planned stages.length true rest calls :=
      (isLocal_asked _ _).append (isLocal_planned _ _ _)
    have hparts : Tour stages d calls outcome (below.preorder ++ ([top] ++ rest.preorder))
        fun calls => planned stages.length true below calls ++
          (asked stages.length calls top ++ planned stages.length true rest calls) := by
      refine hends.tour (ihb hf.below_top) (fun {d₁ first later} hfirst hlater => ?_)
        (fun x hx => ?_) (isLocal_planned _ _ _) hlocal
      · have hrest : Stands d₁ parent rest :=
          hfirst.stands hs hf.after_top hf.below_top.holds hbr
        have hpruned := hfirst.pruned hs hf.linked hf.below_top.holds
        have hp₁ : d₁.parent? top = some parent := by
          rw [hpruned.parent?, hfirst.gone_eq_false htb]
          exact hp
        refine hlater.tour (fun hvisit => ?_) (fun hvisit hlast => ?_)
          (List.forall_mem_singleton.2 htr) (isLocal_asked _ _) (isLocal_planned _ _ _)
        · obtain ⟨rfl, rfl⟩ := hvisit.eq_of_visit hp₁
          exact tour_visit hs hrest.linked hp₁
        · have hheld₁ : d₁.Holds top := holds_of_parent? hp₁
          exact ihr (hvisit.stands hs hrest (List.forall_mem_singleton.2 hheld₁)
            (List.forall_mem_singleton.2 htr)) hlast
      · rw [List.mem_append, List.mem_singleton]
        rintro (rfl | hm)
        · exact htb hx
        · exact hbr x hx hm
    refine hparts.congr (fun x hx => ?_) (planned_cons_of_childrenFirst _).symm
    simp only [Forest.preorder, List.mem_cons, List.mem_append, List.not_mem_nil, or_false] at hx ⊢
    tauto

/-- A visit that fails is the beginning of a tour of the whole forest. -/
theorem Tour.fail_first (h : Tour stages d calls (.error e) [top] (asked stages.length · top))
    (below rest : Forest NodeId) :
    Tour stages d calls (.error e) (Forest.cons top below rest).preorder
      (planned stages.length false (.cons top below rest)) := by
  cases hg : gone calls top with
  | false =>
    exact (h.fail (below.preorder ++ rest.preorder) fun calls =>
      planned stages.length false below calls ++ planned stages.length false rest calls).congr
        (fun _ hx => hx) (planned_cons_of_stays _ hg).symm
  | true =>
    exact (h.fail (below.preorder ++ rest.preorder) (planned stages.length false rest)).congr
      (fun _ hx => hx) (planned_cons_of_gone _ hg).symm

/-- The visit of a node that stays is followed by the trees below it and after it. -/
theorem Tour.enter (h : Tour stages d calls (.ok d') [top] (asked stages.length · top))
    (hstays : gone calls top = false) (htop : top ∉ below.preorder ++ rest.preorder)
    (h' : Tour stages d' calls' outcome (below.preorder ++ rest.preorder) fun calls =>
      planned stages.length false below calls ++ planned stages.length false rest calls) :
    Tour stages d (calls ++ calls') outcome (Forest.cons top below rest).preorder
      (planned stages.length false (.cons top below rest)) := by
  have hg : gone (calls ++ calls') top = false := by
    rw [gone_append, hstays, h'.gone_eq_false htop]
    rfl
  have hlocal := (isLocal_planned stages.length false below).append
    (isLocal_planned stages.length false rest)
  exact (h.append h' (List.forall_mem_singleton.2 htop) (isLocal_asked _ _) hlocal).congr
    (fun _ hx => hx) (planned_cons_of_stays _ hg).symm

/-- The visit of a node that goes is followed by the trees after it. -/
theorem Tour.leave (h : Tour stages d calls (.ok d') [top] (asked stages.length · top))
    (hgoes : gone calls top = true) (htop : top ∉ rest.preorder)
    (h' : Tour stages d' calls' outcome rest.preorder (planned stages.length false rest)) :
    Tour stages d (calls ++ calls') outcome (Forest.cons top below rest).preorder
      (planned stages.length false (.cons top below rest)) := by
  have hg : gone (calls ++ calls') top = true := by
    rw [gone_append, hgoes]
    rfl
  refine (h.append h' (List.forall_mem_singleton.2 htop) (isLocal_asked _ _)
    (isLocal_planned _ _ _)).congr (fun x hx => ?_) (planned_cons_of_gone _ hg).symm
  simp only [Forest.preorder, List.mem_cons, List.mem_append, List.not_mem_nil, or_false] at hx ⊢
  tauto

/-- A walk with parents first tours a forest in preorder, without what stands below nodes that it
has removed. -/
theorem tour_parentsFirst (hs : ∀ stage ∈ stages, stage.EditsOnly) (hf : Stands d parent f)
    (h : Ends stages false d [.children parent f.tops] calls outcome) :
    Tour stages d calls outcome f.preorder (planned stages.length false f) := by
  induction f generalizing d parent calls outcome with
  | nil =>
    obtain ⟨rfl, rfl⟩ := h.eq_of_children_nil
    exact .nil rfl
  | cons top below rest ihb ihr =>
    obtain ⟨htb, htr, hbr⟩ := hf.apart
    have hp : d.parent? top = some parent := hf.parents top List.mem_cons_self
    have hvisit := tour_visit hs hf.linked hp
    have hheld : ∀ x ∈ [top], d.Holds x := List.forall_mem_singleton.2 (holds_of_parent? hp)
    rcases h.enter hp with ⟨e, hv, rfl, rfl⟩ | ⟨d₁, stays, later, hv, rfl, hlater⟩
    · rw [hv] at hvisit
      exact Tour.fail_first hvisit below rest
    · rw [hv] at hvisit
      have hfirst : Tour stages d (visitCalls parent top stages.zipIdx d) (.ok d₁) [top]
          (asked stages.length · top) := hvisit
      have hbelow : Stands d₁ top below := hfirst.stands hs hf.below_top hheld
        (List.forall_mem_singleton.2 htb)
      have hrest : Stands d₁ parent rest := hfirst.stands hs hf.after_top hheld
        (List.forall_mem_singleton.2 htr)
      have hgone := ((visits_visitNode hs hf.linked hp 0).complete d₁ stays hv).2
      cases stays with
      | true =>
        have hchildren : d₁.children top = below.tops := by
          rw [(hfirst.pruned hs hf.linked hheld).children, hf.shows.1, List.filter_eq_self]
          intro x hx
          have hne : x ∉ [top] := by
            rw [List.mem_singleton]
            rintro rfl
            exact htb (below.tops_subset_preorder hx)
          rw [hfirst.gone_eq_false hne]
          rfl
        rw [if_pos rfl, hchildren] at hlater
        have hafter := hlater.tour (ihb hbelow)
          (fun hinside hlast => ihr (hinside.stands hs hrest hbelow.holds hbr) hlast) hbr
          (isLocal_planned _ _ _) (isLocal_planned _ _ _)
        have hapart : top ∉ below.preorder ++ rest.preorder := by
          rw [List.mem_append]
          exact fun hm => hm.elim htb htr
        exact hfirst.enter hgone hapart hafter
      | false =>
        rw [if_neg (by simp), List.nil_append] at hlater
        exact hfirst.leave hgone htr (ihr hrest hlater)

theorem Stage.EditsOnly.shrinks {stage : Stage} (h : stage.EditsOnly) : stage.Shrinks := by
  intro d id d' decision hl hid ho
  obtain ⟨kind, rfl, -⟩ := h d id d' decision hl hid ho
  exact .single (.edit id kind)

theorem tour_walk (hs : ∀ stage ∈ stages, stage.EditsOnly) (childrenFirst : Bool)
    (hf : Stands d .root f) (ht : f.tops = d.children .root) :
    Tour stages d (walkCalls stages childrenFirst d) (walk stages childrenFirst d).outcome
      f.preorder (planned stages.length childrenFirst f) := by
  obtain ⟨r, hr, hw, -⟩ := exists_walkFrom stages childrenFirst d hf.linked
    fun stage hm => (hs stage hm).shrinks
  have hends := ends_of_walkFrom hr
  rw [← walkCalls, ← ht, ← hw] at hends
  cases childrenFirst with
  | true => exact tour_childrenFirst hs hf hends
  | false => exact tour_parentsFirst hs hf hends

/-- If plugins edit nothing but the payloads of the nodes they visit, a walk makes the planned calls
on the forest below the root: in preorder without what stands below removed nodes, or in postorder,
on each node all stages up to the one that removes it. Unless an error ends it, it leaves the forest
without the trees of the removed nodes, with the payloads that the calls have left, and the document
element is still there. An error is that of the last call. -/
theorem walk_tours_forest (stages : List Stage) (childrenFirst : Bool) (d : Document)
    (hl : d.Linked) (hs : ∀ stage ∈ stages, stage.EditsOnly) :
    ∃ f : Forest NodeId, f.tops = d.children .root ∧ d.Shows f ∧
      (walk stages childrenFirst d).notes.toList = notesOf (walkCalls stages childrenFirst d) ∧
      Chained d (walkCalls stages childrenFirst d) (walk stages childrenFirst d).outcome ∧
      (∀ c ∈ walkCalls stages childrenFirst d, stages[c.unit]? = some c.stage) ∧
      places (walkCalls stages childrenFirst d) <+:
        planned stages.length childrenFirst f (walkCalls stages childrenFirst d) ∧
      (∀ d', (walk stages childrenFirst d).outcome = .ok d' →
        places (walkCalls stages childrenFirst d) =
          planned stages.length childrenFirst f (walkCalls stages childrenFirst d) ∧
        (∀ c ∈ walkCalls stages childrenFirst d, ∃ d₁, c.after = .ok d₁) ∧
        (f.prune (gone (walkCalls stages childrenFirst d))).tops = d'.children .root ∧
        d'.Shows (f.prune (gone (walkCalls stages childrenFirst d))) ∧
        (∀ x, d'.kind? x = kindAfter (d.kind? x) (walkCalls stages childrenFirst d) x) ∧
        d'.declaration = d.declaration ∧ d'.doctype = d.doctype ∧
        d'.documentElement? = d.documentElement?) ∧
      ∀ e, (walk stages childrenFirst d).outcome = .error e → ∃ before last,
        walkCalls stages childrenFirst d = before ++ [last] ∧
        (∀ c ∈ before, ∃ d₁, c.after = .ok d₁) ∧ last.after = .error e ∧
        ∃ message, e = .plugin last.stage.name message := by
  obtain ⟨f, ht, hf, hn, -, -⟩ := hl.exists_forest_below .root
  have hstands : Stands d .root f := by
    refine ⟨hl, hf, fun top hm => ?_, hn⟩
    rw [hl.parent_iff, ← ht]
    exact hm
  have htour := tour_walk hs childrenFirst hstands ht
  obtain ⟨r, -, hw, hnotes⟩ := exists_walkFrom stages childrenFirst d hl
    fun stage hm => (hs stage hm).shrinks
  refine ⟨f, ht, hf, ?_, htour.chained, htour.staged, htour.ordered, fun d' ho => ?_,
    fun e ho => ?_⟩
  · rw [hw, hnotes]
  · have hplaces := htour.complete d' ho
    rw [ho] at htour
    have hpruned := htour.pruned hs hl hstands.holds
    refine ⟨hplaces, htour.chained.exists_after, ?_, hf.prune hpruned.children, hpruned.kind?,
      hpruned.declaration, hpruned.doctype, hpruned.documentElement?_eq⟩
    rw [Forest.tops_prune, ht, hpruned.children]
  · have hchained := htour.chained
    rw [ho] at hchained
    obtain ⟨before, last, hcalls, hbefore, hlast, cause, rfl⟩ := hchained.exists_last
    exact ⟨before, last, hcalls, hbefore, hlast, cause.message, rfl⟩

/-- A stage that cuts spaces off texts and removes those that are blank. -/
def Stage.tidying : Stage where
  name := "tidy"
  traversal := .perItem
  rewriter := { visit := fun d id => match d.kindOf id with
    | .text content => .ok (d.setKind id (.text (Text.trimSpace content)),
        if Text.allBlank content then .remove else .keep)
    | kind => .ok (d.setKind id kind, .keep) }

theorem Stage.tidying_editsOnly : Stage.tidying.EditsOnly := by
  intro d id d' decision _ _ h
  have hkind : ∀ old, d.kind? id = some old → d.kindOf id = old := by
    intro old hold
    rw [kindOf, hold]
    rfl
  simp only [Stage.tidying] at h
  split at h
  · rename_i content hk
    obtain ⟨rfl, -⟩ := Prod.mk.inj (Except.ok.inj h)
    exact ⟨_, rfl, fun old hold => by rw [← hkind old hold, hk]; rfl⟩
  · obtain ⟨rfl, -⟩ := Prod.mk.inj (Except.ok.inj h)
    exact ⟨_, rfl, fun old hold => by rw [← hkind old hold]⟩

/-- A drawing that holds nothing but a blank text is walked as planned. -/
theorem walk_tours_forest_of_tidying : ∃ d : Document, d.Linked ∧
    d.children .root = [⟨1⟩] ∧ d.children ⟨1⟩ = [⟨2⟩] ∧ d.kind? ⟨2⟩ = some (.text " ") ∧
    (∀ stage ∈ [Stage.tidying], stage.EditsOnly) ∧
    ∃ f : Forest NodeId, f.tops = d.children .root ∧ d.Shows f ∧
      places (walkCalls [.tidying] true d) <+: planned 1 true f (walkCalls [.tidying] true d) := by
  have h1 : Reachable false _ := .createElement .empty (Element.named "svg")
  have h2 := @Reachable.appendChild false _ .root ⟨1⟩ h1 (by decide) (by decide)
  have h3 := h2.createText " "
  have h4 := @Reachable.appendChild false _ ⟨1⟩ ⟨2⟩ h3 (by decide) (by decide)
  have hs : ∀ stage ∈ [Stage.tidying], stage.EditsOnly := by
    intro stage hm
    rw [List.mem_singleton.1 hm]
    exact Stage.tidying_editsOnly
  obtain ⟨f, ht, hf, -, -, -, hplaces, -⟩ := walk_tours_forest [.tidying] true _ h4.linked hs
  exact ⟨_, h4.linked, by decide, by decide, by decide, hs, f, ht, hf, hplaces⟩

end SvgPress
