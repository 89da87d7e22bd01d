import SvgPress.Pipeline.Walk
import SvgPress.Proofs.Outcome

/-!
# The calls of a walk

A walk shows of its plugins only the notes and the document that they leave. The calls that it makes
on the way are listed here, step by step as it makes them: the notes of a walk are the notes of its
calls, whatever the plugins say.
-/

namespace SvgPress

/-- A call of a stage of a group on a node. -/
structure Call where
  /-- The place of the stage in its group. -/
  unit : Nat
  /-- The stage. -/
  stage : Stage
  /-- The node. -/
  node : NodeId
  /-- The document that the stage is given. -/
  document : Document

/-- What the stage does. -/
def Call.report (c : Call) : Report PluginError (Document × Visit) :=
  c.stage.rewriter.visit c.document c.node

/-- The calls of stages on a node below `parent`. -/
def visitCalls (parent child : NodeId) : List (Stage × Nat) → Document → List Call
  | [], _ => []
  | (stage, unit) :: rest, d =>
    ⟨unit, stage, child, d⟩ ::
      match (stage.rewriter.visit d child).outcome with
      | .ok (d', .keep) =>
        if d'.parent? child = some parent then visitCalls parent child rest d' else []
      | _ => []

/-- The calls of a step. -/
def WalkStep.calls (stages : List Stage) (childrenFirst : Bool) (d : Document) :
    WalkStep → List Call
  | .visit parent child =>
    if d.parent? child = some parent then visitCalls parent child stages.zipIdx d else []
  | .children _ [] => []
  | .children parent (child :: _) =>
    if d.parent? child = some parent then
      if childrenFirst then [] else visitCalls parent child stages.zipIdx d
    else []

/-- The calls of at most `bound` steps. -/
def callsFrom (stages : List Stage) (childrenFirst : Bool) :
    (bound : Nat) → Document → List WalkStep → List Call
  | _, _, [] => []
  | 0, _, _ :: _ => []
  | bound + 1, d, step :: pending =>
    step.calls stages childrenFirst d ++
      match (step.take stages childrenFirst d).outcome with
      | .ok (d', first) => callsFrom stages childrenFirst bound d' (first ++ pending)
      | .error _ => []

/-- The calls of a walk. -/
def walkCalls (stages : List Stage) (childrenFirst : Bool) (d : Document) : List Call :=
  callsFrom stages childrenFirst (walkBound d) d [.children .root (d.children .root)]

variable {stages rest : List Stage} {stage : Stage} {childrenFirst : Bool} {bound : Nat}
  {d d' : Document} {parent child : NodeId} {step : WalkStep} {first pending : List WalkStep}

/-! ## Visits -/

section

variable {α β : Type} {ε ε' : Type}

theorem Report.bind_of_ok {r : Report ε α} {a : α} (h : r.outcome = .ok a) (f : α → Report ε β) :
    r.bind f = ⟨r.notes ++ (f a).notes, (f a).outcome⟩ := by
  rw [Report.bind, h]

theorem Report.bind_of_error {r : Report ε α} {e : ε} (h : r.outcome = .error e)
    (f : α → Report ε β) : r.bind f = ⟨r.notes, .error e⟩ := by
  rw [Report.bind, h]

theorem Report.outcome_mapError_of_ok {r : Report ε α} {a : α} (h : r.outcome = .ok a)
    (f : ε → ε') : (r.mapError f).outcome = .ok a := by
  rw [Report.mapError, h]
  rfl

theorem Report.outcome_mapError_of_error {r : Report ε α} {e : ε} (h : r.outcome = .error e)
    (f : ε → ε') : (r.mapError f).outcome = .error (f e) := by
  rw [Report.mapError, h]
  rfl

end

/-- The first plugin that fails ends the visit. -/
theorem visitNode_of_error {e : PluginError}
    (h : (stage.rewriter.visit d child).outcome = .error e) :
    visitNode parent child (stage :: rest) d =
      ⟨(stage.rewriter.visit d child).notes, .error (stage.failure e)⟩ :=
  Report.bind_of_error (Report.outcome_mapError_of_error h _) _

/-- A node that a plugin removes is detached, and no further plugin is called; the document element
cannot be removed. -/
theorem visitNode_of_remove (h : (stage.rewriter.visit d child).outcome = .ok (d', .remove)) :
    visitNode parent child (stage :: rest) d = ⟨(stage.rewriter.visit d child).notes,
      if parent = .root && d'.isElement child then
        .error (stage.failure ⟨"cannot remove the document element"⟩)
      else .ok (d'.detach child, false)⟩ := by
  refine (Report.bind_of_ok (Report.outcome_mapError_of_ok h _) _).trans ?_
  simp only [if_true]
  split_ifs <;> simp [Report.mapError, Report.error, pure, Report.ok]

/-- The further plugins are called as long as the node stands where it was. -/
theorem visitNode_of_keep (h : (stage.rewriter.visit d child).outcome = .ok (d', .keep)) :
    visitNode parent child (stage :: rest) d =
      if d'.parent? child = some parent then
        ⟨(stage.rewriter.visit d child).notes ++ (visitNode parent child rest d').notes,
          (visitNode parent child rest d').outcome⟩
      else ⟨(stage.rewriter.visit d child).notes, .ok (d', false)⟩ := by
  refine (Report.bind_of_ok (Report.outcome_mapError_of_ok h _) _).trans ?_
  simp only [reduceCtorEq, if_false]
  split_ifs <;> simp [Report.mapError, pure, Report.ok]

/-- A visit that does not fail ends with the first stage if this removes the node or moves it away;
else it goes on with the stages after it. -/
theorem visitNode_cons_eq_ok {stays : Bool}
    (h : (visitNode parent child (stage :: rest) d).outcome = .ok (d', stays)) :
    ∃ d₁ decision, (stage.rewriter.visit d child).outcome = .ok (d₁, decision) ∧
      (decision = .remove ∧ (parent = .root && d₁.isElement child) = false ∧
          d' = d₁.detach child ∧ stays = false ∨
        decision = .keep ∧ d₁.parent? child ≠ some parent ∧ d' = d₁ ∧ stays = false ∨
        decision = .keep ∧ d₁.parent? child = some parent ∧
          (visitNode parent child rest d₁).outcome = .ok (d', stays)) := by
  cases hv : (stage.rewriter.visit d child).outcome with
  | error e =>
    rw [visitNode_of_error hv] at h
    exact absurd h (by simp)
  | ok visited =>
    obtain ⟨d₁, decision⟩ := visited
    refine ⟨d₁, decision, rfl, ?_⟩
    cases decision with
    | remove =>
      rw [visitNode_of_remove hv] at h
      simp only at h
      split_ifs at h with hroot
      obtain ⟨rfl, rfl⟩ := Prod.mk.inj (Except.ok.inj h)
      exact .inl ⟨rfl, by simpa using hroot, rfl, rfl⟩
    | keep =>
      rw [visitNode_of_keep hv] at h
      split_ifs at h with hp
      · exact .inr (.inr ⟨rfl, hp, h⟩)
      · obtain ⟨rfl, rfl⟩ := Prod.mk.inj (Except.ok.inj h)
        exact .inr (.inl ⟨rfl, hp, rfl, rfl⟩)

theorem visitCalls_of_error {e : PluginError} {unit : Nat} {units : List (Stage × Nat)}
    (h : (stage.rewriter.visit d child).outcome = .error e) :
    visitCalls parent child ((stage, unit) :: units) d = [⟨unit, stage, child, d⟩] := by
  rw [visitCalls, h]

theorem visitCalls_of_remove {unit : Nat} {units : List (Stage × Nat)}
    (h : (stage.rewriter.visit d child).outcome = .ok (d', .remove)) :
    visitCalls parent child ((stage, unit) :: units) d = [⟨unit, stage, child, d⟩] := by
  rw [visitCalls, h]

theorem visitCalls_of_keep {unit : Nat} {units : List (Stage × Nat)}
    (h : (stage.rewriter.visit d child).outcome = .ok (d', .keep)) :
    visitCalls parent child ((stage, unit) :: units) d = ⟨unit, stage, child, d⟩ ::
      if d'.parent? child = some parent then visitCalls parent child units d' else [] := by
  rw [visitCalls, h]

/-- All calls of a visit are for one node. -/
theorem node_of_mem_visitCalls {units : List (Stage × Nat)} {c : Call}
    (hc : c ∈ visitCalls parent child units d) : c.node = child := by
  induction units generalizing d with
  | nil => exact absurd hc List.not_mem_nil
  | cons unit units ih =>
    rw [visitCalls] at hc
    rcases List.mem_cons.1 hc with rfl | hc
    · rfl
    · split at hc
      · split_ifs at hc
        · exact ih hc
        · exact absurd hc List.not_mem_nil
      · exact absurd hc List.not_mem_nil

/-- The stages are called in order, each of them once. -/
theorem units_visitCalls (units : List (Stage × Nat)) :
    (visitCalls parent child units d).map (fun c => (c.stage, c.unit)) <+: units := by
  induction units generalizing d with
  | nil => exact List.nil_prefix
  | cons unit units ih =>
    rw [visitCalls, List.map_cons, List.cons_prefix_cons]
    refine ⟨rfl, ?_⟩
    split
    · split_ifs
      · exact ih
      · exact List.nil_prefix
    · exact List.nil_prefix

/-- The notes of calls, one after the other. -/
def notesOf (calls : List Call) : List Note :=
  calls.flatMap fun c => c.report.notes.toList

@[simp] theorem notesOf_append (calls calls' : List Call) :
    notesOf (calls ++ calls') = notesOf calls ++ notesOf calls' :=
  List.flatMap_append

/-- A visit reports what its calls say, in their order. -/
theorem notes_visitNode (n : Nat) : (visitNode parent child stages d).notes.toList =
    notesOf (visitCalls parent child (stages.zipIdx n) d) := by
  induction stages generalizing n d with
  | nil => rfl
  | cons stage rest ih =>
    rw [List.zipIdx_cons]
    cases h : (stage.rewriter.visit d child).outcome with
    | error e =>
      rw [visitNode_of_error h, visitCalls_of_error h]
      simp [notesOf, Call.report]
    | ok visited =>
      obtain ⟨d', decision⟩ := visited
      cases decision with
      | remove =>
        rw [visitNode_of_remove h, visitCalls_of_remove h]
        simp [notesOf, Call.report]
      | keep =>
        rw [visitNode_of_keep h, visitCalls_of_keep h]
        split_ifs with hp
        · have hrest := ih (d := d') (n + 1)
          rw [notesOf] at hrest ⊢
          rw [Array.toList_append, hrest, List.flatMap_cons]
          rfl
        · simp [notesOf, Call.report]

/-! ## Steps -/

theorem notes_bind {α β ε : Type} {r : Report ε α} {f : α → Report ε β}
    (h : ∀ a, (f a).notes = #[]) : (r.bind f).notes = r.notes := by
  cases ho : r.outcome with
  | error e => rw [Report.bind_of_error ho]
  | ok a => rw [Report.bind_of_ok ho, h, Array.append_empty]

theorem notes_take : (step.take stages childrenFirst d).notes.toList =
    notesOf (step.calls stages childrenFirst d) := by
  have hvisit : ∀ {α : Type} (parent child : NodeId) (f : Document × Bool → Report Error α),
      (∀ visited, (f visited).notes = #[]) →
        ((visitNode parent child stages d).bind f).notes.toList =
          notesOf (visitCalls parent child stages.zipIdx d) := by
    intro α parent child f hf
    rw [notes_bind hf, notes_visitNode 0]
  cases step with
  | visit parent child =>
    rw [WalkStep.take, WalkStep.calls]
    split_ifs with hp
    · exact hvisit parent child _ fun _ => rfl
    · rfl
  | children parent rest =>
    cases rest with
    | nil => rfl
    | cons child rest =>
      rw [WalkStep.take, WalkStep.calls]
      by_cases hp : d.parent? child = some parent
      · rw [if_neg (by simp [hp]), if_pos hp]
        cases childrenFirst with
        | true => rfl
        | false =>
          refine hvisit parent child _ ?_
          rintro ⟨d', stays⟩
          cases stays <;> rfl
      · rw [if_pos (by simpa using hp), if_neg hp]
        rfl

/-- What a step does that does not fail, with its calls. -/
inductive Takes (stages : List Stage) (childrenFirst : Bool) (d : Document) :
    WalkStep → List Call → Document → List WalkStep → Prop
  /-- All children have been walked. -/
  | finish {parent : NodeId} : Takes stages childrenFirst d (.children parent []) [] d []
  /-- The child has left its parent. -/
  | skip {parent child : NodeId} {rest : List NodeId} (hp : d.parent? child ≠ some parent) :
      Takes stages childrenFirst d (.children parent (child :: rest)) [] d [.children parent rest]
  /-- The visit of the child waits for its subtree. -/
  | descend {parent child : NodeId} {rest : List NodeId} (hp : d.parent? child = some parent)
      (hc : childrenFirst = true) :
      Takes stages childrenFirst d (.children parent (child :: rest)) [] d
        [.children child (d.children child), .visit parent child, .children parent rest]
  /-- The child is visited, and its subtree is next. -/
  | enter {parent child : NodeId} {rest : List NodeId} {d' : Document}
      (hp : d.parent? child = some parent) (hc : childrenFirst = false)
      (hv : (visitNode parent child stages d).outcome = .ok (d', true)) :
      Takes stages childrenFirst d (.children parent (child :: rest))
        (visitCalls parent child stages.zipIdx d) d'
        [.children child (d'.children child), .children parent rest]
  /-- The child is visited and does not stay. -/
  | leave {parent child : NodeId} {rest : List NodeId} {d' : Document}
      (hp : d.parent? child = some parent) (hc : childrenFirst = false)
      (hv : (visitNode parent child stages d).outcome = .ok (d', false)) :
      Takes stages childrenFirst d (.children parent (child :: rest))
        (visitCalls parent child stages.zipIdx d) d' [.children parent rest]
  /-- The node whose subtree is done is visited. -/
  | visit {parent child : NodeId} {d' : Document} {stays : Bool}
      (hp : d.parent? child = some parent)
      (hv : (visitNode parent child stages d).outcome = .ok (d', stays)) :
      Takes stages childrenFirst d (.visit parent child)
        (visitCalls parent child stages.zipIdx d) d' []
  /-- The node whose subtree is done has left its parent. -/
  | miss {parent child : NodeId} (hp : d.parent? child ≠ some parent) :
      Takes stages childrenFirst d (.visit parent child) [] d []

theorem outcome_bind {α β ε : Type} (r : Report ε α) (f : α → Report ε β) :
    (r.bind f).outcome = r.outcome.bind fun a => (f a).outcome := by
  cases ho : r.outcome with
  | error e => rw [Report.bind_of_error ho]; rfl
  | ok a => rw [Report.bind_of_ok ho]; rfl

theorem outcome_bind_eq_ok_iff {α β ε : Type} {r : Report ε α} {f : α → Report ε β} {b : β} :
    (r.bind f).outcome = .ok b ↔ ∃ a, r.outcome = .ok a ∧ (f a).outcome = .ok b := by
  rw [outcome_bind]
  exact Outcome.bind_eq_ok_iff

/-- What a step that succeeds has done, by the kind of the step. -/
theorem takes_of_take (h : (step.take stages childrenFirst d).outcome = .ok (d', first)) :
    Takes stages childrenFirst d step (step.calls stages childrenFirst d) d' first := by
  cases step with
  | visit parent child =>
    rw [WalkStep.calls]
    rw [WalkStep.take] at h
    split_ifs at h ⊢ with hp
    · obtain ⟨⟨d₁, stays⟩, hv, h⟩ := outcome_bind_eq_ok_iff.1 h
      obtain ⟨rfl, rfl⟩ := Prod.mk.inj (Except.ok.inj h)
      exact .visit hp hv
    · obtain ⟨rfl, rfl⟩ := Prod.mk.inj (Except.ok.inj h)
      exact .miss hp
  | children parent rest =>
    cases rest with
    | nil =>
      obtain ⟨rfl, rfl⟩ := Prod.mk.inj (Except.ok.inj h)
      exact .finish
    | cons child rest =>
      rw [WalkStep.calls]
      rw [WalkStep.take] at h
      by_cases hp : d.parent? child = some parent
      · rw [if_neg (by simp [hp])] at h
        rw [if_pos hp]
        cases hc : childrenFirst with
        | true =>
          rw [hc] at h
          obtain ⟨rfl, rfl⟩ := Prod.mk.inj (Except.ok.inj h)
          exact .descend hp rfl
        | false =>
          rw [hc] at h
          obtain ⟨⟨d₁, stays⟩, hv, h⟩ := outcome_bind_eq_ok_iff.1 h
          cases stays with
          | true =>
            obtain ⟨rfl, rfl⟩ := Prod.mk.inj (Except.ok.inj h)
            exact .enter hp rfl hv
          | false =>
            obtain ⟨rfl, rfl⟩ := Prod.mk.inj (Except.ok.inj h)
            exact .leave hp rfl hv
      · rw [if_pos (by simpa using hp)] at h
        rw [if_neg hp]
        obtain ⟨rfl, rfl⟩ := Prod.mk.inj (Except.ok.inj h)
        exact .skip hp

/-- After a step, the steps that it puts first come before those that were pending. -/
theorem walkFrom_cons_of_ok (h : (step.take stages childrenFirst d).outcome = .ok (d', first))
    (said : Array Note) : walkFrom stages childrenFirst (bound + 1) said d (step :: pending) =
      walkFrom stages childrenFirst bound (said ++ (step.take stages childrenFirst d).notes) d'
        (first ++ pending) := by
  rw [walkFrom]
  split
  · rename_i notes d₁ first₁ he
    rw [he] at h ⊢
    obtain ⟨rfl, rfl⟩ := Prod.mk.inj (Except.ok.inj h)
    rfl
  · rename_i he
    rw [he] at h
    exact absurd h (by simp)

theorem walkFrom_cons_of_error {e : Error}
    (h : (step.take stages childrenFirst d).outcome = .error e) (said : Array Note) :
    walkFrom stages childrenFirst (bound + 1) said d (step :: pending) =
      some ⟨said ++ (step.take stages childrenFirst d).notes, .error e⟩ := by
  rw [walkFrom]
  split
  · rename_i he
    rw [he] at h
    exact absurd h (by simp)
  · rename_i he
    rw [he] at h ⊢
    rw [Except.error.inj h]

theorem callsFrom_cons_of_ok (h : (step.take stages childrenFirst d).outcome = .ok (d', first)) :
    callsFrom stages childrenFirst (bound + 1) d (step :: pending) =
      step.calls stages childrenFirst d ++
        callsFrom stages childrenFirst bound d' (first ++ pending) := by
  rw [callsFrom, h]

theorem callsFrom_cons_of_error {e : Error}
    (h : (step.take stages childrenFirst d).outcome = .error e) :
    callsFrom stages childrenFirst (bound + 1) d (step :: pending) =
      step.calls stages childrenFirst d := by
  rw [callsFrom, h, List.append_nil]

@[simp] theorem callsFrom_nil : callsFrom stages childrenFirst bound d [] = [] := by
  cases bound <;> rfl

/-- The notes of a walk are the notes of its calls. -/
theorem notes_walkFrom {said : Array Note} {r : Report Error Document}
    (h : walkFrom stages childrenFirst bound said d pending = some r) :
    r.notes.toList = said.toList ++ notesOf (callsFrom stages childrenFirst bound d pending) := by
  induction bound generalizing said d pending with
  | zero =>
    cases pending with
    | nil =>
      obtain rfl := Option.some.inj h
      simp [notesOf]
    | cons step pending => simp [walkFrom] at h
  | succ bound ih =>
    cases pending with
    | nil =>
      obtain rfl := Option.some.inj h
      simp [notesOf]
    | cons step pending =>
      cases ho : (step.take stages childrenFirst d).outcome with
      | error e =>
        rw [walkFrom_cons_of_error ho] at h
        obtain rfl := Option.some.inj h
        rw [callsFrom_cons_of_error ho, Array.toList_append, notes_take]
      | ok taken =>
        obtain ⟨d', first⟩ := taken
        rw [walkFrom_cons_of_ok ho] at h
        rw [ih h, callsFrom_cons_of_ok ho, Array.toList_append, notes_take, notesOf_append,
          List.append_assoc]

end SvgPress
