import SvgPress.Proofs.Markup.Owing
import SvgPress.Proofs.Tree.Reachable
import SvgPress.Request

/-!
# Refused requests

Requests look at everything before they write, so one that is refused leaves the document as it was.
There is one exception: a copy of a fragment has been made when its place is looked at. If it is
refused its place it stays in the store, where no old node leads to it, so the document still says
the same.
-/

namespace SvgPress

namespace Document

/-- Parents and child lists of nodes can be written in any order. -/
theorem setParent_modifyChildren (d : Document) (id other : NodeId) (parent : Option NodeId)
    (f : List NodeId → List NodeId) :
    (d.modifyChildren other f).setParent id parent =
      (d.setParent id parent).modifyChildren other f := by
  refine ext_node? rfl rfl fun x => ?_
  simp only [setParent, modifyChildren, node?_modifyNode]
  split_ifs <;> simp [Function.comp_def]

theorem setParent_none_modifyChildren (d : Document) (id : NodeId) (f : List NodeId → List NodeId) :
    (d.modifyChildren id f).setParent id none =
      d.modifyNode id fun node => { node with parent := none, children := f node.children } := by
  rw [setParent, modifyChildren, modifyNode_modifyNode]
  rfl

theorem foldl_setParent_modifyChildren (d : Document) (ids : List NodeId) (parent : Option NodeId)
    (other : NodeId) (f : List NodeId → List NodeId) :
    ids.foldl (fun d id => d.setParent id parent) (d.modifyChildren other f) =
      (ids.foldl (fun d id => d.setParent id parent) d).modifyChildren other f := by
  induction ids generalizing d with
  | nil => rfl
  | cons id ids ih => rw [List.foldl_cons, List.foldl_cons, setParent_modifyChildren, ih]

end Document

namespace InPlace

open Document

variable {α β : Type} {d : Document} {work : InPlace α} {next : α → InPlace β}

/-! ## What a step does -/

theorem on_modify (f : Document → Document) (d : Document) :
    (modify f : InPlace Unit).on d = (.ok (), f d) := rfl

/-- A refusal ends the work, with the document as it is then. -/
theorem on_bind (work : InPlace α) (next : α → InPlace β) (d : Document) :
    (work >>= next).on d = match work.on d with
      | (.ok a, d') => (next a).on d'
      | (.error cause, d') => (.error cause, d') := by
  obtain ⟨⟨outcome, d'⟩, he⟩ : ∃ done, work.on d = done := ⟨_, rfl⟩
  have hbind : (work >>= next).on d = (match work.on d with
      | (outcome, d') => (ExceptT.bindCont next outcome).run d') := rfl
  rw [hbind, he]
  cases outcome <;> rfl

theorem on_get_bind (next : Document → InPlace β) (d : Document) :
    (get >>= next).on d = (next d).on d := rfl

theorem on_modify_bind (f : Document → Document) (next : PUnit → InPlace β) (d : Document) :
    (modify f >>= next).on d = (next ⟨⟩).on (f d) := rfl

theorem on_map (f : α → β) (work : InPlace α) (d : Document) :
    (f <$> work).on d = ((work.on d).1.map f, (work.on d).2) := by
  rw [map_eq_pure_bind, on_bind]
  rcases work.on d with ⟨_ | _, d'⟩ <;> rfl

theorem on_bind_pure (work : InPlace α) (b : β) (d : Document) :
    (work >>= fun _ => pure b).on d = ((work.on d).1.map fun _ => b, (work.on d).2) := by
  rw [on_bind]
  rcases work.on d with ⟨_ | _, d'⟩ <;> rfl

theorem on_bind_of_ok {a : α} {d' : Document} (h : work.on d = (.ok a, d')) :
    (work >>= next).on d = (next a).on d' := by
  rw [on_bind, h]

theorem on_bind_eq_ok_iff {b : β} {d' : Document} :
    (work >>= next).on d = (.ok b, d') ↔
      ∃ a d₁, work.on d = (.ok a, d₁) ∧ (next a).on d₁ = (.ok b, d') := by
  rw [on_bind]
  rcases work.on d with ⟨_ | a, d₁⟩ <;> simp

/-- A check that does not refuse has changed nothing. -/
theorem on_refuseIf_bind (condition : Document → Bool) (cause : Document → TreeError)
    (next : PUnit → InPlace β) (d : Document) :
    (refuseIf condition cause >>= next).on d =
      if condition d = true then (.error (cause d), d) else (next ⟨⟩).on d := by
  rw [on_bind, refuseIf, on_get_bind]
  split_ifs <;> rfl

/-- A loop that writes for each of some nodes. -/
theorem on_forIn_modify_bind (f : NodeId → Document → Document) (ids : List NodeId)
    (next : PUnit → InPlace β) (d : Document) :
    ((forIn ids PUnit.unit fun id _ => do
      modify (f id)
      pure (ForInStep.yield PUnit.unit)) >>= next : InPlace β).on d =
      (next ⟨⟩).on (ids.foldl (fun d id => f id d) d) := by
  induction ids generalizing d with
  | nil => rfl
  | cons id ids ih =>
    rw [List.forIn_cons, List.foldl_cons, ← ih (f id d)]
    rfl

/-! ## What requests come to -/

theorem on_insertChild (parent : NodeId) (index : Nat) (child : NodeId) (d : Document) :
    (insertChild parent index child).on d =
      ((d.insertChild parent index child).map fun _ => (),
        d.after (d.insertChild parent index child)) := by
  simp only [insertChild, on_refuseIf_bind, on_modify_bind, on_modify, Document.insertChild,
    beq_iff_eq, decide_eq_true_eq]
  split_ifs <;> rfl

theorem on_appendChild (parent child : NodeId) (d : Document) :
    (appendChild parent child).on d =
      ((d.appendChild parent child).map fun _ => (), d.after (d.appendChild parent child)) := by
  rw [appendChild, on_get_bind, on_insertChild]
  rfl

/-- The work in place succeeds where the operation on values does, with the same document. -/
theorem on_appendChild_eq_ok_iff {parent child : NodeId} {d' : Document} :
    (appendChild parent child).on d = (.ok (), d') ↔ d.appendChild parent child = .ok d' := by
  rw [on_appendChild]
  cases d.appendChild parent child with
  | error cause => exact iff_of_false nofun nofun
  | ok placed =>
    constructor
    · exact fun h => congrArg Except.ok (Prod.mk.inj h).2
    · exact fun h => congrArg (Prod.mk _) (Except.ok.inj h)

theorem on_rename (id : NodeId) (name : String) (d : Document) :
    (rename id name).on d = ((d.rename id name).map fun _ => (), d.after (d.rename id name)) := by
  rw [rename, on_get_bind, Document.rename]
  cases d.element? id <;> rfl

theorem on_importFrom (source : Document) (id : NodeId) (d : Document) :
    (importFrom source id).on d =
      ((d.importFrom source id).map (·.2), d.after ((d.importFrom source id).map (·.1))) := by
  rw [importFrom, on_refuseIf_bind, Document.importFrom]
  simp only [beq_iff_eq]
  split_ifs <;> rfl

theorem on_deepClone (id : NodeId) (d : Document) :
    (deepClone id).on d =
      ((d.deepClone id).map (·.2), d.after ((d.deepClone id).map (·.1))) := by
  rw [deepClone, on_get_bind, on_importFrom]
  rfl

/-- Inserting a fragment is placing it; the document that placing leaves is there after a refusal
too. -/
theorem on_insertItem (parent : NodeId) (index : Nat) (item : ContentItem) (d : Document) :
    (insertItem parent index item).on d =
      ((d.placeItem parent index item).2, (d.placeItem parent index item).1) := by
  rw [insertItem, on_bind, on_importFrom, placeItem]
  cases d.importFrom item.document item.top with
  | error cause => rfl
  | ok copied =>
    obtain ⟨copied, id⟩ := copied
    have hplace := on_bind_pure (insertChild parent index id) id copied
    rw [on_insertChild] at hplace
    refine hplace.trans ?_
    simp only
    cases copied.insertChild parent index id <;> rfl

/-- Emptying an element before its children have got their new parent leads to the same store as
emptying it afterwards. -/
theorem on_unwrap (id : NodeId) (d : Document) :
    (unwrap id).on d = ((d.unwrap id).map fun _ => (), d.after (d.unwrap id)) := by
  rw [unwrap, on_get_bind, Document.unwrap]
  cases d.parent? id with
  | none => rfl
  | some parent =>
    simp only [on_refuseIf_bind, on_modify_bind, on_forIn_modify_bind, on_modify]
    split_ifs
    · rfl
    · rfl
    · rw [foldl_setParent_modifyChildren, setParent_none_modifyChildren]
      rfl

/-! ## Work that is refused before it writes -/

/-- Refused work has written nothing. -/
def ChecksFirst (work : InPlace α) : Prop :=
  ∀ d cause d', work.on d = (.error cause, d') → d' = d

theorem ChecksFirst.map (h : ChecksFirst work) (f : α → β) : ChecksFirst (f <$> work) := by
  intro d cause d' he
  rw [on_map] at he
  obtain ⟨houtcome, rfl⟩ := Prod.mk.inj he
  cases hwork : (work.on d).1 with
  | error e => exact h d e _ (Prod.ext hwork rfl)
  | ok a => rw [hwork] at houtcome; exact absurd houtcome nofun

theorem ChecksFirst.bind_pure (h : ChecksFirst work) (b : β) :
    ChecksFirst (work >>= fun _ => pure b) := by
  intro d cause d' he
  have hmap := h.map (fun _ => b) d cause d'
  rw [on_map, ← on_bind_pure] at hmap
  exact hmap he

/-- Work that does what a call does, and leaves the document as it was where the call is refused. -/
theorem ChecksFirst.of_call {γ : Type} {call : Document → Except TreeError γ} {result : γ → α}
    (h : ∀ d, (work.on d).1 = (call d).map result)
    (hleft : ∀ d cause, call d = .error cause → (work.on d).2 = d) : ChecksFirst work := by
  intro d cause d' he
  have houtcome := h d
  rw [he] at houtcome
  cases hcall : call d with
  | error e =>
    have hd := hleft d e hcall
    rwa [he] at hd
  | ok c => rw [hcall] at houtcome; exact absurd houtcome nofun

theorem checksFirst_insertChild (parent : NodeId) (index : Nat) (child : NodeId) :
    ChecksFirst (insertChild parent index child) :=
  .of_call (fun d => by rw [on_insertChild]) fun d cause he => by rw [on_insertChild, he]; rfl

theorem checksFirst_appendChild (parent child : NodeId) :
    ChecksFirst (appendChild parent child) :=
  .of_call (fun d => by rw [on_appendChild]) fun d cause he => by rw [on_appendChild, he]; rfl

theorem checksFirst_unwrap (id : NodeId) : ChecksFirst (unwrap id) :=
  .of_call (fun d => by rw [on_unwrap]) fun d cause he => by rw [on_unwrap, he]; rfl

theorem checksFirst_rename (id : NodeId) (name : String) : ChecksFirst (rename id name) :=
  .of_call (fun d => by rw [on_rename]) fun d cause he => by rw [on_rename, he]; rfl

theorem checksFirst_importFrom (source : Document) (id : NodeId) :
    ChecksFirst (importFrom source id) :=
  .of_call (fun d => by rw [on_importFrom]) fun d cause he => by rw [on_importFrom, he]; rfl

theorem checksFirst_deepClone (id : NodeId) : ChecksFirst (deepClone id) :=
  .of_call (fun d => by rw [on_deepClone]) fun d cause he => by rw [on_deepClone, he]; rfl

end InPlace

open Document Relation

/-- Apart from placing a fragment, requests check first. -/
theorem Request.checksFirst_perform {request : Request} (h : request.fragment? = none) :
    InPlace.ChecksFirst request.perform := by
  cases request with
  | appendChild parent child => exact (InPlace.checksFirst_appendChild parent child).bind_pure none
  | insertChild parent index child =>
    exact (InPlace.checksFirst_insertChild parent index child).bind_pure none
  | unwrap id => exact (InPlace.checksFirst_unwrap id).bind_pure none
  | rename id name => exact (InPlace.checksFirst_rename id name).bind_pure none
  | deepClone id => exact (InPlace.checksFirst_deepClone id).map some
  | importFrom source id => exact (InPlace.checksFirst_importFrom source id).map some
  | insertItem parent index item => exact absurd h nofun

/-! ## What is left -/

/-- The store of a fragment has come about by edits, and its top is a node of it. -/
structure ContentItem.IsReachable (item : ContentItem) : Prop where
  reachable : ∃ rewrites, Reachable rewrites item.document
  held : item.document.Holds item.top

/-- What a refused request leaves: all that was there is as it was, no old node leads to a new one,
and the document is the same and written in the same way. -/
structure LeftAlone (d d' : Document) : Prop where
  kept : Kept d d'
  apart : ∀ id other, d.Holds id → ReflTransGen d'.IsParent id other → d.Holds other
  same : (d' == d) = true
  written : ∀ style, Markup.write style d' = Markup.write style d

namespace Document

variable {d d' : Document} {parent : NodeId} {index : Nat} {item : ContentItem}

theorem Kept.leftAlone (h : Kept d d') (hl : d.Linked) (hl' : d'.Linked) : LeftAlone d d' where
  kept := h
  apart _ _ hid hr := h.holds_of_above hl hl' hid hr
  same := h.same hl hl'
  written style := Markup.write_of_kept hl h style

/-- A copy that is refused its place is all that is left of the request. -/
theorem eq_of_placeItem_error {cause : TreeError}
    (h : (d.placeItem parent index item).2 = .error cause) :
    (d.placeItem parent index item).1 = d ∨
      (d.placeItem parent index item).1 = (d.graft item.document item.top).1 := by
  rw [placeItem] at h ⊢
  split at h
  · exact .inl rfl
  · rename_i copied id hcopy
    obtain ⟨-, he⟩ := importFrom_eq_ok_iff.1 hcopy
    obtain ⟨rfl, rfl⟩ := Prod.mk.inj he
    split at h
    · exact .inr rfl
    · exact absurd h (by simp)

/-- A fragment that is refused its place leaves nothing but its copy, below no node. -/
theorem Linked.leftAlone_placeItem (hl : d.Linked) (hi : item.IsReachable) {cause : TreeError}
    (h : (d.placeItem parent index item).2 = .error cause) :
    LeftAlone d (d.placeItem parent index item).1 := by
  obtain ⟨_, hreachable⟩ := hi.reachable
  have hs := hreachable.linked
  rcases eq_of_placeItem_error h with he | he
  · rw [he]
    exact (Kept.refl d).leftAlone hl hl
  · rw [he]
    exact (hs.kept_graft hi.held).leftAlone hl (hs.graft hi.held hl)

/-- A refused request leaves a reachable document alone. Only a fragment that is refused its place
leaves new nodes at all, which no old node leads to. -/
theorem Reachable.leftAlone_of_refused {rewrites : Bool} (h : Reachable rewrites d) :
    (∀ (request : Request) (cause : TreeError) (d' : Document),
      (∀ item ∈ request.fragment?, item.IsReachable) →
      request.perform.on d = (.error cause, d') →
      LeftAlone d d' ∧ (request.fragment? = none → d' = d)) ∧
    (∀ (top : NodeId) (child item' : ContentItem) (cause : TreeError), child.IsReachable →
      (ContentItem.mk d top).appendInPlace child = (.error cause, item') →
      item'.top = top ∧ LeftAlone d item'.document) := by
  have hl := h.linked
  constructor
  · intro request cause d' hitem he
    cases hfragment : request.fragment? with
    | none =>
      obtain rfl := Request.checksFirst_perform hfragment d cause d' he
      exact ⟨(Kept.refl d').leftAlone hl hl, fun _ => rfl⟩
    | some item =>
      refine ⟨?_, fun hnone => absurd hnone (by simp)⟩
      cases request with
      | insertItem parent index other =>
        obtain rfl := Option.some.inj hfragment
        rw [Request.perform, InPlace.on_map, InPlace.on_insertItem] at he
        obtain ⟨houtcome, rfl⟩ := Prod.mk.inj he
        cases hplace : (d.placeItem parent index other).2 with
        | error e => exact hl.leftAlone_placeItem (hitem other rfl) hplace
        | ok id => rw [hplace] at houtcome; exact absurd houtcome nofun
      | _ => exact absurd hfragment nofun
  · intro top child item' cause hchild he
    rw [ContentItem.appendInPlace, InPlace.on_insertItem] at he
    obtain ⟨houtcome, rfl⟩ := Prod.mk.inj he
    exact ⟨rfl, hl.leftAlone_placeItem hchild houtcome⟩

/-- A second document element is refused its place, and so is a fragment below a text. Both have
been copied by then. -/
theorem Reachable.leftAlone_of_refused_fragment : ∃ d item : Document,
    Reachable false d ∧ Reachable false item ∧
    ((Request.insertItem .root 0 ⟨item, ⟨1⟩⟩).perform.on d).1 = .error .secondDocumentElement ∧
    ((ContentItem.mk d ⟨2⟩).appendInPlace ⟨item, ⟨1⟩⟩).1 = .error .notContainer ∧
    ((Request.insertItem .root 0 ⟨item, ⟨1⟩⟩).perform.on d).2.nodes.size = d.nodes.size + 1 ∧
    LeftAlone d ((Request.insertItem .root 0 ⟨item, ⟨1⟩⟩).perform.on d).2 ∧
    LeftAlone d ((ContentItem.mk d ⟨2⟩).appendInPlace ⟨item, ⟨1⟩⟩).2.document := by
  obtain ⟨fragment, hf⟩ : ∃ fragment : ContentItem,
      fragment = ⟨(Document.empty.create (.element (Element.named "svg"))).1, ⟨1⟩⟩ := ⟨_, rfl⟩
  have h1 : Reachable false _ := .createElement .empty (Element.named "svg")
  have h2 := @Reachable.appendChild false _ .root ⟨1⟩ h1 (by decide) (by decide)
  have h3 := h2.createText "a"
  have hitem : fragment.IsReachable := by
    rw [hf]
    exact ⟨⟨false, h1⟩, by decide⟩
  have hleft := Reachable.leftAlone_of_refused h3
  refine ⟨_, _, h3, h1, by rfl, by rfl, by rfl, ?_, ?_⟩
  · rw [← hf]
    refine (hleft.1 (.insertItem .root 0 fragment) .secondDocumentElement _ ?_
      (by rw [hf]; rfl)).1
    intro item hm
    obtain rfl := Option.some.inj hm
    exact hitem
  · rw [← hf]
    exact (hleft.2 ⟨2⟩ fragment _ .notContainer hitem (by rw [hf]; rfl)).2

end Document

end SvgPress
