import SvgPress.Proofs.Walk.Rebuilding

/-!
# Batches of edits

Edits that share a walk see above a node what all of them have made of the payloads there, while in
walks of their own the earlier ones do not see the later ones. That makes no difference for an edit
that overlooks what the later ones change above it. Edits that look at nothing but the payload of
the node itself overlook everything, so plugins that make such edits may always share a walk.
-/

namespace SvgPress

open Document

namespace Edit

variable {edit f g : Edit} {edits gs : List Edit} {above above' A B : List NodeKind}
  {kind kind' a b : NodeKind} {α : Type}

/-- The edit does the same below one payload as below another one. -/
def Blind (f : Edit) (a b : NodeKind) : Prop :=
  ∀ before after kind, f (before ++ a :: after) kind = f (before ++ b :: after) kind

/-- The edit does not notice what another one makes of the payloads above a node. -/
def Overlooks (f g : Edit) : Prop :=
  ∀ above kind, f.Blind kind (g above kind).1

/-- The edit does not look at the payloads above a node. -/
def Local (edit : Edit) : Prop :=
  ∀ above above' kind, edit above kind = edit above' kind

/-- All that the edit looks at above a node is what a view shows of the payloads there. -/
def Sees (f : Edit) (view : NodeKind → α) : Prop :=
  ∀ A B kind, A.map view = B.map view → f A kind = f B kind

/-- The edit leaves what a view shows of a payload. -/
def Keeps (g : Edit) (view : NodeKind → α) : Prop :=
  ∀ above kind, view (g above kind).1 = view kind

theorem Local.overlooks (h : f.Local) (g : Edit) : f.Overlooks g :=
  fun _ _ _ _ _ => h _ _ _

theorem Local.sees (h : f.Local) (view : NodeKind → α) : f.Sees view :=
  fun _ _ _ _ => h _ _ _

/-- An edit overlooks what its view does not show. -/
theorem Sees.overlooks {view : NodeKind → α} (hf : f.Sees view) (hg : g.Keeps view) :
    f.Overlooks g := by
  intro above kind before after k
  refine hf _ _ k ?_
  rw [List.map_append, List.map_append, List.map_cons, List.map_cons, hg above kind]

theorem eq_of_blind (h : List.Forall₂ f.Blind A B) (kind : NodeKind) : f A kind = f B kind := by
  have hbehind : ∀ before, f (before ++ A) kind = f (before ++ B) kind := by
    induction h with
    | nil => exact fun before => rfl
    | @cons a b A B hab _ ih =>
      intro before
      rw [hab before A kind]
      simpa using ih (before ++ [b])
  exact hbehind []

theorem settle_cons (f : Edit) (gs : List Edit) (above : List NodeKind) (kind : NodeKind) :
    settle (f :: gs) above kind = (settle [f] above kind).bind (settle gs above) := by
  simp only [settle]
  split <;> rfl

theorem settle_of_local (h : ∀ edit ∈ edits, edit.Local) (above above' : List NodeKind)
    (kind : NodeKind) : settle edits above kind = settle edits above' kind := by
  induction edits generalizing kind with
  | nil => rfl
  | cons edit edits ih =>
    rw [settle, settle, h edit List.mem_cons_self above above']
    split
    · rfl
    · exact ih (fun e he => h e (List.mem_cons_of_mem _ he)) _

theorem blind_of_settle (h : ∀ g ∈ gs, f.Overlooks g) (hs : settle gs above kind = some kind') :
    f.Blind kind kind' := by
  induction gs generalizing kind with
  | nil =>
    obtain rfl := Option.some.inj hs
    exact fun _ _ _ => rfl
  | cons g gs ih =>
    have hfirst := h g List.mem_cons_self above kind
    rw [settle] at hs
    split at hs
    · exact absurd hs (by simp)
    · rename_i kind₁ hg
      rw [hg] at hfirst
      have hlater := ih (fun g hm => h g (List.mem_cons_of_mem _ hm)) hs
      exact fun before after k => (hfirst before after k).trans (hlater before after k)

end Edit

theorem Stage.Follows.ctorIdx_settle {P : Document → Prop} {stage : Stage} {edit : Edit}
    {above : List NodeKind} {kind kind' : NodeKind} (h : stage.Follows P edit)
    (hs : Edit.settle [edit] above kind = some kind') : kind'.ctorIdx = kind.ctorIdx := by
  have halike := h.alike above kind
  simp only [Edit.settle] at hs
  split at hs
  · exact absurd hs (by simp)
  · rename_i he
    rw [he] at halike
    exact Option.some.inj hs ▸ halike

theorem NodeKind.isSome_element?_congr {kind kind' : NodeKind} (h : kind'.ctorIdx = kind.ctorIdx) :
    kind'.element?.isSome = kind.element?.isSome := by
  have hctor : ∀ k : NodeKind, k.element?.isSome = (k.ctorIdx == 1) := fun k => by cases k <;> rfl
  rw [hctor, hctor, h]

/-! ## Forests -/

namespace Forest

variable {F : Forest NodeKind} {f : Edit} {gs : List Edit} {A B : List NodeKind}
  {s : List NodeKind → NodeKind → Option NodeKind} {kind' : NodeKind}

/-- An edit may be settled before others if it overlooks what they do. -/
theorem settle_settle (h : ∀ g ∈ gs, f.Overlooks g) (hb : List.Forall₂ f.Blind A B) :
    (F.settle (Edit.settle [f]) A).settle (Edit.settle gs) B =
      F.settle (Edit.settle (f :: gs)) B := by
  -- Above a node, the first walk sees what the batch sees before the later edits. Going down, both
  -- lists grow by payloads that differ by what those edits do, to which `f` is blind.
  induction F generalizing A B with
  | nil => rfl
  | cons kind below rest ihb ihr =>
    have hfirst : Edit.settle [f] A kind = Edit.settle [f] B kind := by
      simp only [Edit.settle, Edit.eq_of_blind hb]
    rw [settle, settle, Edit.settle_cons f gs B kind, hfirst]
    cases Edit.settle [f] B kind with
    | none => exact ihr hb
    | some kind₁ =>
      simp only [settle, Option.bind_some]
      cases hs : Edit.settle gs B kind₁ with
      | none => exact ihr hb
      | some kind₂ =>
        rw [ihr hb]
        exact congrArg (cons kind₂ · _) (ihb (.cons (Edit.blind_of_settle h hs) hb))

theorem settle_of_local (h : ∀ above above' kind, s above kind = s above' kind)
    (A B : List NodeKind) : F.settle s A = F.settle s B := by
  induction F generalizing A B with
  | nil => rfl
  | cons kind below rest ihb ihr =>
    rw [settle, settle, h A B]
    split
    · exact ihr A B
    · rw [ihr A B, ihb _ (_ :: B)]

theorem settle_nil (F : Forest NodeKind) (A : List NodeKind) : F.settle (Edit.settle []) A = F := by
  induction F generalizing A with
  | nil => rfl
  | cons kind below rest ihb ihr =>
    rw [settle, ihr]
    exact congrArg (cons kind · rest) (ihb _)

theorem mem_tops_settle (h : kind' ∈ (F.settle s A).tops) :
    ∃ kind ∈ F.tops, s A kind = some kind' := by
  induction F with
  | nil => exact absurd h List.not_mem_nil
  | cons kind below rest _ ihr =>
    rw [settle] at h
    split at h
    · obtain ⟨k, hk, hs⟩ := ihr h
      exact ⟨k, List.mem_cons_of_mem _ hk, hs⟩
    · rename_i kind₁ hs
      rcases List.mem_cons.1 h with rfl | h
      · exact ⟨kind, List.mem_cons_self, hs⟩
      · obtain ⟨k, hk, hs⟩ := ihr h
        exact ⟨k, List.mem_cons_of_mem _ hk, hs⟩

end Forest

/-! ## Walks with children first -/

/-- What local edits leave of a tree whose lower parts they have gone through. -/
def Edit.turn (edits : List Edit) (_ : Bool) (kind : NodeKind) (below : Forest NodeKind) :
    Forest NodeKind :=
  match Edit.settle edits [] kind with
  | none => .nil
  | some kind' => .cons kind' below .nil

variable {P : Document → Prop} {stages : List Stage} {edits : List Edit} {d : Document}
  {t : Traversal}

theorem Forest.rebuild_turn (h : ∀ edit ∈ edits, edit.Local) (F : Forest NodeKind) (top : Bool) :
    F.rebuild (Edit.turn edits) top = F.settle (Edit.settle edits) [] := by
  induction F generalizing top with
  | nil => rfl
  | cons kind below rest ihb ihr =>
    rw [rebuild, settle, Edit.turn, ihb, ihr]
    cases Edit.settle edits [] kind with
    | none => rfl
    | some kind' =>
      simp only [cons_append, nil_append]
      rw [settle_of_local (Edit.settle_of_local h) [kind'] []]

theorem turns_of_local (hP : Steady P) (hs : List.Forall₂ (Stage.Follows P) stages edits)
    (h : ∀ edit ∈ edits, edit.Local) : Turns P stages (Edit.turn edits) (Edit.Drops edits []) := by
  intro d parent top below hd hf
  have hp : d.parent? top = some parent := hf.parents top List.mem_cons_self
  have hk : d.kind? top = some (d.kindOf top) := kind?_eq_some_kindOf (holds_of_parent? hp)
  have hvisited := visitNode_follows hP hs hd hp hk 0
  rw [Edit.settle_of_local h (d.kindsAbove top) []] at hvisited
  rw [Edit.turn]
  rcases hvisited with ⟨kind', hsettle, hctor, hv⟩ | ⟨hsettle, ⟨c, hc, hremoves⟩, kind', hctor, hv⟩
  · rw [hsettle, hv]
    refine .inl ⟨_, .cons top below .nil, rfl, hP.setKind hd (eq_ctorIdx hk hctor),
      .setKind hf List.mem_cons_self kind', ?_, fun _ x hx _ hdrops => ?_⟩
    · rw [Forest.map, map_kindOf_setKind hf.apart.1, kindOf_setKind_self hk]
      rfl
    · rw [List.mem_singleton.1 hx, Edit.Drops, hsettle] at hdrops
      exact absurd hdrops (by simp)
  · rw [hsettle]
    by_cases hroot : parent = .root ∧ d.isElement top = true
    · have hnode : c.node = top := node_of_mem_visitCalls hc
      exact .inr ⟨hroot.1, c, hc, hremoves, hnode ▸ List.mem_cons_self, hnode ▸ hroot.2,
        hnode ▸ hsettle⟩
    · rw [hv.resolve_left hroot]
      refine .inl ⟨_, .nil, rfl, hP.detach (hP.setKind hd (eq_ctorIdx hk hctor)),
        (Replaced.setKind hf List.mem_cons_self kind').trans (.detach (hf.setKind top kind')), rfl,
        fun hp' x hx he => ?_⟩
      rw [List.mem_singleton.1 hx] at he
      exact absurd ⟨hp', he⟩ hroot

/-! ## Groups -/

theorem steady_linked : Steady Document.Linked where
  linked h := h
  setKind h _ := h.setKind _ _
  detach h := h.detach _

/-- All that a stage reads or writes is the payload of the node that it visits, which stays what it
is: an element an element, a text a text. It never fails. -/
def Stage.Local (stage : Stage) : Prop :=
  ∃ f : NodeKind → NodeKind × Visit, (∀ kind, (f kind).1.ctorIdx = kind.ctorIdx) ∧
    ∀ d id kind, d.Linked → d.kind? id = some kind →
      (stage.rewriter.visit d id).outcome = .ok (d.setKind id (f kind).1, (f kind).2)

theorem Stage.Local.shrinks {stage : Stage} (h : stage.Local) : stage.Shrinks := by
  obtain ⟨f, -, hvisit⟩ := h
  intro d id d' decision hl hid ho
  rw [hvisit d id _ hl (kind?_eq_some_kindOf hid)] at ho
  obtain ⟨rfl, -⟩ := Prod.mk.inj (Except.ok.inj ho)
  exact .single (.edit id _)

theorem exists_local_edits (h : ∀ stage ∈ stages, stage.Local) :
    ∃ edits, List.Forall₂ (Stage.Follows Document.Linked) stages edits ∧
      ∀ edit ∈ edits, Edit.Local edit := by
  induction stages with
  | nil => exact ⟨[], .nil, fun edit hm => absurd hm List.not_mem_nil⟩
  | cons stage stages ih =>
    obtain ⟨edits, hs, hlocal⟩ := ih fun s hm => h s (List.mem_cons_of_mem _ hm)
    obtain ⟨f, halike, hvisit⟩ := h stage List.mem_cons_self
    refine ⟨(fun _ => f) :: edits, .cons ⟨fun d id kind hl _ hk => hvisit d id kind hl hk,
      fun _ => halike⟩ hs, List.forall_mem_cons.2 ⟨fun _ _ _ => rfl, hlocal⟩⟩

/-- A group of local edits settles the payloads in both directions, or is asked for the removal of
an element directly under the root. -/
theorem Group.settles_apply (ht : t ≠ .full)
    (hs : List.Forall₂ (Stage.Follows Document.Linked) stages edits)
    (hlocal : ∀ edit ∈ edits, Edit.Local edit) (hshrinks : ∀ stage ∈ stages, stage.Shrinks)
    (hl : d.Linked) :
    (∃ d', ((⟨t, stages⟩ : Group).apply d).outcome = .ok d' ∧ d'.Linked ∧
      d'.gist = { d.gist with payloads := d.payloads.settle (Edit.settle edits) [] } ∧
      ∀ kind ∈ d.payloads.topElements, ¬ Edit.Drops edits [] kind) ∨
    (∃ c ∈ (⟨t, stages⟩ : Group).calls d, c.removes = true ∧ c.node ∈ d.childElements .root) ∧
      ∃ kind ∈ d.payloads.topElements, Edit.Drops edits [] kind := by
  have hanywhere := Edit.settle_of_local hlocal
  cases t with
  | full => exact absurd rfl ht
  | perItem =>
    have hwalk := walk_settles steady_linked hs hshrinks hl
    rw [Forest.settle_of_local hanywhere _ []] at hwalk
    simp only [Edit.Drops, hanywhere [d.kindOf .root] []] at hwalk
    rcases hwalk with ⟨d', ho, hl', -, h⟩ | h
    · exact .inl ⟨d', ho, hl', h⟩
    · exact .inr h
  | perItemReverse =>
    have hwalk := walk_rebuilds (turns_of_local steady_linked hs hlocal) hshrinks hl hl
    rw [Forest.rebuild_turn hlocal] at hwalk
    rcases hwalk with ⟨d', ho, hl', -, h⟩ | h
    · exact .inl ⟨d', ho, hl', h⟩
    · exact .inr h

/-- In walks of their own, local edits settle the payloads one after the other. -/
theorem settles_applyGroups (ht : t ≠ .full)
    (hs : List.Forall₂ (Stage.Follows Document.Linked) stages edits)
    (hlocal : ∀ edit ∈ edits, Edit.Local edit) (hshrinks : ∀ stage ∈ stages, stage.Shrinks)
    (hl : d.Linked) (htops : ∀ kind ∈ d.payloads.topElements, ¬ Edit.Drops edits [] kind) :
    ∃ d', (applyGroups (stages.map fun stage => ⟨t, [stage]⟩) d).outcome = .ok d' ∧ d'.Linked ∧
      d'.gist = { d.gist with payloads := d.payloads.settle (Edit.settle edits) [] } := by
  induction hs generalizing d with
  | nil => exact ⟨d, rfl, hl, by rw [Forest.settle_nil]; rfl⟩
  | @cons stage edit stages edits hstage _ ih =>
    rcases Group.settles_apply ht (.cons hstage .nil)
      (List.forall_mem_singleton.2 (hlocal edit List.mem_cons_self))
      (List.forall_mem_singleton.2 (hshrinks stage List.mem_cons_self)) hl with
      ⟨d₁, ho₁, hl₁, hgist₁, -⟩ | ⟨-, kind, hkind, hdrops⟩
    · have hpayloads : d₁.payloads = d.payloads.settle (Edit.settle [edit]) [] :=
        congrArg Gist.payloads hgist₁
      have htops₁ : ∀ kind ∈ d₁.payloads.topElements, ¬ Edit.Drops edits [] kind := by
        intro kind' hkind' hdrops
        rw [hpayloads] at hkind'
        obtain ⟨hkind', helement⟩ := List.mem_filter.1 hkind'
        obtain ⟨kind, hkind, hsettle⟩ := Forest.mem_tops_settle hkind'
        -- What a later walk drops there, the shared walk would have dropped.
        refine htops kind (List.mem_filter.2 ⟨hkind, ?_⟩) ?_
        · rwa [← NodeKind.isSome_element?_congr (hstage.ctorIdx_settle hsettle)]
        · rw [Edit.Drops, Edit.settle_cons, hsettle]
          exact hdrops
      obtain ⟨d₂, ho₂, hl₂, hgist₂⟩ := ih (fun e hm => hlocal e (List.mem_cons_of_mem _ hm))
        (fun s hm => hshrinks s (List.mem_cons_of_mem _ hm)) hl₁ htops₁
      refine ⟨d₂, ?_, hl₂, ?_⟩
      · rw [List.map_cons, applyGroups, outcome_bind, ho₁]
        exact ho₂
      · rw [hgist₂, hgist₁, hpayloads, Forest.settle_settle
          (fun g _ => (hlocal edit List.mem_cons_self).overlooks g) .nil]
    · refine absurd ?_ (htops kind hkind)
      rw [Edit.Drops] at hdrops ⊢
      rw [Edit.settle_cons, hdrops]
      rfl

/-- Plugins that look at nothing but the payload of the node they visit may always share a walk, in
either direction: if none of them asks there for the removal of an element directly under the root,
the walk makes the same document as a walk for each of them, one after the other. -/
theorem Group.apply_local_eq_separate (t : Traversal) (stages : List Stage) (d : Document)
    (ht : t ≠ .full) (hl : d.Linked) (hs : ∀ stage ∈ stages, stage.Local)
    (hspared : ∀ c ∈ (⟨t, stages⟩ : Group).calls d, c.removes = true →
      c.node ∉ d.childElements .root) :
    ∃ d₁ d₂, ((⟨t, stages⟩ : Group).apply d).outcome = .ok d₁ ∧
      (applyGroups (stages.map fun stage => ⟨t, [stage]⟩) d).outcome = .ok d₂ ∧
      (d₁ == d₂) = true := by
  obtain ⟨edits, hedits, hlocal⟩ := exists_local_edits hs
  have hshrinks : ∀ stage ∈ stages, stage.Shrinks := fun stage hm => (hs stage hm).shrinks
  rcases Group.settles_apply ht hedits hlocal hshrinks hl with
    ⟨d₁, ho₁, hl₁, hgist₁, htops⟩ | ⟨⟨c, hc, hremoves, hnode⟩, -⟩
  · obtain ⟨d₂, ho₂, hl₂, hgist₂⟩ := settles_applyGroups ht hedits hlocal hshrinks hl htops
    exact ⟨d₁, d₂, ho₁, ho₂, hl₁.beq_of_gist hl₂ (hgist₁.trans hgist₂.symm)⟩
  · exact absurd hnode (hspared c hc hremoves)

/-- What `Stage.tidying` makes of a payload, and its decision about the node. -/
def Stage.tidyPayload : NodeKind → NodeKind × Visit
  | .text content =>
    (.text (Text.trimSpace content), if Text.allBlank content then .remove else .keep)
  | kind => (kind, .keep)

theorem Stage.tidying_local : Stage.tidying.Local := by
  refine ⟨tidyPayload, fun kind => by cases kind <;> rfl, fun d id kind _ hk => ?_⟩
  have hkind : d.kindOf id = kind := by rw [kindOf, hk, Option.getD_some]
  simp only [Stage.tidying, hkind]
  cases kind <;> rfl

/-- The blank text of a title goes when two plugins share the walk. -/
theorem Group.apply_local_eq_separate_of_tidying : ∃ d d₁ d₂ : Document,
    Markup.parse "<svg><title> </title></svg>" = .ok d ∧
    (∀ stage ∈ [Stage.tidying, Stage.tidying], stage.Local) ∧
    (∀ c ∈ (⟨.perItemReverse, [.tidying, .tidying]⟩ : Group).calls d, c.removes = true →
      c.node ∉ d.childElements .root) ∧
    ((⟨.perItemReverse, [.tidying, .tidying]⟩ : Group).apply d).outcome = .ok d₁ ∧
    (applyGroups [⟨.perItemReverse, [.tidying]⟩, ⟨.perItemReverse, [.tidying]⟩] d).outcome =
      .ok d₂ ∧ (d₁ == d₂) = true ∧ d₁.descendants .root = [⟨1⟩, ⟨2⟩] := by
  let drawing : Document := ⟨none, none, #[⟨.root, none, [⟨1⟩]⟩,
    ⟨.element (Element.named "svg"), some .root, [⟨2⟩]⟩,
    ⟨.element (Element.named "title"), some ⟨1⟩, [⟨3⟩]⟩, ⟨.text " ", some ⟨2⟩, []⟩]⟩
  have hparse : Markup.parse "<svg><title> </title></svg>" = .ok drawing := rfl
  have hs : ∀ stage ∈ [Stage.tidying, Stage.tidying], stage.Local := by
    simp [Stage.tidying_local]
  have hspared : ∀ c ∈ (⟨.perItemReverse, [.tidying, .tidying]⟩ : Group).calls drawing,
      c.removes = true → c.node ∉ drawing.childElements .root := by
    decide +kernel
  obtain ⟨d₁, d₂, ho₁, ho₂, he⟩ := Group.apply_local_eq_separate .perItemReverse
    [.tidying, .tidying] drawing (by decide) (Markup.sound_of_parse hparse).linked hs hspared
  have hleft : d₁.descendants .root = [⟨1⟩, ⟨2⟩] :=
    Outcome.of_all_toOption (p := fun d : Document => d.descendants .root = [⟨1⟩, ⟨2⟩])
      (by decide +kernel) ho₁
  exact ⟨drawing, d₁, d₂, hparse, hs, hspared, ho₁, ho₂, he, hleft⟩

end SvgPress
