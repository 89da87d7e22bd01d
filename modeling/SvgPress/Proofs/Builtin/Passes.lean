import SvgPress.Proofs.Builtin.Trimming
import SvgPress.Proofs.Markup.Parsed
import SvgPress.Proofs.Optimizer.Configured
import SvgPress.Proofs.Optimizer.Steps

/-!
# Passes with the plugins of the library

A pass whose plugins are those of the library fails only where the text is no document. What the
plugins leave of a document is in the old order and under the old names, below the same document
element.
-/

namespace SvgPress

open Document

variable {c : Config} {engine : Engine} {s : String} {d d' : Document}

/-- Engines with the plugins of the library only trim documents. -/
theorem Engine.trims_of_ofConfig (h : Engine.ofConfig c Builtin.registry = .ok engine) :
    ∀ group ∈ engine.pipeline.groups, ∀ stage ∈ group.stages, stage.rewriter.Trims := by
  obtain ⟨descriptors, p, hresolve, hp, rfl⟩ := Engine.ofConfig_eq_ok_iff.1 h
  intro group hg stage hs
  obtain ⟨x, hx, -, hprepare⟩ := Pipeline.exists_prepare_of_mem hp hg hs
  obtain ⟨rewriter, hrewriter, rfl⟩ := Descriptor.prepare_eq_ok_iff.1 hprepare
  have hplugin : x.plugin ∈ Builtin.plugins :=
    Registry.mem_of_mem_ofList (Config.plugin_mem_of_resolve hresolve hx)
  exact Builtin.trims_of_mem_plugins hplugin x.params rewriter hrewriter

theorem Document.Trimmed.documentElement?_eq (h : Trimmed d d') :
    d'.documentElement? = d.documentElement? := by
  rw [documentElement?, documentElement?, h.elements]

/-- What is left of a document that has been read can be written. -/
theorem Document.Trimmed.exists_write (h : Trimmed d d') (hs : Markup.parse s = .ok d)
    (style : Markup.Style) :
    (∀ child ∈ d'.children .root, (d'.kindOf child).isCharacterData = false) ∧
      ∃ text, Markup.write style d' = .ok text := by
  have hsound := Markup.sound_of_parse hs
  obtain ⟨hone, hplain⟩ := Markup.tops_of_parse hs
  have hplain' : ∀ child ∈ d'.children .root, (d'.kindOf child).isCharacterData = false := by
    intro child hm
    rw [isCharacterData_of_bare (h.bare child)]
    exact hplain child (h.tops hm)
  refine ⟨hplain', _, Markup.write_eq h.linked (h.shaped hsound.shaped) ?_ hplain' style⟩
  rw [h.documentElement?_eq]
  exact Markup.isSome_documentElement? hone

theorem Engine.outcome_optimizeOnce (hs : Markup.parse s = .ok d)
    (ha : (engine.pipeline.apply d).outcome = .ok d') :
    (engine.optimizeOnce s).outcome = (Markup.write engine.style d').mapError .serialize := by
  rw [Engine.optimizeOnce_of_parse_ok hs, outcome_bind, ha]
  rfl

/-- A pass with the plugins of the library fails exactly if the text is no document, and with the
error of the reader. If it is one, no group and no call of a plugin fails, the document element
stays the document element throughout, no character data comes to stand directly under the root, and
the document is written. -/
theorem Engine.optimizeOnce_fails_only_in_parse (c : Config) (engine : Engine) (s : String)
    (hc : Engine.ofConfig c Builtin.registry = .ok engine) :
    (∀ e, (engine.optimizeOnce s).outcome = .error e ↔ Markup.parse s = .error e) ∧
    ∀ d, Markup.parse s = .ok d → ∃ id d' text,
      d.documentElement? = some id ∧
      (∀ before group after, engine.pipeline.groups = before ++ group :: after → ∃ d₁ d₂,
        (applyGroups before d).outcome = .ok d₁ ∧ d₁.documentElement? = some id ∧
        (∀ call ∈ group.calls d₁, call.document.documentElement? = some id ∧
          ∃ d₃, call.after = .ok d₃ ∧ d₃.documentElement? = some id) ∧
        (group.apply d₁).outcome = .ok d₂ ∧ d₂.documentElement? = some id) ∧
      (engine.pipeline.apply d).outcome = .ok d' ∧ d'.documentElement? = some id ∧
      (∀ child ∈ d'.children .root, (d'.kindOf child).isCharacterData = false) ∧
      Markup.write engine.style d' = .ok text ∧ (engine.optimizeOnce s).outcome = .ok text := by
  have htrims := Engine.trims_of_ofConfig hc
  have hpass : ∀ d, Markup.parse s = .ok d → ∃ d' text,
      (engine.pipeline.apply d).outcome = .ok d' ∧ Trimmed d d' ∧
      (∀ child ∈ d'.children .root, (d'.kindOf child).isCharacterData = false) ∧
      Markup.write engine.style d' = .ok text ∧ (engine.optimizeOnce s).outcome = .ok text := by
    intro d hs
    have hsound := Markup.sound_of_parse hs
    obtain ⟨d', ha, htrimmed⟩ :=
      trimmed_applyGroups htrims hsound.linked hsound.shaped.one_element
    obtain ⟨hplain, text, hw⟩ := htrimmed.exists_write hs engine.style
    refine ⟨d', text, ha, htrimmed, hplain, hw, ?_⟩
    rw [Engine.outcome_optimizeOnce hs ha, hw]
    rfl
  refine ⟨fun e => ?_, fun d hs => ?_⟩
  · cases hs : Markup.parse s with
    | error cause =>
      rw [Engine.optimizeOnce_of_parse_error hs, Except.error.injEq, Except.error.injEq]
    | ok d =>
      obtain ⟨d', text, -, -, -, -, ho⟩ := hpass d hs
      rw [ho]
      simp
  · obtain ⟨d', text, ha, htrimmed, hplain, hw, ho⟩ := hpass d hs
    have hsound := Markup.sound_of_parse hs
    obtain ⟨id, hid⟩ := Option.isSome_iff_exists.1
      (Markup.isSome_documentElement? (Markup.tops_of_parse hs).1)
    have hkept : ∀ {d₁ : Document}, Trimmed d d₁ → d₁.documentElement? = some id :=
      fun h => h.documentElement?_eq.trans hid
    refine ⟨id, d', text, hid, fun before group after hgroups => ?_, ha, hkept htrimmed, hplain, hw,
      ho⟩
    rw [hgroups] at htrims
    obtain ⟨d₁, hbefore, hfirst⟩ := trimmed_applyGroups
      (fun g hg => htrims g (List.mem_append_left _ hg)) hsound.linked hsound.shaped.one_element
    obtain ⟨⟨d₂, happly, hsecond⟩, hcalls⟩ := Group.trimmed_apply
      (htrims group (List.mem_append_right _ List.mem_cons_self)) hfirst.linked
      (by rw [hfirst.elements]; exact hsound.shaped.one_element)
    refine ⟨d₁, d₂, hbefore, hkept hfirst, fun call hm => ?_, happly, hkept (hfirst.trans hsecond)⟩
    obtain ⟨hcall, d₃, hafter, hthird⟩ := hcalls call hm
    exact ⟨hkept (hfirst.trans hcall), d₃, hafter, hkept ((hfirst.trans hcall).trans hthird)⟩

/-- A drawing with a group is optimized by a configuration that collapses groups. -/
theorem Engine.optimizeOnce_fails_only_in_parse_of_group : ∃ engine d,
    Engine.ofConfig { full := true, plugins := [{ name := "collapseGroups" }] } Builtin.registry =
      .ok engine ∧
    Markup.parse "<svg><g><a/></g></svg>" = .ok d ∧
    ∃ d', (engine.pipeline.apply d).outcome = .ok d' ∧
      d'.documentElement? = d.documentElement? ∧
      (engine.optimizeOnce "<svg><g><a/></g></svg>").outcome = .ok "<svg><a/></svg>" := by
  obtain ⟨engine, d, hc, hs, hone⟩ : ∃ engine d, Engine.ofConfig
      { full := true, plugins := [{ name := "collapseGroups" }] } Builtin.registry = .ok engine ∧
      Markup.parse "<svg><g><a/></g></svg>" = .ok d ∧
      (engine.optimizeOnce "<svg><g><a/></g></svg>").outcome = .ok "<svg><a/></svg>" :=
    ⟨_, _, rfl, rfl, rfl⟩
  obtain ⟨id, d', text, hid, -, ha, hid', -⟩ :=
    (Engine.optimizeOnce_fails_only_in_parse _ engine "<svg><g><a/></g></svg>" hc).2 d hs
  exact ⟨engine, d, hc, hs, d', ha, hid'.trans hid.symm, hone⟩

/-! ## What is left -/

/-- Whatever plugins of the library a configuration runs, the nodes that a pipeline leaves below the
root are nodes from before, in the old order, and of two of them one stands above the other exactly
if it did before. Elements keep their names and all other nodes their payloads, and only groups go
without all that stands below them. -/
theorem Engine.apply_keeps_order (c : Config) (engine : Engine) (s : String) (d : Document)
    (hc : Engine.ofConfig c Builtin.registry = .ok engine) (hs : Markup.parse s = .ok d) :
    ∃ d', (engine.pipeline.apply d).outcome = .ok d' ∧ d'.nodes.size = d.nodes.size ∧
      (d.descendants .root).Nodup ∧ (d'.descendants .root).Sublist (d.descendants .root) ∧
      (∀ a x, a ∈ d'.descendants .root → x ∈ d'.descendants .root →
        (a ∈ d'.ancestors x ↔ a ∈ d.ancestors x)) ∧
      (∀ x ∈ d'.descendants .root, ∀ e, d.element? x = some e →
        ∃ e', d'.element? x = some e' ∧ e'.name = e.name) ∧
      (∀ x ∈ d'.descendants .root, d.isElement x = false → d'.kind? x = d.kind? x) ∧
      ∀ x ∈ d.descendants .root, x ∉ d'.descendants .root →
        (∃ y ∈ d'.descendants .root, x ∈ d.ancestors y) → d.isElementNamed x "g" = true := by
  have hsound := Markup.sound_of_parse hs
  have hl := hsound.linked
  obtain ⟨d', ha, htrimmed⟩ := trimmed_applyGroups (Engine.trims_of_ofConfig hc) hl
    hsound.shaped.one_element
  refine ⟨d', ha, htrimmed.size_eq, hl.nodup_descendants .root, htrimmed.order,
    fun a x ha hx => ?_, fun x _ e he => ?_, fun x _ he => ?_, fun x hx hx' => ?_⟩
  · rw [htrimmed.linked.mem_ancestors_iff, hl.mem_ancestors_iff]
    exact htrimmed.above a x ha hx
  · exact exists_element_of_bare (htrimmed.bare x) he
  · exact kind?_of_bare (htrimmed.bare x) he
  · rintro ⟨y, hy, hxy⟩
    exact htrimmed.gone x y hx hx' hy (hl.mem_ancestors_iff.1 hxy)

/-- A group makes way for its child, which keeps its place. -/
theorem Engine.apply_keeps_order_of_group : ∃ engine d,
    Engine.ofConfig { full := true, plugins := [{ name := "collapseGroups" }] } Builtin.registry =
      .ok engine ∧
    Markup.parse "<svg><g><a/></g></svg>" = .ok d ∧
    ∃ d', (engine.pipeline.apply d).outcome = .ok d' ∧
      d.descendants .root = [⟨1⟩, ⟨2⟩, ⟨3⟩] ∧ d'.descendants .root = [⟨1⟩, ⟨3⟩] ∧
      (d'.descendants .root).Sublist (d.descendants .root) := by
  obtain ⟨engine, d, d₁, hc, hs, ha₁, hnodes, hleft⟩ : ∃ engine d d', Engine.ofConfig
      { full := true, plugins := [{ name := "collapseGroups" }] } Builtin.registry = .ok engine ∧
      Markup.parse "<svg><g><a/></g></svg>" = .ok d ∧
      (engine.pipeline.apply d).outcome = .ok d' ∧
      d.descendants .root = [⟨1⟩, ⟨2⟩, ⟨3⟩] ∧ d'.descendants .root = [⟨1⟩, ⟨3⟩] :=
    ⟨_, _, _, rfl, rfl, rfl, rfl, rfl⟩
  obtain ⟨d', ha, -, -, horder, -⟩ :=
    Engine.apply_keeps_order _ engine "<svg><g><a/></g></svg>" d hc hs
  obtain rfl := Except.ok.inj (ha₁.symm.trans ha)
  exact ⟨engine, d, hc, hs, _, ha, hnodes, hleft, horder⟩

end SvgPress
