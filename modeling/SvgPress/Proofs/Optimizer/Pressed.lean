import SvgPress.Proofs.Builtin.Normal
import SvgPress.Proofs.Builtin.Preset
import SvgPress.Proofs.Markup.Rereading
import SvgPress.Proofs.Markup.Sizes
import SvgPress.Proofs.Optimizer.Iterates

/-!
# Repeating the preset

Every pass but the first one reads what a pass has written: trees in normal form, with the texts
side by side joined. So a pass makes its text shorter, or leaves it as it is, unless path data
change without getting shorter; and the first pass does so too, if the text it reads spells
everything out.
-/

namespace SvgPress

open Document Builtin Markup

/-! ## What is read again -/

namespace Forest

variable {f : Forest NodeKind} {around : Bool}

theorem mem_preorder_reread {kind : NodeKind} (h : kind ∈ (f.reread around).preorder) :
    kind ∈ f.preorder := by
  induction f generalizing around with
  | nil => exact h
  | cons top below rest ihb ihr =>
    simp only [preorder, List.mem_cons, List.mem_append]
    rw [reread] at h
    split_ifs at h
    · simp only [preorder, List.mem_cons, List.mem_append] at h
      exact h.imp_right (Or.imp ihb ihr)
    · exact .inr (.inr (ihr h))

theorem IsNormal.joined (h : f.IsNormal) : f.joined.IsNormal := by
  intro kind hk e he
  refine h kind (mem_preorder_joined ?_ hk) e he
  cases kind with
  | text content => exact absurd he (by simp [NodeKind.element?])
  | _ => rfl

end Forest

/-- A document without declarations, as the preset leaves it, and its text in the default style. -/
structure Document.IsPressed (d : Document) (text : String) : Prop where
  sound : d.Sound
  declaration : d.declaration = none
  doctype : d.doctype = none
  one_element : (d.childElements .root).length = 1
  no_characters : ∀ child ∈ d.children .root, (d.kindOf child).isCharacterData = false
  write : Markup.write {} d = .ok text

namespace Document.IsPressed

variable {d d' : Document} {text text' : String}

theorem utf8ByteSize_eq (h : d.IsPressed text) : text.utf8ByteSize = d.payloads.size :=
  utf8ByteSize_of_write h.sound.linked h.sound.shaped h.one_element h.no_characters h.declaration
    h.doctype h.write

theorem isReadableTree (h : d.IsPressed text) (hr : d.payloads.IsReadable) :
    d.payloads.IsReadableTree :=
  isReadableTree_payloads h.sound.linked h.sound.shaped hr h.one_element h.no_characters

theorem hasReadableProlog (h : d.IsPressed text) : d.HasReadableProlog := by
  refine ⟨?_, ?_⟩
  · rw [h.declaration]
    exact fun _ hd => absurd hd (by simp)
  · rw [h.doctype]
    exact fun _ hd => absurd hd (by simp)

/-- What is read from the text of a document in normal form is in normal form, and takes no more
bytes than the text; if it takes as many, only texts have been joined. -/
theorem of_parse (h : d.IsPressed text) (hr : d.payloads.IsReadable) (hn : d.payloads.IsNormal)
    (hp : parse text = .ok d') :
    d'.payloads.IsReadable ∧ d'.payloads.IsNormal ∧ d'.payloads.size ≤ text.utf8ByteSize ∧
      (d'.payloads.size = text.utf8ByteSize → d'.payloads = d.payloads.joined) := by
  have htree := h.isReadableTree hr
  obtain ⟨hpayloads, -⟩ := payloads_of_parse_write h.sound.linked h.sound.shaped
    h.hasReadableProlog htree h.write hp
  have hsize : d.payloads.joined.size = text.utf8ByteSize := by
    rw [Forest.size_joined htree.fits, h.utf8ByteSize_eq]
  rw [hpayloads, ← hsize]
  exact ⟨fun kind hk => htree.joined.readable kind (Forest.mem_preorder_reread hk),
    fun kind hk => hn.joined kind (Forest.mem_preorder_reread hk), Forest.size_reread_le _ _,
    Forest.reread_eq_of_size htree.joined.readable htree.joined.fits⟩

theorem toList_eq (h : d.IsPressed text) :
    text.toList = textOf (({} : Style).wholeTokens .empty d.payloads) := by
  have hw := h.write
  rw [write_eq h.sound.linked h.sound.shaped (isSome_documentElement? h.one_element)
    h.no_characters] at hw
  obtain rfl := Except.ok.inj hw
  rw [written, String.toList_ofList, Style.documentTokens, Style.prologTokens, h.declaration,
    h.doctype]
  rfl

/-- Joining texts does not change what is written. -/
theorem text_eq (h : d.IsPressed text) (h' : d'.IsPressed text') (hr : d.payloads.IsReadable)
    (hj : d'.payloads = d.payloads.joined) : text' = text := by
  have htree := h.isReadableTree hr
  rw [← String.toList_inj, h'.toList_eq, h.toList_eq, hj]
  exact (textOf_wholeTokens_joined {} .empty htree.fits htree.no_characters).symm

end Document.IsPressed

/-! ## Passes -/

namespace Engine

/-- The engine that runs the preset. -/
def ofPreset (budget : Nat) : Engine :=
  ⟨⟨presetGroups⟩, {}, budget⟩

theorem ofConfig_preset (multipass : Bool) :
    ofConfig { multipass } registry = .ok (ofPreset (passBudget multipass)) :=
  rfl

variable {engine : Engine} {s t u : String} {i n budget : Nat} {multipass : Bool}

/-- A pass presses what it reads. -/
theorem exists_optimizeOnce {d : Document} (hs : parse s = .ok d) (budget : Nat) :
    ∃ (d' : Document) (text : String), ((ofPreset budget).pipeline.apply d).outcome = .ok d' ∧
      ((ofPreset budget).optimizeOnce s).outcome = .ok text ∧ d'.IsPressed text ∧
      d'.payloads = presetForest d.payloads := by
  have hsound := sound_of_parse hs
  obtain ⟨d', ha, hsound', hdeclaration, hdoctype, hpayloads⟩ := apply_presetGroups hsound
  obtain ⟨_, ha', htrimmed⟩ := trimmed_applyGroups trims_presetGroups hsound.linked
    hsound.shaped.one_element
  obtain rfl := Except.ok.inj (ha'.symm.trans ha)
  obtain ⟨hplain, text, hw⟩ := htrimmed.exists_write hs {}
  have ho : ((ofPreset budget).optimizeOnce s).outcome = (write {} _).mapError .serialize :=
    outcome_optimizeOnce hs ha
  rw [hw] at ho
  exact ⟨_, text, ha, ho, ⟨hsound', hdeclaration, hdoctype,
    by rw [htrimmed.elements, (tops_of_parse hs).1], hplain, hw⟩, hpayloads⟩

theorem exists_of_optimizeOnce (h : ((ofPreset budget).optimizeOnce s).outcome = .ok t) :
    ∃ d d' : Document, parse s = .ok d ∧ d'.IsPressed t ∧ d'.payloads = presetForest d.payloads := by
  cases hs : parse s with
  | error cause =>
    rw [optimizeOnce_of_parse_error hs] at h
    exact absurd h (by simp)
  | ok d =>
    obtain ⟨d', _, -, ho, hd'⟩ := exists_optimizeOnce hs budget
    obtain rfl := Except.ok.inj (ho.symm.trans h)
    exact ⟨d, d', rfl, hd'⟩

theorem exists_of_pass_succ (h : (engine.pass s (i + 1)).outcome = .ok t) :
    ∃ u, (engine.pass s i).outcome = .ok u ∧ (engine.optimizeOnce u).outcome = .ok t := by
  rw [pass] at h
  split at h
  · rename_i u hu
    exact ⟨u, hu, h⟩
  · exact absurd h (by simp [Report.error])

theorem exists_parse_of_pass_succ (h : ((ofPreset budget).pass s (i + 1)).outcome = .ok t) :
    ∃ d, parse s = .ok d := by
  induction i generalizing t with
  | zero =>
    obtain ⟨d, -, hs, -⟩ := exists_of_optimizeOnce h
    exact ⟨d, hs⟩
  | succ i ih =>
    obtain ⟨u, hu, -⟩ := exists_of_pass_succ h
    exact ih hu

/-- All texts after the first one are those of pressed documents in normal form, if the names that
are read first are names. -/
theorem exists_isPressed (hn : ∀ d, parse s = .ok d → d.payloads.IsNamed)
    (h : ((ofPreset budget).pass s (i + 1)).outcome = .ok t) :
    ∃ d : Document, d.IsPressed t ∧ d.payloads.IsReadable ∧ d.payloads.IsNormal := by
  induction i generalizing t with
  | zero =>
    obtain ⟨d, d', hs, hd', hpayloads⟩ := exists_of_optimizeOnce h
    have hreadable := (isReadableTree_of_parse hs (hn d hs)).readable
    exact ⟨d', hd', hpayloads ▸ isNormal_presetForest hreadable⟩
  | succ i ih =>
    obtain ⟨u, hu, ho⟩ := exists_of_pass_succ h
    obtain ⟨d₁, hd₁, hreadable, hnormal⟩ := ih hu
    obtain ⟨d, d', hs, hd', hpayloads⟩ := exists_of_optimizeOnce ho
    exact ⟨d', hd', hpayloads ▸ isNormal_presetForest (hd₁.of_parse hreadable hnormal hs).1⟩

/-! ## Sizes -/

/-- A pass writes no more bytes than what it reads would take, unless path data get larger. -/
theorem utf8ByteSize_optimizeOnce_le {d : Document} (hs : parse s = .ok d)
    (hpaths : ∀ x ∈ d.payloads.pathChanges, valueSize x.2 ≤ valueSize x.1)
    (h : ((ofPreset budget).optimizeOnce s).outcome = .ok t) :
    t.utf8ByteSize ≤ d.payloads.size := by
  obtain ⟨_, d', hs', hd', hpayloads⟩ := exists_of_optimizeOnce h
  obtain rfl := Except.ok.inj (hs.symm.trans hs')
  rw [hd'.utf8ByteSize_eq, hpayloads]
  exact size_presetForest_le hpaths

theorem utf8ByteSize_pass_le {d : Document} (hs : parse s = .ok d)
    (hn : 1 < n → d.payloads.IsNamed)
    (hpaths : ∀ i < n, ∀ text d, ((ofPreset budget).pass s i).outcome = .ok text →
      parse text = .ok d → ∀ x ∈ d.payloads.pathChanges, valueSize x.2 ≤ valueSize x.1)
    (hi : i < n) (h : ((ofPreset budget).pass s (i + 1)).outcome = .ok t) :
    t.utf8ByteSize ≤ d.payloads.size := by
  induction i generalizing t with
  | zero => exact utf8ByteSize_optimizeOnce_le hs (hpaths 0 hi s d rfl hs) h
  | succ i ih =>
    obtain ⟨u, hu, ho⟩ := exists_of_pass_succ h
    have hnames : ∀ d, parse s = .ok d → d.payloads.IsNamed := fun d' hd' =>
      Except.ok.inj (hs.symm.trans hd') ▸ hn (by omega)
    obtain ⟨d₁, hd₁, hreadable, hnormal⟩ := exists_isPressed hnames hu
    obtain ⟨d₂, -, hd₂, -⟩ := exists_of_optimizeOnce ho
    calc t.utf8ByteSize ≤ d₂.payloads.size :=
          utf8ByteSize_optimizeOnce_le hd₂ (hpaths (i + 1) hi u d₂ hu hd₂) ho
      _ ≤ u.utf8ByteSize := (hd₁.of_parse hreadable hnormal hd₂).2.2.1
      _ ≤ d.payloads.size := ih (Nat.lt_of_succ_lt hi) hu

/-- What the passes give. -/
theorem IsLast.outcome_eq (h : engine.IsLast s i)
    (ho : (engine.optimize s).outcome = .ok ⟨t, n⟩) :
    i = n ∧ (engine.pass s n).outcome = .ok t := by
  rw [h.optimize_eq] at ho
  cases hp : (engine.pass s i).outcome with
  | error cause =>
    rw [hp] at ho
    exact absurd ho (by simp [Except.map])
  | ok text =>
    rw [hp] at ho
    obtain ⟨rfl, rfl⟩ := Optimized.mk.inj (Except.ok.inj ho)
    exact ⟨rfl, hp⟩

/-- Optimizing with the default configuration gives no more bytes than what was read takes when it is
written as it is, if path data do not get larger in any pass, and the names that were read are names
where a second pass reads what the first one wrote. If no tag and no run of character data is shorter
than it would be written, these are no more bytes than the text had. -/
theorem utf8ByteSize_optimize_le (hc : ofConfig { multipass } registry = .ok engine)
    (ho : (engine.optimize s).outcome = .ok ⟨t, n⟩)
    (hn : multipass = true → ∀ d, parse s = .ok d → d.payloads.IsNamed)
    (hpaths : ∀ i < n, ∀ text d, (engine.pass s i).outcome = .ok text → parse text = .ok d →
      ∀ x ∈ d.payloads.pathChanges, valueSize x.2 ≤ valueSize x.1) :
    ∃ d, parse s = .ok d ∧ t.utf8ByteSize ≤ d.payloads.size ∧
      ((∀ token ∈ tokensOf s, token.isSpelledOut = true) → t.utf8ByteSize ≤ s.utf8ByteSize) := by
  obtain rfl := engine_of_preset hc
  obtain ⟨k, hk⟩ := exists_isLast (ofPreset (passBudget multipass)) s
  obtain ⟨rfl, ht⟩ := hk.outcome_eq ho
  obtain ⟨i, rfl⟩ : ∃ i, k = i + 1 := ⟨k - 1, (Nat.sub_add_cancel hk.1.1).symm⟩
  have hbudget := hk.le_budget
  obtain ⟨d, hs⟩ := exists_parse_of_pass_succ ht
  have hle : t.utf8ByteSize ≤ d.payloads.size := by
    refine utf8ByteSize_pass_le hs (fun h1 => hn ?_ d hs) hpaths (Nat.lt_succ_self i) ht
    cases multipass with
    | true => rfl
    | false => exact absurd (Nat.le_trans h1 hbudget) (by decide)
  exact ⟨d, hs, hle, fun hspelled => Nat.le_trans hle (size_le_of_parse hs hspelled)⟩

/-- The first pass takes a space from a path, and the second one leaves the path as it is. -/
theorem outcomes_of_path :
    ((ofPreset maxPasses).pass "<svg><path d=\"M 1 0\"/></svg>" 1).outcome =
        .ok "<svg><path d=\"M1 0\"/></svg>" ∧
      ((ofPreset maxPasses).optimize "<svg><path d=\"M 1 0\"/></svg>").outcome =
        .ok ⟨"<svg><path d=\"M1 0\"/></svg>", 2⟩ :=
  ⟨Outcome.eq_ok_of_toOption (by decide +kernel), Outcome.eq_ok_of_toOption (by decide +kernel)⟩

/-- A path with a space too many gets smaller. -/
theorem utf8ByteSize_optimize_le_of_path : ∃ engine,
    ofConfig { multipass := true } registry = .ok engine ∧
    (engine.optimize "<svg><path d=\"M 1 0\"/></svg>").outcome =
      .ok ⟨"<svg><path d=\"M1 0\"/></svg>", 2⟩ ∧
    "<svg><path d=\"M1 0\"/></svg>".utf8ByteSize ≤
      "<svg><path d=\"M 1 0\"/></svg>".utf8ByteSize := by
  obtain ⟨hfirst, ho⟩ := outcomes_of_path
  have hn : ∀ d, parse "<svg><path d=\"M 1 0\"/></svg>" = .ok d → d.payloads.IsNamed := fun d =>
    Outcome.of_all_toOption (p := fun d : Document => d.payloads.IsNamed) (by decide +kernel)
  have hpaths : ∀ i < 2, ∀ text d,
      ((ofPreset maxPasses).pass "<svg><path d=\"M 1 0\"/></svg>" i).outcome = .ok text →
      parse text = .ok d → ∀ x ∈ d.payloads.pathChanges, valueSize x.2 ≤ valueSize x.1 := by
    intro i hi text d hpass
    have hfits : ∀ text ∈ ["<svg><path d=\"M 1 0\"/></svg>", "<svg><path d=\"M1 0\"/></svg>"],
        (parse text).toOption.all (fun d =>
          decide (∀ x ∈ d.payloads.pathChanges, valueSize x.2 ≤ valueSize x.1)) = true := by
      decide +kernel
    refine Outcome.of_all_toOption (p := fun d : Document =>
      ∀ x ∈ d.payloads.pathChanges, valueSize x.2 ≤ valueSize x.1) (hfits text ?_)
    obtain rfl | rfl : i = 0 ∨ i = 1 := by omega
    · exact Except.ok.inj hpass ▸ List.mem_cons_self
    · exact Except.ok.inj (hfirst.symm.trans hpass) ▸ List.mem_cons_of_mem _ List.mem_cons_self
  obtain ⟨d, -, -, hspelled⟩ :=
    utf8ByteSize_optimize_le (ofConfig_preset true) ho (fun _ => hn) hpaths
  exact ⟨_, ofConfig_preset true, ho, hspelled (by decide +kernel)⟩

/-- What makes texts larger: characters that are written as references, numbers that are written
without an exponent, and names with quotes, which make the second pass read a tag in place of a
CDATA section. -/
theorem optimize_grows : ∃ once engine, ofConfig {} registry = .ok once ∧
    ofConfig { multipass := true } registry = .ok engine ∧
    (once.optimize "<svg a=\">\"/>").outcome = .ok ⟨"<svg a=\"&gt;\"/>", 1⟩ ∧
    (engine.optimize "<svg a=\">\"/>").outcome = .ok ⟨"<svg a=\"&gt;\"/>", 2⟩ ∧
    (once.optimize "<svg><path d=\"M1e9 0\"/></svg>").outcome =
      .ok ⟨"<svg><path d=\"M1000000000 0\"/></svg>", 1⟩ ∧
    (engine.optimize "<svg><a\" inkscape:x\"=\"1\"/><![CDATA[\"/>>>>>>>]]></svg>").outcome =
      .ok ⟨"<svg><a\"/><![CDATA[\"/>&gt;&gt;&gt;&gt;&gt;&gt;]]&gt;</svg>", 2⟩ := by
  refine ⟨_, _, ofConfig_preset false, ofConfig_preset true, ?_, ?_, ?_, ?_⟩ <;>
    exact Outcome.eq_ok_of_toOption (by decide +kernel)

/-! ## Texts that stay -/

/-- A pass that makes what the last one wrote no shorter leaves it as it is, unless path data change
without getting shorter. -/
theorem optimizeOnce_eq_self {d : Document} (hd : d.IsPressed u) (hreadable : d.payloads.IsReadable)
    (hnormal : d.payloads.IsNormal)
    (hpaths : ∀ d', parse u = .ok d' → ∀ x ∈ d'.payloads.pathChanges,
      x.2 = x.1 ∨ valueSize x.2 < valueSize x.1)
    (h : ((ofPreset budget).optimizeOnce u).outcome = .ok t)
    (hle : u.utf8ByteSize ≤ t.utf8ByteSize) : t = u := by
  obtain ⟨d₁, d₂, hu, hd₂, hpayloads⟩ := exists_of_optimizeOnce h
  obtain ⟨hreadable₁, hnormal₁, hsize, hjoined⟩ := hd.of_parse hreadable hnormal hu
  have hpressed : (presetForest d₁.payloads).size = t.utf8ByteSize := by
    rw [hd₂.utf8ByteSize_eq, hpayloads]
  have hsmaller : (presetForest d₁.payloads).size ≤ d₁.payloads.size :=
    size_presetForest_le fun x hx =>
      (hpaths d₁ hu x hx).elim (fun he => he ▸ Nat.le_refl _) Nat.le_of_lt
  have hsound := sound_of_parse hu
  have hsame : presetForest d₁.payloads = d₁.payloads :=
    presetForest_of_size hreadable₁ (hsound.shaped.fits_payloads hsound.linked) hnormal₁
      (hpaths d₁ hu) (by omega)
  exact hd.text_eq hd₂ hreadable (hpayloads.trans (hsame.trans (hjoined (by omega))))

/-- A text that a pass leaves as it is takes two passes. -/
theorem optimize_of_optimizeOnce_eq_self (hb : 2 ≤ engine.budget)
    (h : (engine.optimizeOnce t).outcome = .ok t) :
    (engine.optimize t).outcome = .ok ⟨t, 2⟩ := by
  have hfirst : (engine.pass t 1).outcome = .ok t := h
  have hsecond : (engine.pass t 2).outcome = .ok t := by
    rw [pass, hfirst]
    exact h
  have hlast : engine.IsLast t 2 := by
    refine ⟨⟨by omega, .inr (.inr ⟨Nat.le_refl 2, t, t, hfirst, hsecond, Nat.le_refl _⟩)⟩, ?_⟩
    rintro i ⟨h1, ⟨cause, hcause⟩ | hi | ⟨h2, -⟩⟩
    · refine Nat.le_of_not_lt fun hi => ?_
      obtain rfl : i = 1 := by omega
      rw [hfirst] at hcause
      exact absurd hcause (by simp)
    · omega
    · exact h2
  rw [hlast.optimize_eq, hsecond]
  rfl

/-- With repeated passes, the result of the default configuration is optimized to itself if the
names that were read are names, the passes did not end because there was no budget for more of them,
and the last one shortened all path data that it changed. -/
theorem optimize_optimize (hc : ofConfig { multipass := true } registry = .ok engine)
    (ho : (engine.optimize s).outcome = .ok ⟨t, n⟩)
    (hn : ∀ d, parse s = .ok d → d.payloads.IsNamed)
    (hlast : ∀ text, (engine.pass s (n - 1)).outcome = .ok text →
      text.utf8ByteSize ≤ t.utf8ByteSize)
    (hpaths : ∀ text d, (engine.pass s (n - 1)).outcome = .ok text → parse text = .ok d →
      ∀ x ∈ d.payloads.pathChanges, x.2 = x.1 ∨ valueSize x.2 < valueSize x.1) :
    (engine.optimize t).outcome = .ok ⟨t, 2⟩ := by
  obtain rfl := engine_of_preset hc
  obtain ⟨k, hk⟩ := exists_isLast (ofPreset maxPasses) s
  obtain ⟨rfl, ht⟩ := hk.outcome_eq ho
  obtain ⟨i, rfl⟩ : ∃ i, k = i + 2 := by
    refine ⟨k - 2, ?_⟩
    rcases hk.stops with ⟨cause, hcause⟩ | hbudget | ⟨h2, -⟩
    · rw [ht] at hcause
      exact absurd hcause (by simp)
    · have hten : max (ofPreset maxPasses).budget 1 = 10 := rfl
      omega
    · omega
  obtain ⟨u, hu, hpass⟩ := exists_of_pass_succ ht
  obtain ⟨d, hd, hreadable, hnormal⟩ := exists_isPressed hn hu
  obtain rfl := optimizeOnce_eq_self hd hreadable hnormal (fun d' => hpaths u d' hu) hpass
    (hlast u hu)
  exact optimize_of_optimizeOnce_eq_self (by decide) hpass

/-- What is left of a path with a space too many is optimized to itself. -/
theorem optimize_optimize_of_path : ∃ engine,
    ofConfig { multipass := true } registry = .ok engine ∧
    (engine.optimize "<svg><path d=\"M 1 0\"/></svg>").outcome =
      .ok ⟨"<svg><path d=\"M1 0\"/></svg>", 2⟩ ∧
    (engine.optimize "<svg><path d=\"M1 0\"/></svg>").outcome =
      .ok ⟨"<svg><path d=\"M1 0\"/></svg>", 2⟩ := by
  obtain ⟨hfirst, ho⟩ := outcomes_of_path
  refine ⟨_, ofConfig_preset true, ho, optimize_optimize (ofConfig_preset true) ho
    (fun d => ?_) (fun text h => ?_) fun text d h => ?_⟩
  · exact Outcome.of_all_toOption (p := fun d : Document => d.payloads.IsNamed) (by decide +kernel)
  · exact Except.ok.inj (hfirst.symm.trans h) ▸ Nat.le_refl _
  · obtain rfl := Except.ok.inj (hfirst.symm.trans h)
    exact Outcome.of_all_toOption (p := fun d : Document => ∀ x ∈ d.payloads.pathChanges,
      x.2 = x.1 ∨ valueSize x.2 < valueSize x.1) (by decide +kernel)

end Engine

end SvgPress
