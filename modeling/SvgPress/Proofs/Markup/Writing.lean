import SvgPress.Proofs.Markup.Sequence

/-!
# What is written

A document is written as the tokens of its declarations and of the payloads of its tree. The tokens
follow the payloads by recursion, without the list of pending pieces that the writer keeps.
-/

namespace SvgPress.Markup

/-- Whether the trees below an element stand on lines of their own. -/
def Style.breaksBelow (style : Style) (preserving : Bool) (below : Forest NodeKind) : Bool :=
  style.pretty && !preserving && !below.tops.any (·.isCharacterData)

/-- The line break before a level of nesting, where there is one. -/
def Style.breakTokens (style : Style) (breaks : Bool) (depth : Nat) : List Token :=
  if breaks then [.text (style.lineBreak depth)] else []

/-- The tokens of a node; `inside` is what stands between the tags of an element that has
children. -/
def Style.nodeTokens (style : Style) (kind : NodeKind) (childless : Bool) (inside : List Token) :
    List Token :=
  match kind with
  | .root => []
  | .element e =>
    if childless then
      if style.selfClose then [.empty (style.tag e)]
      else [.start (style.tag e), .close e.name.full]
    else .start (style.tag e) :: (inside ++ [.close e.name.full])
  | .text content => [.text (escapeText content)]
  | .cdata content => [.cdata content]
  | .comment content => [.comment content]
  | .instruction target content => [.instruction (instructionText target content)]

/-- The tokens of trees side by side, with line breaks before each of them if it `breaks`. -/
def Style.tokens (style : Style) :
    (depth : Nat) → (preserving breaks : Bool) → Forest NodeKind → List Token
  | _, _, _, .nil => []
  | depth, preserving, breaks, .cons kind below rest =>
    let scope := kind.preservesBelow preserving
    let apart := style.breaksBelow scope below
    style.breakTokens breaks depth ++
      style.nodeTokens kind below.tops.isEmpty
        (tokens style (depth + 1) scope apart below ++ style.breakTokens apart depth) ++
      tokens style depth preserving breaks rest

/-- The tokens of the trees below the root. -/
def Style.topTokens (style : Style) : Forest NodeKind → List Token
  | .nil => []
  | .cons kind below rest =>
    style.tokens 0 false false (.cons kind below .nil) ++ style.tokens 0 false style.pretty rest

/-- The tokens of an XML declaration, if there is one. -/
def Style.declarationTokens (style : Style) : Option XmlDeclaration → List Token
  | some declaration => .declaration (declarationTag declaration) :: style.breakTokens style.pretty 0
  | none => []

/-- The tokens of a document type declaration, if there is one. -/
def Style.doctypeTokens (style : Style) : Option String → List Token
  | some doctype => .doctype doctype :: style.breakTokens style.pretty 0
  | none => []

/-- The tokens of what precedes the tree. -/
def Style.prologTokens (style : Style) (d : Document) : List Token :=
  style.declarationTokens d.declaration ++ style.doctypeTokens d.doctype

/-- The tokens of a document. -/
def Style.documentTokens (style : Style) (d : Document) : List Token :=
  style.prologTokens d ++ style.topTokens d.payloads ++
    if style.finalNewline then [.text "\n"] else []

/-- The tokens of a document that says the given trees. -/
def Style.wholeTokens (style : Style) (d : Document) (f : Forest NodeKind) : List Token :=
  style.prologTokens d ++ style.topTokens f ++ if style.finalNewline then [.text "\n"] else []

/-- Tokens as a string. -/
def written (ts : List Token) : String :=
  String.ofList (textOf ts)

@[simp] theorem written_nil : written [] = "" := rfl

theorem written_append (ts ts' : List Token) : written (ts ++ ts') = written ts ++ written ts' := by
  rw [written, textOf_append, String.ofList_append]
  rfl

/-- Tokens are written one after the other. -/
theorem written_cons (t : Token) (ts : List Token) : written (t :: ts) = written [t] ++ written ts :=
  written_append [t] ts

/-! ## Pieces of output -/

section

variable (style : Style)

theorem written_breakTokens (breaks : Bool) (depth : Nat) :
    written (style.breakTokens breaks depth) = if breaks then style.lineBreak depth else "" := by
  unfold Style.breakTokens
  split_ifs
  · simp [written, Token.written]
  · rfl

theorem written_pretty (depth : Nat) :
    written (style.breakTokens style.pretty depth) = style.lineBreak depth := by
  rw [written_breakTokens]
  split_ifs with h
  · rfl
  · simp [Style.lineBreak, h]

/-- A tag begins with its name, and the attributes follow. -/
theorem toList_openTag (e : Element) :
    (style.openTag e).toList = '<' :: ((style.tag e).name.toList ++ (style.tag e).rest) := by
  rw [Style.openTag, toList_foldl_append, Style.tag]
  simp

theorem written_start (e : Element) :
    written [.start (style.tag e)] = style.openTag e ++ ">" := by
  apply String.toList_injective
  simp [written, Token.written, toList_openTag]

theorem written_close (name : String) : written [.close name] = "</" ++ name ++ ">" := by
  apply String.toList_injective
  simp [written, Token.written]

theorem written_cdata (content : String) :
    written [.cdata content] = "<![CDATA[" ++ content ++ "]]>" := by
  apply String.toList_injective
  simp [written, Token.written]

theorem written_comment (content : String) :
    written [.comment content] = "<!--" ++ content ++ "-->" := by
  apply String.toList_injective
  simp [written, Token.written]

/-- Without children, an element is closed as the style says. -/
theorem written_childless (e : Element) (inside : List Token) :
    written (style.nodeTokens (.element e) true inside) = style.childless e := by
  apply String.toList_injective
  simp only [Style.nodeTokens, if_true, Style.childless]
  split_ifs
  · simp [written, Token.written, toList_openTag]
  · simp [written, Token.written, toList_openTag, Style.tag]

theorem written_instruction (target : String) (content : Option String) :
    written [.instruction (instructionText target content)] = writeInstruction target content := by
  apply String.toList_injective
  cases content <;> simp [written, Token.written, instructionText, writeInstruction]

end

/-! ## The writer -/

open Document

/-- What the writer owes for nodes side by side. -/
def owed (depth : Nat) (preserving breaks : Bool) (ids : List NodeId) : List Pending :=
  ids.flatMap fun id =>
    if breaks then [.lineBreak depth, .node id depth preserving] else [.node id depth preserving]

/-- What is owed for children is owed for each of them in turn. -/
theorem owed_cons (depth : Nat) (preserving breaks : Bool) (id : NodeId) (ids : List NodeId) :
    owed depth preserving breaks (id :: ids) =
      (if breaks then [.lineBreak depth] else []) ++
        .node id depth preserving :: owed depth preserving breaks ids := by
  rw [owed, List.flatMap_cons, ← owed]
  cases breaks <;> rfl

variable {style : Style} {d : Document}

/-- Pending pieces that are written as the given tokens, with at most `cost` steps of the writer. -/
def Writes (style : Style) (d : Document) (pieces : List Pending) (cost : Nat) (ts : List Token) :
    Prop :=
  ∀ bound spare pending before, cost + spare ≤ bound → ∃ bound', spare ≤ bound' ∧
    writePending style d bound (pieces ++ pending) before =
      writePending style d bound' pending (before ++ written ts)

namespace Writes

variable {pieces pieces' : List Pending} {cost cost' : Nat} {ts ts' : List Token}

theorem nil : Writes style d [] 0 [] := by
  intro bound spare pending before hb
  exact ⟨bound, by omega, by simp⟩

/-- Costs add up over pieces that are written one after the other. -/
theorem append (h : Writes style d pieces cost ts) (h' : Writes style d pieces' cost' ts') :
    Writes style d (pieces ++ pieces') (cost + cost') (ts ++ ts') := by
  intro bound spare pending before hb
  obtain ⟨bound₁, hb₁, he₁⟩ := h bound (cost' + spare) (pieces' ++ pending) before (by omega)
  obtain ⟨bound₂, hb₂, he₂⟩ := h' bound₁ spare pending (before ++ written ts) hb₁
  refine ⟨bound₂, hb₂, ?_⟩
  rw [List.append_assoc, he₁, he₂, written_append, String.append_assoc]

theorem single {piece : Pending} (h : ∀ bound pending before,
    writePending style d (bound + 1) (piece :: pending) before =
      writePending style d bound pending (before ++ written ts)) :
    Writes style d [piece] 1 ts := by
  intro bound spare pending before hb
  obtain ⟨bound, rfl⟩ : ∃ n, bound = n + 1 := ⟨bound - 1, by omega⟩
  exact ⟨bound, by omega, h bound pending before⟩

theorem mono (h : Writes style d pieces cost ts) (hc : cost ≤ cost') :
    Writes style d pieces cost' ts :=
  fun bound spare pending before hb => h bound spare pending before (by omega)

/-- With a bound that suffices, everything is written. -/
theorem writePending_eq (h : Writes style d pieces cost ts) {bound : Nat} (hb : cost ≤ bound)
    (before : String) : writePending style d bound pieces before = .ok (before ++ written ts) := by
  obtain ⟨bound', -, he⟩ := h bound 0 [] before hb
  rw [List.append_nil] at he
  rw [he]
  cases bound' <;> rfl

end Writes

theorem writes_break (breaks : Bool) (depth : Nat) :
    Writes style d (if breaks then [.lineBreak depth] else []) 1 (style.breakTokens breaks depth) := by
  cases breaks with
  | false => exact Writes.nil.mono (Nat.zero_le 1)
  | true =>
    refine .single fun bound pending before => ?_
    rw [writePending, written_breakTokens, if_pos rfl]

theorem writes_endTag (name : String) : Writes style d [.endTag name] 1 [.close name] :=
  .single fun bound pending before => by
    rw [writePending, written_close, String.append_assoc, String.append_assoc, String.append_assoc]

theorem any_kind? (id : NodeId) :
    (d.kind? id).any (·.isCharacterData) = (d.kindOf id).isCharacterData := by
  rw [kindOf]
  cases d.kind? id <;> rfl

theorem breaksLines_eq {id : NodeId} {below : Forest NodeId} (hc : d.children id = below.tops)
    (preserving : Bool) :
    breaksLines style d id preserving = style.breaksBelow preserving (below.map d.kindOf) := by
  rw [breaksLines, Style.breaksBelow, hc, Forest.tops_map, List.any_map]
  simp only [any_kind?, Function.comp_def]

/-- Below an element its children are owed, then its end tag, each on a line of its own if lines are
broken there. -/
theorem owedBelow_eq {id : NodeId} {below : Forest NodeId} (hc : d.children id = below.tops)
    (e : Element) (depth : Nat) (around : Bool) :
    owedBelow style d id e depth around =
      owed (depth + 1) (preservesBlanks around e)
          (style.breaksBelow (preservesBlanks around e) (below.map d.kindOf)) below.tops ++
        ((if style.breaksBelow (preservesBlanks around e) (below.map d.kindOf) then
          [.lineBreak depth] else []) ++ [.endTag e.name.full]) := by
  rw [owedBelow, owed, hc, breaksLines_eq hc]
  cases style.breaksBelow (preservesBlanks around e) (below.map d.kindOf) <;> rfl

/-- What is neither the root nor an element takes one step. -/
theorem writes_leaf {id : NodeId} {kind : NodeKind} (hk : d.kind? id = some kind)
    (hroot : kind ≠ .root) (he : kind.element? = none) (depth : Nat) (preserving childless : Bool)
    (inside : List Token) :
    Writes style d [.node id depth preserving] 1 (style.nodeTokens kind childless inside) := by
  refine .single fun bound pending before => ?_
  cases kind with
  | root => exact absurd rfl hroot
  | element e => simp [NodeKind.element?] at he
  | text content => simp [writePending, hk, Style.nodeTokens, written, Token.written]
  | cdata content =>
    rw [writePending, hk]
    simp only [Style.nodeTokens, written_cdata, String.append_assoc]
  | comment content =>
    rw [writePending, hk]
    simp only [Style.nodeTokens, written_comment, String.append_assoc]
  | instruction target content =>
    rw [writePending, hk]
    simp only [Style.nodeTokens, written_instruction]

/-- An element is written as its tags, with what stands below it between them. -/
theorem writes_element {id : NodeId} {e : Element} {below : Forest NodeId} {depth cost : Nat}
    {preserving : Bool} (hk : d.kind? id = some (.element e)) (hc : d.children id = below.tops)
    {inside : List Token} (hb : Writes style d (owed (depth + 1) (preservesBlanks preserving e)
      (style.breaksBelow (preservesBlanks preserving e) (below.map d.kindOf)) below.tops) cost
      inside) :
    Writes style d [.node id depth preserving] (cost + 3)
      (style.nodeTokens (.element e) below.tops.isEmpty (inside ++ style.breakTokens
        (style.breaksBelow (preservesBlanks preserving e) (below.map d.kindOf)) depth)) := by
  cases below with
  | nil =>
    have hone : Writes style d [.node id depth preserving] 1 (style.nodeTokens (.element e) true
        (inside ++ style.breakTokens (style.breaksBelow (preservesBlanks preserving e)
          (Forest.nil.map d.kindOf)) depth)) := .single fun bound pending before => by
      rw [writePending, hk, hc, Forest.tops, written_childless]
      rfl
    exact hone.mono (by omega)
  | cons top b rest =>
    intro bound spare pending before hbound
    obtain ⟨bound, rfl⟩ : ∃ n, bound = n + 1 := ⟨bound - 1, by omega⟩
    have hall := hb.append ((writes_break (style.breaksBelow (preservesBlanks preserving e)
      ((Forest.cons top b rest).map d.kindOf)) depth).append (writes_endTag e.name.full))
    obtain ⟨bound', hb', he⟩ := hall bound spare pending (before ++ style.openTag e ++ ">") (by omega)
    refine ⟨bound', hb', ?_⟩
    rw [List.singleton_append, writePending, hk]
    simp only [hc]
    rw [Forest.tops, List.isEmpty_cons]
    simp only [Bool.false_eq_true, if_false]
    rw [owedBelow_eq hc, he]
    congr 1
    simp only [Style.nodeTokens, Bool.false_eq_true, if_false]
    rw [written_cons, written_start, List.append_assoc, written_append]
    simp only [String.append_assoc]

/-- What is owed for the trees of a store is written as the tokens of their payloads. -/
theorem writes_owed {f : Forest NodeId} (hs : d.Shows f) (hr : ∀ id ∈ f.preorder, d.kindOf id ≠ .root)
    (depth : Nat) (preserving breaks : Bool) :
    Writes style d (owed depth preserving breaks f.tops) (4 * f.preorder.length)
      (style.tokens depth preserving breaks (f.map d.kindOf)) := by
  induction f generalizing depth preserving breaks with
  | nil => exact Writes.nil
  | cons id below rest ihb ihr =>
    obtain ⟨h1, h2, h3⟩ := hs
    simp only [Forest.preorder, List.mem_cons, List.mem_append] at hr
    have hroot : d.kindOf id ≠ .root := hr id (.inl rfl)
    obtain ⟨kind, hk⟩ : ∃ kind, d.kind? id = some kind := by
      cases hkind : d.kind? id with
      | none => exact absurd (by rw [kindOf, hkind]; rfl) hroot
      | some kind => exact ⟨kind, rfl⟩
    have hkind : d.kindOf id = kind := by rw [kindOf, hk]; rfl
    have hbelow := fun depth preserving breaks =>
      ihb h2 (fun x hx => hr x (.inr (.inl hx))) depth preserving breaks
    have hrest := ihr h3 (fun x hx => hr x (.inr (.inr hx))) depth preserving breaks
    have hempty : (below.map d.kindOf).tops.isEmpty = below.tops.isEmpty := by
      rw [Forest.tops_map, List.isEmpty_map]
    have hnode : Writes style d [.node id depth preserving] (4 * below.preorder.length + 3)
        (style.nodeTokens kind below.tops.isEmpty
          (style.tokens (depth + 1) (kind.preservesBelow preserving)
            (style.breaksBelow (kind.preservesBelow preserving) (below.map d.kindOf))
            (below.map d.kindOf) ++ style.breakTokens
              (style.breaksBelow (kind.preservesBelow preserving) (below.map d.kindOf)) depth)) := by
      cases kind with
      | element e => exact writes_element hk h1 (hbelow _ _ _)
      | root => exact absurd hkind hroot
      | _ => exact (writes_leaf hk (by simp) rfl _ _ _ _).mono (by omega)
    have hall := ((writes_break breaks depth).append hnode).append hrest
    rw [Forest.tops, owed_cons, Forest.map, Style.tokens, hkind, hempty]
    rw [List.append_assoc, List.singleton_append] at hall
    refine hall.mono ?_
    simp only [Forest.preorder, List.length_cons, List.length_append]
    omega

/-! ## The document -/

theorem tokens_cons_eq (depth : Nat) (preserving breaks : Bool) (kind : NodeKind)
    (below rest : Forest NodeKind) :
    style.tokens depth preserving breaks (.cons kind below rest) =
      style.breakTokens breaks depth ++
        (style.tokens depth preserving false (.cons kind below .nil) ++
          style.tokens depth preserving breaks rest) := by
  simp [Style.tokens, Style.breakTokens]

/-- The bound of the writer suffices for a tree whose nodes are all in the store. -/
theorem writeNode_eq {id : NodeId} {below : Forest NodeId}
    (hs : d.Shows (.cons id below .nil)) (hb : below.preorder.length < d.nodes.size)
    (hr : ∀ x ∈ (Forest.cons id below .nil).preorder, d.kindOf x ≠ .root) (before : String) :
    writeNode style d id before = .ok (before ++ written
      (style.tokens 0 false false (.cons (d.kindOf id) (below.map d.kindOf) .nil))) := by
  have hw : Writes style d _ _ _ := writes_owed hs hr 0 false false
  refine hw.writePending_eq ?_ before
  simp only [Forest.preorder, List.length_cons, List.append_nil]
  omega

theorem writeTopLevel_eq {f : Forest NodeId} (hs : d.Shows f)
    (hb : f.preorder.length ≤ d.nodes.size) (hr : ∀ x ∈ f.preorder, d.kindOf x ≠ .root)
    (hn : ∀ x ∈ f.tops, (d.kindOf x).isCharacterData = false) (before : String) :
    writeTopLevel style d false f.tops before =
      .ok (before ++ written (style.tokens 0 false style.pretty (f.map d.kindOf))) := by
  induction f generalizing before with
  | nil => simp [Forest.tops, Forest.map, Style.tokens, writeTopLevel]
  | cons id below rest _ ihr =>
    obtain ⟨h1, h2, h3⟩ := hs
    simp only [Forest.preorder, List.mem_cons, List.mem_append, List.length_cons,
      List.length_append] at hr hb
    simp only [Forest.tops, List.mem_cons] at hn
    have hid := hn id (.inl rfl)
    have hnode : ∀ before, writeNode style d id before = _ :=
      writeNode_eq ⟨h1, h2, trivial⟩ (by omega) fun x hx => hr x (by
        simp only [Forest.preorder, List.append_nil, List.mem_cons] at hx
        exact hx.imp_right .inl)
    have hrest := fun before => ihr h3 (by omega) (fun x hx => hr x (.inr (.inr hx)))
      (fun x hx => hn x (.inr hx)) before
    rw [Forest.tops, writeTopLevel]
    simp only [any_kind?, hid, Bool.false_eq_true, if_false, hnode, bind, Except.bind, hrest]
    rw [Forest.map, tokens_cons_eq 0 false style.pretty _ _ (rest.map d.kindOf), written_append,
      written_append, written_pretty]
    simp only [String.append_assoc]

/-- The trees below the root are written with line breaks between them. -/
theorem writeTopLevel_children (hl : d.Linked) (hs : d.Shaped)
    (hn : ∀ child ∈ d.children .root, (d.kindOf child).isCharacterData = false) (before : String) :
    writeTopLevel style d true (d.children .root) before =
      .ok (before ++ written (style.topTokens d.payloads)) := by
  obtain ⟨f, ht, hf, -, -, hlength⟩ := hl.exists_forest_below .root
  have hr := hs.kindOf_ne_root hl ht hf
  rw [hl.payloads_eq ht hf]
  rw [← ht] at hn ⊢
  cases f with
  | nil => simp [Forest.tops, Forest.map, Style.topTokens, writeTopLevel]
  | cons id below rest =>
    obtain ⟨h1, h2, h3⟩ := hf
    simp only [Forest.preorder, List.mem_cons, List.mem_append, List.length_cons,
      List.length_append] at hr hlength
    simp only [Forest.tops, List.mem_cons] at hn
    have hnode : ∀ before, writeNode style d id before = _ :=
      writeNode_eq ⟨h1, h2, trivial⟩ (by omega) fun x hx => hr x (by
        simp only [Forest.preorder, List.append_nil, List.mem_cons] at hx
        exact hx.imp_right .inl)
    have hrest : ∀ before, writeTopLevel style d false rest.tops before = _ :=
      writeTopLevel_eq h3 (by omega) (fun x hx => hr x (.inr (.inr hx)))
        (fun x hx => hn x (.inr hx))
    rw [Forest.tops, writeTopLevel]
    simp only [any_kind?, hn id (.inl rfl), Bool.false_eq_true, if_false, if_true, hnode, bind,
      Except.bind, hrest]
    rw [Forest.map, Style.topTokens, written_append]
    simp only [String.append_assoc]

theorem written_declaration (declaration : XmlDeclaration) :
    written [.declaration (declarationTag declaration)] = writeDeclaration declaration := by
  apply String.toList_injective
  rw [toList_writeDeclaration]
  simp [written, Token.written, declarationTag]

theorem written_doctype (doctype : String) :
    written [.doctype doctype] = "<!DOCTYPE " ++ doctype ++ ">" := by
  apply String.toList_injective
  simp [written, Token.written]

/-- The declaration and the document type are written before the tree, as far as there are any. -/
theorem written_prologTokens (style : Style) (d : Document) :
    written (style.prologTokens d) =
      (match d.declaration with
        | some declaration => writeDeclaration declaration ++ style.lineBreak 0
        | none => "") ++
      (match d.doctype with
        | some doctype => "<!DOCTYPE " ++ doctype ++ ">" ++ style.lineBreak 0
        | none => "") := by
  rw [Style.prologTokens, written_append]
  congr 1
  · cases d.declaration with
    | none => rfl
    | some declaration =>
      rw [Style.declarationTokens, written_cons, written_declaration, written_pretty]
  · cases d.doctype with
    | none => rfl
    | some doctype => rw [Style.doctypeTokens, written_cons, written_doctype, written_pretty]

/-- A document without character data beside its document element is written as its tokens. -/
theorem write_eq (hl : d.Linked) (hs : d.Shaped) (he : d.documentElement?.isSome = true)
    (hn : ∀ child ∈ d.children .root, (d.kindOf child).isCharacterData = false) (style : Style) :
    write style d = .ok (written (style.documentTokens d)) := by
  have hsome : d.documentElement?.isNone = false := by
    rw [← Option.not_isSome, he]
    rfl
  rw [write, hsome]
  simp only [Bool.false_eq_true, if_false, writeTopLevel_children hl hs hn, bind, Except.bind, pure,
    Except.pure]
  rw [Style.documentTokens, written_append, written_append, written_prologTokens]
  split_ifs
  · rfl
  · exact congrArg Except.ok String.append_empty.symm

end SvgPress.Markup
