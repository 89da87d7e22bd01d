import SvgPress.Proofs.Markup.Writing

/-!
# The outline of what is written

What is written of trees is told by recursion: the start tag of an element, its children one level
deeper, its end tag. The outline keeps, for every piece of the text, the node that it stands for, so
that it says which nodes are written, whatever their payloads are. The writer, which keeps what it
owes on one list, writes exactly the outline, or it refuses at the first thing under the root that it
cannot write.
-/

namespace SvgPress.Markup

open Document

/-- A piece of the output, with the node that it is written for. -/
inductive Stretch where
  /-- All that is written for a node that has nothing between tags. -/
  | whole (id : NodeId) (text : String)
  /-- The start tag of an element with something below it. -/
  | opening (id : NodeId) (text : String)
  /-- The end tag of such an element. -/
  | closing (id : NodeId) (text : String)
  /-- A line break with its indentation. -/
  | gap (text : String)

/-- The text of a piece. -/
def Stretch.text : Stretch → String
  | whole _ text | opening _ text | closing _ text | gap text => text

/-- The node that begins with a piece, if one does. -/
def Stretch.begun? : Stretch → Option NodeId
  | whole id _ | opening id _ => some id
  | closing .. | gap _ => none

/-- The text of an outline. -/
def outlineText : List Stretch → String
  | [] => ""
  | piece :: pieces => piece.text ++ outlineText pieces

/-- The nodes that are written, in the order in which they begin. -/
def begun (pieces : List Stretch) : List NodeId :=
  pieces.filterMap Stretch.begun?

/-- The line break before a level of nesting, where there is one. -/
def Style.gap (style : Style) (breaks : Bool) (depth : Nat) : List Stretch :=
  if breaks then [.gap (style.lineBreak depth)] else []

/-- What is written for a payload with nothing between tags. -/
def Style.wholeText (style : Style) : NodeKind → String
  | .root => ""
  | .element e => style.childless e
  | .text content => escapeText content
  | .cdata content => "<![CDATA[" ++ content ++ "]]>"
  | .comment content => "<!--" ++ content ++ "-->"
  | .instruction target content => writeInstruction target content

/-- The pieces of a node; `inside` is what stands between the tags of an element with children. Of
any other node nothing shows what stands below it. -/
def Style.nodeStretches (style : Style) (id : NodeId) (kind : NodeKind) (childless : Bool)
    (inside : List Stretch) : List Stretch :=
  match kind with
  | .element e =>
    if childless then [.whole id (style.wholeText (.element e))]
    else
      .opening id (style.openTag e ++ ">") ::
        (inside ++ [.closing id ("</" ++ e.name.full ++ ">")])
  | kind => [.whole id (style.wholeText kind)]

/-- The pieces of trees side by side, with line breaks before each of them if it `breaks`. -/
def Style.outline (style : Style) (d : Document) :
    (depth : Nat) → (preserving breaks : Bool) → Forest NodeId → List Stretch
  | _, _, _, .nil => []
  | depth, preserving, breaks, .cons id below rest =>
    let scope := (d.kindOf id).preservesBelow preserving
    let apart := style.breaksBelow scope (below.map d.kindOf)
    style.gap breaks depth ++
      style.nodeStretches id (d.kindOf id) below.tops.isEmpty
        (outline style d (depth + 1) scope apart below ++ style.gap apart depth) ++
      outline style d depth preserving breaks rest

/-- The pieces of the trees below the root, with line breaks between them. -/
def Style.topOutline (style : Style) (d : Document) : Forest NodeId → List Stretch
  | .nil => []
  | .cons id below rest =>
    style.outline d 0 false false (.cons id below .nil) ++ style.outline d 0 false true rest

/-- What precedes the tree. -/
def Style.prologText (style : Style) (d : Document) : String :=
  (match d.declaration with
    | some declaration => writeDeclaration declaration ++ style.lineBreak 0
    | none => "") ++
  (match d.doctype with
    | some doctype => "<!DOCTYPE " ++ doctype ++ ">" ++ style.lineBreak 0
    | none => "")

/-- The text of a document with the given trees below its root. -/
def Style.documentText (style : Style) (d : Document) (f : Forest NodeId) : String :=
  style.prologText d ++ outlineText (style.topOutline d f) ++ if style.finalNewline then "\n" else ""

variable {style : Style} {d : Document} {id : NodeId} {f : Forest NodeId} {depth : Nat}
  {preserving breaks : Bool}

theorem outlineText_append (ps qs : List Stretch) :
    outlineText (ps ++ qs) = outlineText ps ++ outlineText qs := by
  induction ps with
  | nil => simp [outlineText]
  | cons p ps ih => rw [List.cons_append, outlineText, ih, outlineText, String.append_assoc]

@[simp] theorem begun_append (ps qs : List Stretch) : begun (ps ++ qs) = begun ps ++ begun qs :=
  List.filterMap_append

theorem begun_cons {p : Stretch} (h : p.begun? = some id) (ps : List Stretch) :
    begun (p :: ps) = id :: begun ps :=
  List.filterMap_cons_some h

@[simp] theorem begun_gap (style : Style) (breaks : Bool) (depth : Nat) :
    begun (style.gap breaks depth) = [] := by
  cases breaks <;> rfl

theorem outlineText_gap (style : Style) (breaks : Bool) (depth : Nat) :
    outlineText (style.gap breaks depth) = if breaks then style.lineBreak depth else "" := by
  cases breaks <;> simp [Style.gap, outlineText, Stretch.text]

/-! ## The nodes that are written -/

/-- The nodes of trees that stand under elements only. -/
def met (d : Document) : Forest NodeId → List NodeId
  | .nil => []
  | .cons id below rest => id :: ((if d.isElement id then met d below else []) ++ met d rest)

/-- Whether one of these nodes is a root. -/
def meetsRoot (d : Document) (f : Forest NodeId) : Bool :=
  (met d f).any fun id => d.kindOf id == .root

theorem met_append (d : Document) (f g : Forest NodeId) : met d (f ++ g) = met d f ++ met d g := by
  induction f with
  | nil => rfl
  | cons id below rest _ ih => simp [met, ih]

theorem meetsRoot_cons (d : Document) (id : NodeId) (below rest : Forest NodeId) :
    meetsRoot d (.cons id below rest) =
      ((d.kindOf id == .root || (d.isElement id && meetsRoot d below)) || meetsRoot d rest) := by
  by_cases he : d.isElement id = true <;> simp [meetsRoot, met, he, Bool.or_assoc]

/-- The nodes that are written are those that stand under elements only, in document order. -/
theorem begun_outline (style : Style) (d : Document) (depth : Nat) (preserving breaks : Bool)
    (f : Forest NodeId) : begun (style.outline d depth preserving breaks f) = met d f := by
  induction f generalizing depth preserving breaks with
  | nil => rfl
  | cons id below rest ihb ihr =>
    have helement : d.isElement id = (d.kindOf id).element?.isSome := isElement_eq_kindOf d id
    have hnode : ∀ inside, begun (style.nodeStretches id (d.kindOf id) below.tops.isEmpty inside) =
        id :: if d.isElement id && !below.tops.isEmpty then begun inside else [] := by
      intro inside
      rw [helement]
      cases hk : d.kindOf id with
      | element e =>
        cases hb : below.tops.isEmpty with
        | true => rfl
        | false =>
          have hclosing : begun [Stretch.closing id ("</" ++ e.name.full ++ ">")] = [] := rfl
          simp only [Style.nodeStretches, NodeKind.element?, Bool.false_eq_true, if_false,
            Option.isSome_some, Bool.not_false, Bool.and_self, if_true]
          rw [begun_cons rfl, begun_append, hclosing, List.append_nil]
      | _ => rfl
    have hempty : below.tops.isEmpty = true → met d below = [] := by
      intro h
      rw [Forest.isEmpty_tops_iff.1 h]
      rfl
    simp only [Style.outline, begun_append, begun_gap, List.nil_append, hnode, ihb, ihr,
      List.append_nil, met]
    by_cases he : d.isElement id = true
    · by_cases hb : below.tops.isEmpty = true
      · simp [he, hb, hempty hb]
      · simp [he, hb]
    · simp [he]

theorem begun_topOutline (style : Style) (d : Document) (f : Forest NodeId) :
    begun (style.topOutline d f) = met d f := by
  cases f with
  | nil => rfl
  | cons id below rest =>
    rw [Style.topOutline, begun_append, begun_outline, begun_outline, ← met_append]
    rfl

/-! ## Nesting -/

/-- Pieces in which every start tag has its end tag, the one of the same element, with whole pieces
between them. -/
inductive Nested (style : Style) (d : Document) : List Stretch → Prop
  | nil : Nested style d []
  | gap (text : String) : Nested style d [.gap text]
  | whole (id : NodeId) : Nested style d [.whole id (style.wholeText (d.kindOf id))]
  | element {id : NodeId} {e : Element} {inside : List Stretch} (hk : d.kindOf id = .element e)
      (hi : Nested style d inside) :
      Nested style d (.opening id (style.openTag e ++ ">") ::
        (inside ++ [.closing id ("</" ++ e.name.full ++ ">")]))
  | append {ps qs : List Stretch} (hp : Nested style d ps) (hq : Nested style d qs) :
      Nested style d (ps ++ qs)

theorem nested_gap (style : Style) (d : Document) (breaks : Bool) (depth : Nat) :
    Nested style d (style.gap breaks depth) := by
  cases breaks with
  | false => exact .nil
  | true => exact .gap _

theorem nested_outline (style : Style) (d : Document) (depth : Nat) (preserving breaks : Bool)
    (f : Forest NodeId) : Nested style d (style.outline d depth preserving breaks f) := by
  induction f generalizing depth preserving breaks with
  | nil => exact .nil
  | cons id below rest ihb ihr =>
    rw [Style.outline]
    refine .append (.append (nested_gap style d breaks depth) ?_) (ihr depth preserving breaks)
    have hinside := fun depth preserving breaks breaks' level =>
      (ihb depth preserving breaks).append (nested_gap style d breaks' level)
    have hwhole : Nested style d _ := .whole id
    cases hk : d.kindOf id with
    | element e =>
      rw [hk] at hwhole
      rw [Style.nodeStretches]
      split
      · exact hwhole
      · exact .element hk (hinside _ _ _ _ _)
    | _ =>
      rw [hk] at hwhole
      exact hwhole

theorem nested_topOutline (style : Style) (d : Document) (f : Forest NodeId) :
    Nested style d (style.topOutline d f) := by
  cases f with
  | nil => exact .nil
  | cons id below rest =>
    rw [Style.topOutline]
    exact .append (nested_outline _ _ _ _ _ _) (nested_outline _ _ _ _ _ _)

/-! ## The writer -/

/-- Pending pieces that come out as a text with at most `cost` steps of the writer, or at a root that
is met there and refused. -/
def Yields (style : Style) (d : Document) (pending : List Pending) (cost : Nat) (refused : Bool)
    (text : String) : Prop :=
  ∀ bound spare more before, cost + spare ≤ bound → ∃ bound', spare ≤ bound' ∧
    writePending style d bound (pending ++ more) before =
      if refused then .error .nestedRoot else writePending style d bound' more (before ++ text)

namespace Yields

variable {pending pending' : List Pending} {cost cost' : Nat} {refused refused' : Bool}
  {text text' : String}

theorem nil : Yields style d [] 0 false "" := by
  intro bound spare more before hb
  exact ⟨bound, by omega, by simp⟩

theorem append (h : Yields style d pending cost refused text)
    (h' : Yields style d pending' cost' refused' text') :
    Yields style d (pending ++ pending') (cost + cost') (refused || refused') (text ++ text') := by
  intro bound spare more before hb
  obtain ⟨bound₁, hb₁, he₁⟩ := h bound (cost' + spare) (pending' ++ more) before (by omega)
  obtain ⟨bound₂, hb₂, he₂⟩ := h' bound₁ spare more (before ++ text) hb₁
  refine ⟨bound₂, hb₂, ?_⟩
  rw [List.append_assoc, he₁, he₂]
  cases refused with
  | true => rfl
  | false => rw [String.append_assoc]; rfl

theorem mono (h : Yields style d pending cost refused text) (hc : cost ≤ cost') :
    Yields style d pending cost' refused text := by
  intro bound spare more before hb
  exact h bound spare more before (by omega)

/-- A piece that is written in one step. -/
theorem single {piece : Pending} (h : ∀ bound more before,
    writePending style d (bound + 1) (piece :: more) before =
      if refused then .error .nestedRoot else writePending style d bound more (before ++ text)) :
    Yields style d [piece] 1 refused text := by
  intro bound spare more before hb
  obtain ⟨bound, rfl⟩ : ∃ n, bound = n + 1 := ⟨bound - 1, by omega⟩
  exact ⟨bound, by omega, h bound more before⟩

/-- With a bound that suffices, everything is written or refused. -/
theorem writePending_eq (h : Yields style d pending cost refused text) {bound : Nat}
    (hb : cost ≤ bound) (before : String) :
    writePending style d bound pending before =
      if refused then .error .nestedRoot else .ok (before ++ text) := by
  obtain ⟨bound', -, he⟩ := h bound 0 [] before hb
  rw [List.append_nil] at he
  rw [he]
  cases bound' <;> rfl

end Yields

theorem yields_gap (breaks : Bool) (depth : Nat) :
    Yields style d (if breaks then [.lineBreak depth] else []) 1 false
      (outlineText (style.gap breaks depth)) := by
  cases breaks with
  | false => exact Yields.nil.mono (Nat.zero_le 1)
  | true =>
    refine .single fun bound more before => ?_
    rw [writePending, outlineText_gap]
    rfl

theorem yields_endTag (name : String) :
    Yields style d [.endTag name] 1 false ("</" ++ name ++ ">") := by
  refine .single fun bound more before => ?_
  rw [writePending, String.append_assoc, String.append_assoc, String.append_assoc]
  rfl

/-- A node that is no element is written without what stands below it; a root is refused. -/
theorem yields_leaf {kind : NodeKind} (hk : d.kind? id = some kind) (he : kind.element? = none)
    (depth : Nat) (preserving : Bool) :
    Yields style d [.node id depth preserving] 1 (kind == .root) (style.wholeText kind) := by
  refine .single fun bound more before => ?_
  rw [writePending, hk]
  cases kind with
  | element e => simp [NodeKind.element?] at he
  | root => rfl
  | text content => rfl
  | cdata content => simp only [Style.wholeText, String.append_assoc]; rfl
  | comment content => simp only [Style.wholeText, String.append_assoc]; rfl
  | instruction target content => rfl

/-- An element is written as its tags, with what stands below it between them. -/
theorem yields_element {e : Element} {below : Forest NodeId} {cost : Nat} {refused : Bool}
    {inside : List Stretch} (hk : d.kind? id = some (.element e)) (hc : d.children id = below.tops)
    (hb : Yields style d (owed (depth + 1) (preservesBlanks preserving e)
      (style.breaksBelow (preservesBlanks preserving e) (below.map d.kindOf)) below.tops) cost refused
      (outlineText inside)) :
    Yields style d [.node id depth preserving] (cost + 3) (!below.tops.isEmpty && refused)
      (outlineText (style.nodeStretches id (.element e) below.tops.isEmpty (inside ++ style.gap
        (style.breaksBelow (preservesBlanks preserving e) (below.map d.kindOf)) depth))) := by
  generalize hbreaks : style.breaksBelow (preservesBlanks preserving e) (below.map d.kindOf) =
    breaks at hb
  cases hempty : below.tops.isEmpty with
  | true =>
    have hone : Yields style d [.node id depth preserving] 1 false (style.childless e) := by
      refine .single fun bound more before => ?_
      rw [writePending, hk]
      simp only [hc, hempty, if_true]
      rfl
    have hcost : 1 ≤ cost + 3 := by omega
    simpa [Style.nodeStretches, outlineText, Stretch.text, Style.wholeText] using hone.mono hcost
  | false =>
    intro bound spare more before hbound
    obtain ⟨bound, rfl⟩ : ∃ n, bound = n + 1 := ⟨bound - 1, by omega⟩
    have hall := hb.append ((yields_gap breaks depth).append (yields_endTag e.name.full))
    obtain ⟨bound', hb', he⟩ := hall bound spare more (before ++ style.openTag e ++ ">") (by omega)
    refine ⟨bound', hb', ?_⟩
    rw [List.singleton_append, writePending, hk]
    simp only [hc, hempty, Bool.false_eq_true, if_false]
    rw [owedBelow_eq hc, hbreaks, he]
    simp only [Style.nodeStretches, Bool.false_eq_true, if_false, Bool.or_false, Bool.not_false,
      Bool.true_and, outlineText, Stretch.text, outlineText_append, String.append_assoc,
      String.append_empty]

/-- What is owed for trees comes out as their outline, unless a root is met in them. -/
theorem yields_owed (hs : d.Shows f) (hh : ∀ id ∈ f.preorder, d.Holds id) (depth : Nat)
    (preserving breaks : Bool) :
    Yields style d (owed depth preserving breaks f.tops) (4 * f.preorder.length) (meetsRoot d f)
      (outlineText (style.outline d depth preserving breaks f)) := by
  induction f generalizing depth preserving breaks with
  | nil => exact Yields.nil
  | cons id below rest ihb ihr =>
    obtain ⟨h1, h2, h3⟩ := hs
    simp only [Forest.preorder, List.mem_cons, List.mem_append] at hh
    have hk : d.kind? id = some (d.kindOf id) := kind?_eq_some_kindOf (hh id (.inl rfl))
    have hbelow := ihb h2 fun x hx => hh x (.inr (.inl hx))
    have hrest := ihr h3 (fun x hx => hh x (.inr (.inr hx))) depth preserving breaks
    have helement : d.isElement id = (d.kindOf id).element?.isSome := isElement_eq_kindOf d id
    have hnode : Yields style d [.node id depth preserving] (4 * below.preorder.length + 3)
        (d.kindOf id == .root || (d.isElement id && meetsRoot d below))
        (outlineText (style.nodeStretches id (d.kindOf id) below.tops.isEmpty
          (style.outline d (depth + 1) ((d.kindOf id).preservesBelow preserving)
            (style.breaksBelow ((d.kindOf id).preservesBelow preserving) (below.map d.kindOf)) below ++
              style.gap (style.breaksBelow ((d.kindOf id).preservesBelow preserving)
                (below.map d.kindOf)) depth))) := by
      rw [helement]
      cases hkind : d.kindOf id with
      | element e =>
        rw [hkind] at hk
        have hyields : Yields style d [.node id depth preserving] _ _ _ := yields_element hk h1
          (hbelow (depth + 1) (preservesBlanks preserving e)
            (style.breaksBelow (preservesBlanks preserving e) (below.map d.kindOf)))
        have hmeets : (!below.tops.isEmpty && meetsRoot d below) = meetsRoot d below := by
          cases below <;> rfl
        rw [hmeets] at hyields
        exact hyields
      | root =>
        rw [hkind] at hk
        exact (yields_leaf hk rfl depth preserving).mono (by omega)
      | _ =>
        rw [hkind] at hk
        have hleaf : Yields style d _ _ _ _ := yields_leaf hk rfl depth preserving
        simpa [Style.nodeStretches, outlineText, Stretch.text, NodeKind.element?] using
          hleaf.mono (by omega)
    have hall := ((yields_gap breaks depth).append hnode).append hrest
    rw [Forest.tops, owed_cons, Style.outline, meetsRoot_cons, outlineText_append,
      outlineText_append]
    rw [List.append_assoc, List.singleton_append, Bool.false_or] at hall
    refine hall.mono ?_
    simp only [Forest.preorder, List.length_cons, List.length_append]
    omega

/-! ## The document -/

/-- What the writer refuses first among the trees below the root. -/
def refusal? (d : Document) : Forest NodeId → Option WriteError
  | .nil => none
  | .cons id below rest =>
    if (d.kindOf id).isCharacterData then some .strayCharacterData
    else if meetsRoot d (.cons id below .nil) then some .nestedRoot
    else refusal? d rest

theorem refusal?_eq_none_iff : refusal? d f = none ↔
    (∀ top ∈ f.tops, (d.kindOf top).isCharacterData = false) ∧ meetsRoot d f = false := by
  induction f with
  | nil => simp [refusal?, Forest.tops, meetsRoot, met]
  | cons id below rest _ ih =>
    have hmeets : meetsRoot d (.cons id below rest) =
        (meetsRoot d (.cons id below .nil) || meetsRoot d rest) := by
      have hsplit : Forest.cons id below rest = .cons id below .nil ++ rest := by simp
      rw [hsplit, meetsRoot, met_append, List.any_append]
      rfl
    rw [refusal?, Forest.tops, List.forall_mem_cons, hmeets]
    split_ifs with h1 h2
    · simp [h1]
    · simp [h2]
    · simp only [Bool.not_eq_true] at h1 h2
      rw [ih, h1, h2, Bool.false_or]
      simp

theorem writeNode_eq_outline {below : Forest NodeId} (hs : d.Shows (.cons id below .nil))
    (hh : ∀ x ∈ (Forest.cons id below .nil).preorder, d.Holds x)
    (hb : below.preorder.length < d.nodes.size) (before : String) :
    writeNode style d id before =
      if meetsRoot d (.cons id below .nil) then .error .nestedRoot
      else .ok (before ++ outlineText (style.outline d 0 false false (.cons id below .nil))) := by
  have hy : Yields style d _ _ _ _ := yields_owed hs hh 0 false false
  refine hy.writePending_eq ?_ before
  simp only [Forest.preorder, List.length_cons, List.append_nil]
  omega

theorem outline_cons_eq (style : Style) (d : Document) (depth : Nat) (preserving breaks : Bool)
    (id : NodeId) (below rest : Forest NodeId) :
    style.outline d depth preserving breaks (.cons id below rest) =
      style.gap breaks depth ++ (style.outline d depth preserving false (.cons id below .nil) ++
        style.outline d depth preserving breaks rest) := by
  simp [Style.outline, Style.gap]

/-- Trees under the root are written one after the other, up to the first that is refused. -/
theorem writeTopLevel_eq_outline (hs : d.Shows f) (hh : ∀ id ∈ f.preorder, d.Holds id)
    (hb : f.preorder.length ≤ d.nodes.size) (first : Bool) (before : String) :
    writeTopLevel style d first f.tops before =
      match refusal? d f with
      | some cause => .error cause
      | none => .ok (before ++ outlineText
          (if first then style.topOutline d f else style.outline d 0 false true f)) := by
  induction f generalizing first before with
  | nil => cases first <;> simp [Forest.tops, writeTopLevel, refusal?, Style.topOutline, Style.outline,
      outlineText]
  | cons id below rest _ ihr =>
    obtain ⟨h1, h2, h3⟩ := hs
    simp only [Forest.preorder, List.mem_cons, List.mem_append, List.length_cons,
      List.length_append] at hh hb
    have hnode : ∀ before, writeNode style d id before = _ :=
      writeNode_eq_outline ⟨h1, h2, trivial⟩ (fun x hx => hh x (by
        simp only [Forest.preorder, List.append_nil, List.mem_cons] at hx
        exact hx.imp_right .inl)) (by omega)
    have hrest := ihr h3 (fun x hx => hh x (.inr (.inr hx))) (by omega) false
    rw [Forest.tops, writeTopLevel, refusal?, any_kind?]
    by_cases hcharacters : (d.kindOf id).isCharacterData = true
    · simp [hcharacters]
    · by_cases hmeets : meetsRoot d (.cons id below .nil) = true
      · simp [hcharacters, hnode, hmeets, bind, Except.bind]
      · simp only [hcharacters, hmeets, hnode, hrest, Bool.false_eq_true, if_false, bind, Except.bind]
        cases hr : refusal? d rest with
        | some cause => rfl
        | none =>
          cases first with
          | true => simp only [if_true, Style.topOutline, outlineText_append, String.append_assoc]
          | false =>
            simp only [Bool.false_eq_true, if_false, outline_cons_eq style d 0 false true id below rest,
              outlineText_append, outlineText_gap, if_true, String.append_assoc]

/-- A document is written as the outline of the trees below its root, or refused for the first thing
that cannot be written, whatever the payloads of its nodes are. -/
theorem write_eq_outline (hl : d.Linked) (hs : d.Shows (.cons .root f .nil)) (style : Style) :
    write style d =
      if d.childElements .root = [] then .error .noDocumentElement
      else match refusal? d f with
        | some cause => .error cause
        | none => .ok (style.documentText d f) := by
  obtain ⟨hchildren, hshows, -⟩ := hs
  have hh : ∀ x ∈ f.preorder, d.Holds x := fun x hx =>
    hl.holds_of_mem_preorder hshows (fun top hm => hl.child_held (hchildren ▸ hm)) hx
  have hb : f.preorder.length ≤ d.nodes.size :=
    hl.length_preorder_le hshows (fun top hm => hl.child_held (hchildren ▸ hm))
      (hchildren ▸ hl.apart_children .root)
  have htop : writeTopLevel style d true f.tops (style.prologText d) = _ :=
    writeTopLevel_eq_outline hshows hh hb true _
  have hnone : d.documentElement?.isNone = true ↔ d.childElements .root = [] := by
    rw [documentElement?, Option.isNone_iff_eq_none, List.head?_eq_none_iff]
  by_cases hempty : d.childElements .root = []
  · rw [write, if_pos (hnone.2 hempty), if_pos hempty]
  · have hwrite : write style d = (writeTopLevel style d true (d.children .root)
        (style.prologText d)).map fun written =>
          if style.finalNewline then written ++ "\n" else written := by
      rw [write, if_neg fun h => hempty (hnone.1 h)]
      rfl
    rw [hwrite, if_neg hempty, hchildren, htop]
    cases refusal? d f with
    | some cause => rfl
    | none =>
      simp only [if_true, Except.map, Style.documentText]
      split_ifs
      · rfl
      · rw [String.append_empty]

end SvgPress.Markup
