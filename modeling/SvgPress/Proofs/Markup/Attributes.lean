import SvgPress.Proofs.Checked
import SvgPress.Proofs.Cutting
import SvgPress.Proofs.Keyed
import SvgPress.Proofs.Markup.References
import Mathlib.Algebra.BigOperators.Group.List.Basic
import Mathlib.Data.List.Nodup

/-!
# Written attributes are read back

The attributes of a tag are read in the order in which they are written, each with its key and with
what stands between its quotes. An element whose names are names and whose attributes are distinct
is the element of its own tag, in either quote.
-/

namespace SvgPress.Markup

open SvgPress.Text

/-! ## One attribute -/

/-- An attribute as it is written, with the space before it. -/
def attributeText (quote : Quote) (key value : String) : List Char :=
  ' ' :: (key.toList ++ '=' :: quote.char :: (value.toList ++ [quote.char]))

theorem toList_attribute (style : Style) (a : Attribute) :
    (style.attribute a).toList =
      attributeText style.quote a.name.full (escapeValue style.quote.char a.value) := by
  simp [Style.attribute, attributeText]

/-- A key ends neither at a blank nor at an equals sign of its own; an equals sign at its start ends
nothing. -/
def IsKey (key : String) : Prop :=
  ∃ first others, key.toList = first :: others ∧ isBlank first = false ∧
    ∀ c ∈ others, c ≠ '=' ∧ isBlank c = false

theorem isKey_of_forall {key : String} (hne : key.toList ≠ [])
    (h : ∀ c ∈ key.toList, c ≠ '=' ∧ isBlank c = false) : IsKey key := by
  obtain ⟨first, others, hkey⟩ := List.exists_cons_of_ne_nil hne
  rw [hkey, List.forall_mem_cons] at h
  exact ⟨first, others, hkey, h.1.2, h.2⟩

theorem isKey_of_isChecked {q : QName} (h : q.IsChecked) : IsKey q.full := by
  obtain ⟨hne, hall⟩ := h.full
  exact isKey_of_forall hne fun c hc => ⟨Content.ne_of_not_breaksName (hall c hc) (by decide),
    Content.not_isBlank_of_not_breaksName (hall c hc)⟩

theorem not_isBlank_quote (quote : Quote) : isBlank quote.char = false := by
  cases quote <;> decide

/-- An attribute is read as it is written, unless its key has been seen and may not come again. -/
theorem readAttribute_attributeText {unique : Bool} (seen : List RawAttribute) {quote : Quote}
    {key value : String} (hk : IsKey key) (hv : quote.char ∉ value.toList)
    (hs : unique = true → key ∉ seen.map (·.key)) (offset : Nat) (rest : List Char) :
    ∃ keyOffset next, readAttribute unique seen offset (attributeText quote key value ++ rest) =
      .ok (some (⟨key, keyOffset, value⟩, next, rest)) := by
  obtain ⟨first, others, hkey, hfirst, hall⟩ := hk
  have hspell : String.ofList (first :: others) = key := by rw [← hkey, String.ofList_toList]
  have hopen : (attributeText quote key value ++ rest).span isBlank =
      ([' '], first :: (others ++ '=' :: quote.char :: (value.toList ++ quote.char :: rest))) := by
    have hspan : ([' '] ++ first ::
        (others ++ '=' :: quote.char :: (value.toList ++ quote.char :: rest))).span isBlank = _ :=
      span_append (List.forall_mem_singleton.2 (by decide))
        (by simpa using hfirst)
    simpa [attributeText, hkey] using hspan
  have hothers : (others ++ '=' :: quote.char :: (value.toList ++ quote.char :: rest)).span
      (fun c => c != '=' && !isBlank c) =
      (others, '=' :: quote.char :: (value.toList ++ quote.char :: rest)) :=
    span_append (fun c hc => by simpa using hall c hc) (by simp)
  have hequals : ('=' :: quote.char :: (value.toList ++ quote.char :: rest)).span isBlank =
      ([], '=' :: quote.char :: (value.toList ++ quote.char :: rest)) :=
    span_append (List.forall_mem_nil _) (by simpa using (by decide : isBlank '=' = false))
  have hquote : (quote.char :: (value.toList ++ quote.char :: rest)).span isBlank =
      ([], quote.char :: (value.toList ++ quote.char :: rest)) :=
    span_append (List.forall_mem_nil _) (by simpa using not_isBlank_quote quote)
  have hvalue : (value.toList ++ quote.char :: rest).span (· != quote.char) =
      (value.toList, quote.char :: rest) :=
    span_append (fun c hc => by simpa using fun he : c = quote.char => hv (he ▸ hc)) (by simp)
  have hnew : (if unique = true then seen.find? (·.key == key) else none) = none := by
    split_ifs with hu
    · rw [List.find?_eq_none]
      intro raw hm he
      exact hs hu (List.mem_map.2 ⟨raw, hm, by simpa using he⟩)
    · rfl
  have hchar : (quote.char == '"' || quote.char == '\'') = true := by cases quote <;> rfl
  simp only [readAttribute, hopen, hothers, hequals, hspell, hnew, hquote, hchar, if_true, hvalue,
    String.ofList_toList]
  exact ⟨_, _, rfl⟩

/-! ## All attributes -/

/-- Attributes as they are written, one after the other. -/
def attributesText (quote : Quote) (pairs : List (String × String)) : List Char :=
  pairs.flatMap fun (key, value) => attributeText quote key value

theorem attributesText_cons (quote : Quote) (key value : String) (pairs : List (String × String)) :
    attributesText quote ((key, value) :: pairs) =
      attributeText quote key value ++ attributesText quote pairs :=
  List.flatMap_cons

theorem attributesText_append (quote : Quote) (pairs pairs' : List (String × String)) :
    attributesText quote (pairs ++ pairs') =
      attributesText quote pairs ++ attributesText quote pairs' :=
  List.flatMap_append

/-- Attributes that are read carry what has been written. -/
theorem readAttributes_attributesText {unique : Bool} {quote : Quote}
    {pairs : List (String × String)} (hk : ∀ p ∈ pairs, IsKey p.1 ∧ quote.char ∉ p.2.toList)
    (seen : List RawAttribute)
    (hs : unique = true → (seen.map (·.key) ++ pairs.map (·.1)).Nodup) {bound : Nat}
    (hb : pairs.length < bound) (offset : Nat) : ∃ raws,
      readAttributes unique bound seen offset (attributesText quote pairs) =
        (seen.reverse ++ raws, none) ∧ raws.map (fun raw => (raw.key, raw.value)) = pairs := by
  induction pairs generalizing seen bound offset with
  | nil =>
    obtain ⟨bound, rfl⟩ : ∃ n, bound = n + 1 := ⟨bound - 1, by omega⟩
    refine ⟨[], ?_, rfl⟩
    simp [attributesText, readAttributes, readAttribute, List.span_eq_takeWhile_dropWhile]
  | cons p pairs ih =>
    obtain ⟨key, value⟩ := p
    obtain ⟨hkey, hvalue⟩ := hk _ List.mem_cons_self
    rw [List.length_cons] at hb
    obtain ⟨bound, rfl⟩ : ∃ n, bound = n + 1 := ⟨bound - 1, by omega⟩
    obtain ⟨keyOffset, next, hread⟩ := readAttribute_attributeText seen hkey hvalue
      (fun hu hm => by
        have hd := List.nodup_append.1 (hs hu)
        exact hd.2.2 key hm key (by simp) rfl) offset (attributesText quote pairs)
    obtain ⟨raws, hr, hp⟩ := ih (fun p hm => hk p (List.mem_cons_of_mem _ hm))
      (⟨key, keyOffset, value⟩ :: seen)
      (fun hu => (hs hu).perm (by simp)) (show pairs.length < bound by omega) next
    refine ⟨⟨key, keyOffset, value⟩ :: raws, ?_, by rw [List.map_cons, hp]⟩
    rw [attributesText_cons, readAttributes, hread]
    simp only
    rw [hr, List.reverse_cons, List.append_assoc, List.singleton_append]

/-- The attributes of a tag are those that are written in it. -/
theorem rawAttributes_attributesText {unique : Bool} {quote : Quote}
    {pairs : List (String × String)} (hk : ∀ p ∈ pairs, IsKey p.1 ∧ quote.char ∉ p.2.toList)
    (hs : unique = true → (pairs.map (·.1)).Nodup) (name : String) : ∃ raws,
      (Tag.mk name (attributesText quote pairs)).rawAttributes unique = (raws, none) ∧
        raws.map (fun raw => (raw.key, raw.value)) = pairs := by
  have hlength : pairs.length ≤ (attributesText quote pairs).length := by
    have hone : ∀ n ∈ pairs.map fun p => (attributeText quote p.1 p.2).length, 1 ≤ n := by
      intro n hn
      obtain ⟨p, -, rfl⟩ := List.mem_map.1 hn
      exact Nat.succ_pos _
    rw [attributesText, List.length_flatMap]
    simpa using List.length_le_sum_of_one_le _ hone
  obtain ⟨raws, hr, hp⟩ := readAttributes_attributesText hk [] (by simpa using hs)
    (Nat.lt_succ_of_le hlength) name.utf8ByteSize
  exact ⟨raws, hr, hp⟩

/-! ## Elements -/

/-- The tag that a style writes for an element. -/
def Style.tag (style : Style) (e : Element) : Tag :=
  ⟨e.name.full, e.attributes.flatMap fun a => (style.attribute a).toList⟩

/-- The keys and values that a style writes for attributes. -/
def Style.pairs (style : Style) (attributes : List Attribute) : List (String × String) :=
  attributes.map fun a => (a.name.full, escapeValue style.quote.char a.value)

theorem rest_tag (style : Style) (e : Element) :
    (style.tag e).rest = attributesText style.quote (style.pairs e.attributes) := by
  simp only [Style.tag, attributesText, Style.pairs, List.flatMap_map, toList_attribute]

theorem mapM_resolve {style : Style} {attributes : List Attribute}
    (hc : ∀ a ∈ attributes, a.name.IsRead) {raws : List RawAttribute}
    (h : raws.map (fun raw => (raw.key, raw.value)) = style.pairs attributes) :
    raws.mapM RawAttribute.resolve = .ok attributes := by
  induction attributes generalizing raws with
  | nil =>
    obtain rfl := List.map_eq_nil_iff.1 h
    rfl
  | cons a attributes ih =>
    obtain ⟨raw, raws, rfl, ha, hrest⟩ := List.map_eq_cons_iff.1 h
    obtain ⟨hkey, hvalue⟩ := Prod.mk.inj ha
    have hresolve : raw.resolve = .ok a := by
      rw [RawAttribute.resolve, hkey, hvalue, expand_escapeValue]
      have hname : QName.ofString a.name.full = a.name := hc a List.mem_cons_self
      simp only [Attribute.ofStrings, hname]
    rw [List.mapM_cons, hresolve, ih (fun b hb => hc b (List.mem_cons_of_mem _ hb)) hrest]
    rfl

theorem isKeyed_of_isChecked {e : Element} (h : e.IsChecked) : e.IsKeyed IsKey where
  name := h.name.ofString_full
  read a ha := (h.attributes a ha).ofString_full
  allowed a ha := isKey_of_isChecked (h.attributes a ha)
  distinct := h.distinct

/-- The tag that is written for an element describes this element, if its attributes are named by
keys. -/
theorem element_tag_of_isKeyed {e : Element} (h : e.IsKeyed IsKey) (style : Style) :
    (style.tag e).element = .ok e := by
  have hkeys : ∀ p ∈ style.pairs e.attributes, IsKey p.1 ∧ style.quote.char ∉ p.2.toList := by
    intro p hp
    obtain ⟨a, ha, rfl⟩ := List.mem_map.1 hp
    exact ⟨h.allowed a ha, not_mem_escapeValue style.quote a.value⟩
  have hdistinct : ((style.pairs e.attributes).map (·.1)).Nodup := by
    rw [Style.pairs, List.map_map]
    exact h.nodup_full
  obtain ⟨raws, hr, hp⟩ := rawAttributes_attributesText hkeys (fun _ => hdistinct) e.name.full
  have htag : style.tag e = ⟨e.name.full, attributesText style.quote (style.pairs e.attributes)⟩ := by
    rw [← rest_tag]
    rfl
  have hname : QName.ofString e.name.full = e.name := h.name
  rw [htag, Tag.element, hr]
  simp only [mapM_resolve h.read hp, bind, Except.bind, hname]

theorem element_tag {e : Element} (h : e.IsChecked) (style : Style) :
    (style.tag e).element = .ok e :=
  element_tag_of_isKeyed (isKeyed_of_isChecked h) style

/-! ## Declarations -/

/-- The keys and values that are written in an XML declaration. -/
def declarationPairs (declaration : XmlDeclaration) : List (String × String) :=
  ("version", declaration.version) ::
    ((declaration.encoding.map fun encoding => ("encoding", encoding)).toList ++
      (declaration.standalone.map fun alone => ("standalone", if alone then "yes" else "no")).toList)

/-- The tag that is written for an XML declaration. -/
def declarationTag (declaration : XmlDeclaration) : Tag :=
  ⟨"xml", attributesText .double (declarationPairs declaration)⟩

theorem toList_writeDeclaration (declaration : XmlDeclaration) :
    (writeDeclaration declaration).toList =
      '<' :: '?' :: 'x' :: 'm' :: 'l' :: ((declarationTag declaration).rest ++ ['?', '>']) := by
  obtain ⟨version, encoding, standalone⟩ := declaration
  have hencoding : ((encoding.map fun encoding => " encoding=\"" ++ encoding ++ "\"").getD "").toList =
      attributesText .double (encoding.map fun encoding => ("encoding", encoding)).toList := by
    cases encoding with
    | none => rfl
    | some encoding => simp [attributesText, attributeText, Quote.char]
  have hstandalone : ((standalone.map fun alone =>
      if alone then " standalone=\"yes\"" else " standalone=\"no\"").getD "").toList =
      attributesText .double
        (standalone.map fun alone => ("standalone", if alone then "yes" else "no")).toList := by
    rcases standalone with _ | _ | _ <;> rfl
  have hwrite : writeDeclaration ⟨version, encoding, standalone⟩ =
      "<?xml version=\"" ++ version ++ "\"" ++
        (encoding.map fun encoding => " encoding=\"" ++ encoding ++ "\"").getD "" ++
        (standalone.map fun alone =>
          if alone then " standalone=\"yes\"" else " standalone=\"no\"").getD "" ++ "?>" := by
    cases encoding <;> rcases standalone with _ | _ | _ <;> rfl
  rw [hwrite, declarationTag, declarationPairs]
  simp only [attributesText_cons, attributesText_append, ← hencoding, ← hstandalone]
  simp [attributeText, Quote.char]

/-- A declaration states at most these keys, each with a value that may stand between quotes. -/
theorem of_mem_declarationPairs {declaration : XmlDeclaration} (h : declaration.IsQuotable)
    {p : String × String} (hp : p ∈ declarationPairs declaration) :
    p.1 ∈ ["version", "encoding", "standalone"] ∧ IsQuotable p.2 := by
  simp only [declarationPairs, List.mem_cons, List.mem_append, Option.mem_toList,
    Option.map_eq_some_iff] at hp
  rcases hp with rfl | ⟨encoding, he, rfl⟩ | ⟨alone, -, rfl⟩
  · exact ⟨by simp, h.version⟩
  · exact ⟨by simp, h.encoding encoding he⟩
  · refine ⟨by simp, ?_⟩
    unfold IsQuotable
    cases alone <;> exact ⟨by decide, by decide⟩

theorem isKey_of_mem {key : String} (h : key ∈ ["version", "encoding", "standalone"]) :
    IsKey key := by
  simp only [List.mem_cons, List.not_mem_nil, or_false] at h
  rcases h with rfl | rfl | rfl
  · exact isKey_of_forall (by decide) (List.forall_iff_forall_mem.1 (by decide))
  · exact isKey_of_forall (by decide) (List.forall_iff_forall_mem.1 (by decide))
  · exact isKey_of_forall (by decide) (List.forall_iff_forall_mem.1 (by decide))

theorem find?_map_value {raws : List RawAttribute} {pairs : List (String × String)}
    (h : raws.map (fun raw => (raw.key, raw.value)) = pairs) (key : String) :
    (raws.find? (·.key == key)).map (·.value) = (pairs.find? (·.1 == key)).map (·.2) := by
  subst h
  rw [List.find?_map, Option.map_map]
  rfl

/-- The tag that is written for an XML declaration states this declaration. -/
theorem declarationOf_tag {declaration : XmlDeclaration} (h : declaration.IsQuotable) :
    Builder.declarationOf (declarationTag declaration) = .ok declaration := by
  have hkeys : ∀ p ∈ declarationPairs declaration, IsKey p.1 ∧ Quote.double.char ∉ p.2.toList := by
    intro p hp
    obtain ⟨hkey, hvalue⟩ := of_mem_declarationPairs h hp
    exact ⟨isKey_of_mem hkey, hvalue.1⟩
  obtain ⟨raws, hr, hp⟩ := rawAttributes_attributesText hkeys
    (fun hu : false = true => absurd hu (by simp)) "xml"
  have hversion : Builder.declaredVersion (declarationTag declaration) = .ok declaration.version := by
    obtain ⟨raw, others, rfl, hfirst, -⟩ := List.map_eq_cons_iff.1 hp
    obtain ⟨hkey, hvalue⟩ := Prod.mk.inj hfirst
    rw [Builder.declaredVersion, declarationTag, hr]
    simp only [hkey, hvalue, if_true]
  have hstated := find?_map_value hp
  rw [Builder.declarationOf, hversion, declarationTag, hr]
  obtain ⟨version, encoding, standalone⟩ := declaration
  simp only [bind, Except.bind, hstated, declarationPairs]
  rcases encoding with _ | encoding <;> rcases standalone with _ | _ | _ <;> rfl

end SvgPress.Markup
