import SvgPress.Text.Blank
import SvgPress.Text.Split
import Mathlib.Data.List.TakeDrop
import Mathlib.Data.List.TakeWhile

/-!
# Where text is cut

What stands before a marker is found again when it is written in front of it, as long as the marker
does not begin earlier. Trimming a text that is trimmed changes nothing.
-/

namespace SvgPress.Text

variable {α : Type}

/-- A stretch of a class ends where the first element of another class follows. -/
theorem span_append {p : α → Bool} {before rest : List α} (hb : ∀ x ∈ before, p x = true)
    (hr : ∀ x ∈ rest.head?, p x = false) : (before ++ rest).span p = (before, rest) := by
  rw [List.span_eq_takeWhile_dropWhile, List.takeWhile_append_of_pos hb,
    List.dropWhile_append_of_pos hb]
  cases rest with
  | nil => simp
  | cons x rest =>
    have hx : ¬ p x = true := by simp [hr x rfl]
    rw [List.takeWhile_cons_of_neg hx, List.dropWhile_cons_of_neg hx, List.append_nil]

theorem cutAt_self (marker rest : List Char) :
    cutAt marker (marker ++ rest) = some ([], rest) := by
  have h : after? marker (marker ++ rest) = some rest := after?_eq_some_iff.2 rfl
  cases hm : marker ++ rest with
  | nil => rw [hm] at h; simp [cutAt, h]
  | cons c cs => rw [hm] at h; simp [cutAt, h]

/-- A marker whose last character occurs in it only there cannot begin in the text before it and end
in the marker itself. -/
theorem after?_eq_none {body before : List Char} {last b : Char} (hl : last ∉ body)
    (hm : ¬ body ++ [last] <:+: b :: before) (rest : List Char) :
    after? (body ++ [last]) (b :: before ++ (body ++ [last] ++ rest)) = none := by
  rw [← Option.not_isSome_iff_eq_none, Option.isSome_iff_exists]
  rintro ⟨r, hr⟩
  rw [after?_eq_some_iff] at hr
  rcases List.append_eq_append_iff.1 hr with ⟨t, ht, hr⟩ | ⟨t, ht, -⟩
  · -- The marker begins before its place: then its last character stands among the others.
    rcases List.eq_nil_or_concat t with rfl | ⟨t, x, rfl⟩
    · exact hm ⟨[], [], by simpa using ht⟩
    · rw [List.concat_eq_append, ← List.append_assoc] at ht
      obtain ⟨hbody, hlast⟩ := List.append_inj' ht rfl
      obtain rfl := List.singleton_inj.1 hlast
      have hlen : t.length < body.length := by
        rw [hbody, List.length_append, List.length_cons]
        omega
      have hget := congrArg (fun l => l[t.length]?) hr
      simp only [List.concat_eq_append, List.append_assoc, List.getElem?_append_left hlen,
        List.getElem?_append_right (Nat.le_refl _), Nat.sub_self, List.singleton_append,
        List.getElem?_cons_zero] at hget
      exact hl (List.mem_of_getElem? hget)
  · exact hm ⟨[], t, by rw [ht]; rfl⟩

/-- A text that does not hold a marker is what stands before the marker that follows it. -/
theorem cutAt_append (body : List Char) (last : Char) {before : List Char} (hl : last ∉ body)
    (hm : contains (body ++ [last]) before = false) (rest : List Char) :
    cutAt (body ++ [last]) (before ++ (body ++ [last] ++ rest)) = some (before, rest) := by
  rw [← Bool.not_eq_true, contains_iff_infix] at hm
  induction before with
  | nil => exact cutAt_self _ rest
  | cons b before ih =>
    have hnone := after?_eq_none hl hm rest
    rw [List.cons_append] at hnone ⊢
    rw [cutAt, hnone]
    simp only
    rw [ih fun h => hm (h.trans (List.suffix_cons b before).isInfix)]
    rfl

/-- A marker does not begin in a text without its first character. -/
theorem contains_append {m : Char} {marker before : List Char} (h : m ∉ before) (rest : List Char) :
    contains (m :: marker) (before ++ rest) = contains (m :: marker) rest := by
  induction before with
  | nil => rfl
  | cons b before ih =>
    simp only [List.mem_cons, not_or] at h
    rw [contains, List.cons_append, cutAt, after?, if_neg h.1]
    simp only [Option.isSome_map]
    exact ih h.2

/-- A marker does not reach over a character that it does not hold. -/
theorem contains_append_cons {marker : List Char} {c : Char} (h : c ∉ marker)
    (before rest : List Char) :
    contains marker (before ++ c :: rest) = (contains marker before || contains marker rest) := by
  have hnone : ∀ {m : List Char}, m <+: c :: rest → c ∉ m → m = [] := by
    intro m hm hc
    rcases List.prefix_cons_iff.1 hm with rfl | ⟨t, rfl, -⟩
    · rfl
    · exact absurd List.mem_cons_self hc
  rw [Bool.eq_iff_iff, Bool.or_eq_true, contains_iff_infix, contains_iff_infix, contains_iff_infix,
    List.infix_append_iff, List.infix_cons_iff]
  constructor
  · rintro (hb | (hp | hr) | ⟨m, m', rfl, hs, hp⟩)
    · exact .inl hb
    · exact .inl (hnone hp h ▸ List.nil_infix)
    · exact .inr hr
    · obtain rfl := hnone hp fun hm => h (List.mem_append_right m hm)
      exact .inl (by simpa using hs.isInfix)
  · rintro (hb | hr)
    · exact .inl hb
    · exact .inr (.inl (.inr hr))

/-- A text that does not hold a marker holds it in none of its parts. -/
theorem contains_of_isInfix {marker cs ds : List Char} (h : contains marker ds = false)
    (hi : cs <:+: ds) : contains marker cs = false := by
  rw [← Bool.not_eq_true, contains_iff_infix] at h ⊢
  exact fun hm => h (hm.trans hi)

/-- What stands before the first occurrence of a marker does not hold it. -/
theorem contains_of_cutAt {marker cs before rest : List Char}
    (h : cutAt marker cs = some (before, rest)) (hne : marker ≠ []) :
    contains marker before = false := by
  rw [← Bool.not_eq_true, contains_iff_infix]
  induction cs generalizing before with
  | nil =>
    simp only [cutAt, Option.map_eq_some_iff, Prod.mk.injEq] at h
    obtain ⟨-, -, rfl, -⟩ := h
    exact fun hm => hne (List.infix_nil.1 hm)
  | cons c cs ih =>
    rw [cutAt] at h
    split at h
    · obtain ⟨rfl, -⟩ := Prod.mk.inj (Option.some.inj h)
      exact fun hm => hne (List.infix_nil.1 hm)
    · rename_i hnone
      simp only [Option.map_eq_some_iff, Prod.exists, Prod.mk.injEq] at h
      obtain ⟨b, r, hcut, rfl, rfl⟩ := h
      rw [List.infix_cons_iff, not_or]
      refine ⟨fun hp => ?_, ih hcut⟩
      -- A marker at the start of what stands before the cut would have been the cut.
      obtain ⟨t, ht⟩ := hp
      have hafter : after? marker (c :: cs) = some (t ++ (marker ++ r)) := by
        rw [after?_eq_some_iff, eq_append_of_cutAt hcut, ← List.cons_append, ← ht,
          List.append_assoc]
      rw [hafter] at hnone
      simp at hnone

/-! ## Trimming -/

theorem dropTail_eq_self {p : Char → Bool} {cs : List Char} (h : ∀ c ∈ cs.getLast?, p c = false) :
    dropTail p cs = cs := by
  rcases List.eq_nil_or_concat cs with rfl | ⟨cs, c, rfl⟩
  · rfl
  · rw [List.concat_eq_append] at h ⊢
    have hc : ¬ p c = true := by simp [h c (by simp)]
    rw [dropTail, List.reverse_append, List.reverse_singleton, List.singleton_append,
      List.dropWhile_cons_of_neg hc, List.reverse_cons, List.reverse_reverse]

theorem dropTail_sublist (p : Char → Bool) (cs : List Char) : (dropTail p cs).Sublist cs := by
  rw [dropTail, ← List.reverse_sublist, List.reverse_reverse]
  exact (List.dropWhile_suffix p).sublist

theorem not_of_mem_head?_dropWhile {p : Char → Bool} {cs : List Char} :
    ∀ c ∈ (cs.dropWhile p).head?, p c = false := by
  intro c hc
  have hnot := List.head?_dropWhile_not p cs
  rw [Option.mem_def.1 hc] at hnot
  simpa using hnot

/-- A stripped text begins outside of the class. -/
theorem head?_strip (p : Char → Bool) (cs : List Char) :
    ∀ c ∈ (strip p cs).head?, p c = false := by
  intro c hc
  have hfront : strip p cs <+: cs.dropWhile p := by
    rw [strip, dropTail, ← List.reverse_suffix, List.reverse_reverse]
    exact List.dropWhile_suffix p
  obtain ⟨rest, hrest⟩ := List.head?_eq_some_iff.1 hc
  rw [hrest] at hfront
  obtain ⟨after, hafter⟩ := hfront
  exact not_of_mem_head?_dropWhile c (by rw [← hafter]; rfl)

/-- A stripped text ends outside of the class. -/
theorem getLast?_strip (p : Char → Bool) (cs : List Char) :
    ∀ c ∈ (strip p cs).getLast?, p c = false := by
  intro c hc
  rw [strip, dropTail, List.getLast?_reverse] at hc
  exact not_of_mem_head?_dropWhile c hc

/-- The stripped texts are those that begin and end outside of the class. -/
theorem strip_eq_self_iff {p : Char → Bool} {cs : List Char} : strip p cs = cs ↔
    (∀ c ∈ cs.head?, p c = false) ∧ ∀ c ∈ cs.getLast?, p c = false := by
  refine ⟨fun h => h ▸ ⟨head?_strip p cs, getLast?_strip p cs⟩, fun ⟨hhead, hlast⟩ => ?_⟩
  have hfront : cs.dropWhile p = cs := by
    cases cs with
    | nil => rfl
    | cons c cs => exact List.dropWhile_cons_of_neg (by simp [hhead c rfl])
  rw [strip, hfront, dropTail_eq_self hlast]

theorem head?_of_strip_eq_self {p : Char → Bool} {cs : List Char} (h : strip p cs = cs) :
    ∀ c ∈ cs.head?, p c = false :=
  (strip_eq_self_iff.1 h).1

theorem strip_strip (p : Char → Bool) (cs : List Char) : strip p (strip p cs) = strip p cs :=
  strip_eq_self_iff.2 ⟨head?_strip p cs, getLast?_strip p cs⟩

theorem strip_eq_self {p : Char → Bool} {cs : List Char} (h : ∀ c ∈ cs, p c = false) :
    strip p cs = cs :=
  strip_eq_self_iff.2 ⟨fun c hc => h c (List.mem_of_mem_head? hc),
    fun c hc => h c (List.mem_of_getLast? hc)⟩

/-- A text that is trimmed of one class is trimmed of every smaller one. -/
theorem strip_eq_self_of_imp {p q : Char → Bool} {cs : List Char}
    (hq : ∀ c, q c = true → p c = true) (h : strip p cs = cs) : strip q cs = cs := by
  have hnot : ∀ c, p c = false → q c = false := fun c hp =>
    Bool.eq_false_iff.2 fun hc => Bool.false_ne_true (hp.symm.trans (hq c hc))
  obtain ⟨hhead, hlast⟩ := strip_eq_self_iff.1 h
  exact strip_eq_self_iff.2 ⟨fun c hc => hnot c (hhead c hc), fun c hc => hnot c (hlast c hc)⟩

theorem trimSpace_trimSpace (s : String) : trimSpace (trimSpace s) = trimSpace s := by
  simp only [trimSpace, stripString, String.toList_ofList, strip_strip]

/-! ## What is left of a text -/

/-- Trimming cuts a text of the class off at both ends. -/
theorem exists_append_strip (p : Char → Bool) (cs : List Char) : ∃ before after,
    cs = before ++ strip p cs ++ after ∧ (∀ c ∈ before, p c = true) ∧ ∀ c ∈ after, p c = true := by
  refine ⟨cs.takeWhile p, ((cs.dropWhile p).reverse.takeWhile p).reverse, ?_,
    fun c hc => List.mem_takeWhile_imp hc,
    fun c hc => List.mem_takeWhile_imp (List.mem_reverse.1 hc)⟩
  rw [strip, dropTail, List.append_assoc, ← List.reverse_append, List.takeWhile_append_dropWhile,
    List.reverse_reverse, List.takeWhile_append_dropWhile]

theorem isInfix_strip (p : Char → Bool) (cs : List Char) : strip p cs <:+: cs := by
  obtain ⟨before, after, hsplit, -⟩ := exists_append_strip p cs
  exact ⟨before, after, hsplit.symm⟩

theorem strip_sublist (p : Char → Bool) (cs : List Char) : (strip p cs).Sublist cs :=
  (isInfix_strip p cs).sublist

theorem strip_append_append {p : Char → Bool} {before after : List Char}
    (hb : ∀ c ∈ before, p c = true) (ha : ∀ c ∈ after, p c = true) (cs : List Char) :
    strip p (before ++ cs ++ after) = strip p cs := by
  have htail : ∀ ds, dropTail p (ds ++ after) = dropTail p ds := by
    intro ds
    rw [dropTail, List.reverse_append,
      List.dropWhile_append_of_pos fun c hc => ha c (List.mem_reverse.1 hc), dropTail]
  rw [strip, List.append_assoc, List.dropWhile_append_of_pos hb, List.dropWhile_append, strip]
  split_ifs with hnil
  · rw [List.isEmpty_iff] at hnil
    rw [hnil, List.dropWhile_eq_nil_iff.2 ha]
  · exact htail _

/-- What has been trimmed of a smaller class is trimmed of the larger one like the whole text. -/
theorem strip_strip_of_imp {p q : Char → Bool} (hq : ∀ c, q c = true → p c = true)
    (cs : List Char) : strip p (strip q cs) = strip p cs := by
  obtain ⟨before, after, hsplit, hb, ha⟩ := exists_append_strip q cs
  conv_rhs => rw [hsplit]
  exact (strip_append_append (fun c hc => hq c (hb c hc)) (fun c hc => hq c (ha c hc)) _).symm

/-! ## Bytes -/

theorem byteLength_toList (s : String) : byteLength s.toList = s.utf8ByteSize := by
  have hlist : ∀ cs : List Char, (String.ofList cs).utf8ByteSize = byteLength cs := by
    intro cs
    induction cs with
    | nil => rfl
    | cons c cs ih =>
      rw [String.ofList_cons, String.utf8ByteSize_append, String.utf8ByteSize_singleton, ih,
        byteLength_cons]
  rw [← hlist, String.ofList_toList]

theorem length_le_byteLength (cs : List Char) : cs.length ≤ byteLength cs := by
  induction cs with
  | nil => exact Nat.le_refl _
  | cons c cs ih =>
    have hc := c.utf8Size_pos
    rw [byteLength_cons, List.length_cons]
    omega

theorem byteLength_eq_length {cs : List Char} (h : ∀ c ∈ cs, c.utf8Size = 1) :
    byteLength cs = cs.length := by
  induction cs with
  | nil => rfl
  | cons c cs ih =>
    obtain ⟨hc, hcs⟩ := List.forall_mem_cons.1 h
    rw [byteLength_cons, hc, ih hcs, List.length_cons, Nat.add_comm]

theorem byteLength_le_of_sublist {cs ds : List Char} (h : cs.Sublist ds) :
    byteLength cs ≤ byteLength ds := by
  induction h with
  | slnil => exact Nat.le_refl _
  | cons c _ ih =>
    rw [byteLength_cons]
    exact Nat.le_add_left_of_le ih
  | cons_cons c _ ih =>
    rw [byteLength_cons, byteLength_cons]
    exact Nat.add_le_add_left ih _

end SvgPress.Text
