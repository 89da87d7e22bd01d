import SvgPress.Markup.Entity
import SvgPress.Markup.Writer
import Mathlib.Tactic.Common

/-!
# Escaped text is expanded to itself

What is written for a character, as it is or as a reference, is read as this character wherever it
stands. So escaping is undone by expanding, in text and in attribute values of either quote; and
what is escaped holds none of the characters that would end it.
-/

namespace SvgPress.Markup

open SvgPress.Text

/-- A text that is read as one character, whatever stands around it. -/
def StandsFor (text : List Char) (c : Char) : Prop :=
  ∀ total position rest, ∃ position',
    expandFrom total position none (text ++ rest) =
      (expandFrom total position' none rest).map (c :: ·)

theorem standsFor_self {c : Char} (h : c ≠ '&') : StandsFor [c] c := by
  intro total position rest
  refine ⟨position + c.utf8Size, ?_⟩
  rw [List.singleton_append, expandFrom, if_neg h]
  cases expandFrom total (position + c.utf8Size) none rest <;> rfl

/-- A name of a reference is read up to the semicolon. -/
theorem expandFrom_name (total start : Nat) {name : List Char} (hsemicolon : ';' ∉ name)
    (hamp : '&' ∉ name) (read rest : List Char) (position : Nat) : ∃ stop,
      expandFrom total position (some (start, read)) (name ++ ';' :: rest) = (do
        let resolved ← resolve (start + 1) stop (read.reverse ++ name)
        let expanded ← expandFrom total (stop + ';'.utf8Size) none rest
        return resolved :: expanded) := by
  induction name generalizing read position with
  | nil => exact ⟨position, by rw [List.nil_append, expandFrom, if_pos rfl, List.append_nil]⟩
  | cons x name ih =>
    rw [List.mem_cons, not_or] at hsemicolon hamp
    obtain ⟨stop, hs⟩ := ih hsemicolon.2 hamp.2 (x :: read) (position + x.utf8Size)
    refine ⟨stop, ?_⟩
    rw [List.cons_append, expandFrom, if_neg (Ne.symm hsemicolon.1), if_neg (Ne.symm hamp.1), hs,
      List.reverse_cons, List.append_assoc, List.singleton_append]

theorem standsFor_reference (name : List Char) {c : Char} (hsemicolon : ';' ∉ name)
    (hamp : '&' ∉ name) (hr : ∀ start stop, resolve start stop name = .ok c) :
    StandsFor ('&' :: (name ++ [';'])) c := by
  intro total position rest
  obtain ⟨stop, hs⟩ :=
    expandFrom_name total position hsemicolon hamp [] rest (position + '&'.utf8Size)
  refine ⟨stop + ';'.utf8Size, ?_⟩
  rw [List.cons_append, List.append_assoc, List.singleton_append, expandFrom, if_pos rfl, hs,
    List.reverse_nil, List.nil_append, hr]
  cases expandFrom total (stop + ';'.utf8Size) none rest <;> rfl

theorem expandFrom_flatMap {write : Char → List Char} {cs : List Char}
    (h : ∀ c ∈ cs, StandsFor (write c) c) (total position : Nat) :
    expandFrom total position none (cs.flatMap write) = .ok cs := by
  induction cs generalizing position with
  | nil => rfl
  | cons c cs ih =>
    obtain ⟨position', hp⟩ := h c List.mem_cons_self total position (cs.flatMap write)
    rw [List.flatMap_cons, hp, ih fun x hx => h x (List.mem_cons_of_mem _ hx)]
    rfl

theorem toList_foldl_append {α : Type} (write : α → String) (as : List α) (out : String) :
    (as.foldl (fun out a => out ++ write a) out).toList =
      out.toList ++ as.flatMap fun a => (write a).toList := by
  induction as generalizing out with
  | nil => simp
  | cons a as ih => rw [List.foldl_cons, ih, String.toList_append, List.flatMap_cons,
      List.append_assoc]

/-! ## Text without references -/

theorem expand_eq_self {s : String} (h : '&' ∉ s.toList) : expand s = .ok s := by
  have hs : ∀ c ∈ s.toList, StandsFor [c] c := fun c hc => standsFor_self fun he => h (he ▸ hc)
  have hexpand := expandFrom_flatMap hs s.utf8ByteSize 0
  rw [List.flatMap_singleton'] at hexpand
  rw [expand, hexpand]
  simp [Except.map]

/-! ## Escaped text -/

theorem toList_escapeText (s : String) :
    (escapeText s).toList = s.toList.flatMap fun c => (escapeTextChar c).toList := by
  rw [escapeText, toList_foldl_append]
  rfl

theorem toList_escapeValue (quote : Char) (s : String) :
    (escapeValue quote s).toList = s.toList.flatMap fun c => (escapeValueChar quote c).toList := by
  rw [escapeValue, toList_foldl_append]
  rfl

theorem standsFor_escapeTextChar (c : Char) : StandsFor (escapeTextChar c).toList c := by
  unfold escapeTextChar
  split_ifs with hamp hlt hgt
  · subst hamp
    exact standsFor_reference ['a', 'm', 'p'] (by decide) (by decide) fun _ _ => rfl
  · subst hlt
    exact standsFor_reference ['l', 't'] (by decide) (by decide) fun _ _ => rfl
  · subst hgt
    exact standsFor_reference ['g', 't'] (by decide) (by decide) fun _ _ => rfl
  · simpa using standsFor_self hamp

theorem standsFor_escapeValueChar (quote : Quote) (c : Char) :
    StandsFor (escapeValueChar quote.char c).toList c := by
  unfold escapeValueChar
  split_ifs with hquote hdouble
  · subst hdouble
    exact standsFor_reference ['q', 'u', 'o', 't'] (by decide) (by decide) fun _ _ => rfl
  · obtain rfl : c = '\'' := by
      cases quote with
      | double => exact absurd hquote hdouble
      | single => exact hquote
    exact standsFor_reference ['a', 'p', 'o', 's'] (by decide) (by decide) fun _ _ => rfl
  · exact standsFor_escapeTextChar c

/-- Expanding undoes escaping in text. -/
theorem expand_escapeText (s : String) : expand (escapeText s) = .ok s := by
  rw [expand, toList_escapeText, expandFrom_flatMap fun c _ => standsFor_escapeTextChar c]
  simp [Except.map]

/-- Expanding undoes escaping in attribute values. -/
theorem expand_escapeValue (quote : Quote) (s : String) :
    expand (escapeValue quote.char s) = .ok s := by
  rw [expand, toList_escapeValue, expandFrom_flatMap fun c _ => standsFor_escapeValueChar quote c]
  simp [Except.map]

theorem not_mem_escapeTextChar (c : Char) : '<' ∉ (escapeTextChar c).toList := by
  unfold escapeTextChar
  split_ifs with hamp hlt hgt
  · decide
  · decide
  · decide
  · simpa using Ne.symm hlt

theorem eq_char_of_mem_escapeTextChar {quote : Quote} {c : Char}
    (h : quote.char ∈ (escapeTextChar c).toList) : c = quote.char := by
  unfold escapeTextChar at h
  split_ifs at h
  · exact absurd h (by cases quote <;> decide)
  · exact absurd h (by cases quote <;> decide)
  · exact absurd h (by cases quote <;> decide)
  · exact Eq.symm (by simpa using h)

theorem not_mem_escapeValueChar (quote : Quote) (c : Char) :
    quote.char ∉ (escapeValueChar quote.char c).toList := by
  unfold escapeValueChar
  split_ifs with hquote
  · cases quote <;> decide
  · cases quote <;> decide
  · exact fun h => hquote (eq_char_of_mem_escapeTextChar h)

/-- Escaped text holds no character that starts markup. -/
theorem not_mem_escapeText (s : String) : '<' ∉ (escapeText s).toList := by
  rw [toList_escapeText]
  intro h
  obtain ⟨c, -, hc⟩ := List.mem_flatMap.1 h
  exact not_mem_escapeTextChar c hc

/-- An escaped attribute value does not end its quotes. -/
theorem not_mem_escapeValue (quote : Quote) (s : String) :
    quote.char ∉ (escapeValue quote.char s).toList := by
  rw [toList_escapeValue]
  intro h
  obtain ⟨c, -, hc⟩ := List.mem_flatMap.1 h
  exact not_mem_escapeValueChar quote c hc

end SvgPress.Markup
