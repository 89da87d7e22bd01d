import Mathlib.Data.String.Basic
import Mathlib.Tactic.SplitIfs

/-!
# Texts and their bytes

Texts are compared character by character. Their bytes in UTF-8 compare in the same way: the greater
one of two characters has a greater first byte, or the bytes in front agree and the next one is
greater, so that it does not matter what follows.
-/

namespace SvgPress.Text

/-- The bytes of a text in UTF-8. -/
def bytes (s : String) : List UInt8 :=
  s.toUTF8.data.toList

theorem bytes_eq (s : String) : bytes s = s.toList.flatMap String.utf8EncodeChar := by
  rw [bytes, String.toUTF8, ← String.utf8Encode_toList, List.utf8Encode,
    List.toList_data_toByteArray]

/-! ## Bytes that precede others -/

/-- Bytes come before other bytes, whatever follows either. -/
def Precedes (l l' : List UInt8) : Prop :=
  ∀ after after', l ++ after < l' ++ after'

variable {l l' : List UInt8} {m n mark mark' bound bound' k k' : Nat}

theorem precedes_cons {b b' : UInt8} (h : b < b') (l l' : List UInt8) :
    Precedes (b :: l) (b' :: l') :=
  fun _ _ => List.cons_lt_cons_iff.2 (.inl h)

theorem Precedes.append_right (h : Precedes l l') (next next' : List UInt8) :
    Precedes (l ++ next) (l' ++ next') := by
  intro after after'
  rw [List.append_assoc, List.append_assoc]
  exact h _ _

theorem Precedes.append_left (front : List UInt8) (h : Precedes l l') :
    Precedes (front ++ l) (front ++ l') := by
  intro after after'
  rw [List.append_assoc, List.append_assoc]
  exact List.append_left_lt (h after after')

theorem ofNat_lt_ofNat (h : m < n) (hn : n < 256) : UInt8.ofNat m < UInt8.ofNat n := by
  rw [UInt8.lt_iff_toNat_lt, UInt8.toNat_ofNat_of_lt' (Nat.lt_trans h hn),
    UInt8.toNat_ofNat_of_lt' hn]
  exact h

/-! ## Characters -/

/-- A number in bytes: the last bits in `k` bytes of six bits each, and those before them in a first
byte, which has room for `bound` values and is told from other bytes by a mark. -/
def marked (mark bound : Nat) : (k : Nat) → Nat → List UInt8
  | 0, n => [UInt8.ofNat (n % bound + mark)]
  | k + 1, n => marked mark bound k (n / 64) ++ [UInt8.ofNat (n % 64 + 128)]

/-- Numbers that fit into equally many bytes. -/
theorem precedes_marked (hmark : mark + bound ≤ 256) (h : m < n) (hn : n < bound * 64 ^ k) :
    Precedes (marked mark bound k m) (marked mark bound k n) := by
  induction k generalizing m n with
  | zero =>
    rw [Nat.pow_zero, Nat.mul_one] at hn
    rw [marked, marked, Nat.mod_eq_of_lt (Nat.lt_trans h hn), Nat.mod_eq_of_lt hn]
    exact precedes_cons (ofNat_lt_ofNat (by omega) (by omega)) [] []
  | succ k ih =>
    rw [marked, marked]
    rcases Nat.lt_or_ge (m / 64) (n / 64) with hlt | hge
    · have hfits : n / 64 < bound * 64 ^ k := by
        rw [Nat.div_lt_iff_lt_mul (by decide), Nat.mul_assoc, ← Nat.pow_succ]
        exact hn
      exact (ih hlt hfits).append_right _ _
    · -- All bits but the last six are the same.
      obtain ⟨hsame, hlast⟩ : m / 64 = n / 64 ∧ m % 64 < n % 64 := by omega
      rw [hsame]
      exact .append_left _ (precedes_cons (ofNat_lt_ofNat (by omega) (by omega)) [] [])

theorem exists_marked_eq_cons (mark : Nat) (hb : 0 < bound) (k n : Nat) : ∃ i rest,
    marked mark bound k n = UInt8.ofNat (i + mark) :: rest ∧ i < bound := by
  induction k generalizing n with
  | zero => exact ⟨n % bound, [], rfl, Nat.mod_lt n hb⟩
  | succ k ih =>
    obtain ⟨i, rest, h, hi⟩ := ih (n / 64)
    exact ⟨i, _, by rw [marked, h, List.cons_append], hi⟩

/-- Numbers that are marked otherwise. -/
theorem precedes_of_mark_lt (hb : 0 < bound) (hb' : 0 < bound') (hmark : mark + bound ≤ mark')
    (hmark' : mark' + bound' ≤ 256) (m n : Nat) :
    Precedes (marked mark bound k m) (marked mark' bound' k' n) := by
  obtain ⟨i, rest, h, hi⟩ := exists_marked_eq_cons mark hb k m
  obtain ⟨j, rest', h', hj⟩ := exists_marked_eq_cons mark' hb' k' n
  rw [h, h']
  exact precedes_cons (ofNat_lt_ofNat (by omega) (by omega)) rest rest'

theorem utf8EncodeChar_eq_marked (c : Char) : String.utf8EncodeChar c =
    if c.toNat ≤ 127 then marked 0 128 0 c.toNat
    else if c.toNat ≤ 2047 then marked 192 32 1 c.toNat
    else if c.toNat ≤ 65535 then marked 224 16 2 c.toNat
    else marked 240 8 3 c.toNat := by
  have hone : c.val.toNat ≤ 127 → c.val.toNat % 128 = c.val.toNat := by omega
  simp only [String.utf8EncodeChar, marked, Char.toNat, Nat.div_div_eq_div_mul, List.cons_append,
    List.nil_append, Nat.reduceMul]
  split_ifs with h
  · rw [hone h]
    rfl
  · rfl
  · rfl
  · rfl

/-- A character precedes all greater ones in bytes. -/
theorem precedes_utf8EncodeChar {c d : Char} (h : c < d) :
    Precedes (String.utf8EncodeChar c) (String.utf8EncodeChar d) := by
  have hlt : c.toNat < d.toNat := h
  have hd : d.toNat < 2097152 := by
    rcases d.valid with hd | ⟨-, hd⟩ <;> exact Nat.lt_trans hd (by decide)
  rw [utf8EncodeChar_eq_marked, utf8EncodeChar_eq_marked]
  generalize c.toNat = m at hlt ⊢
  generalize d.toNat = n at hlt hd ⊢
  -- The greater number takes as many bytes as the smaller one, or more of them.
  split_ifs <;> try omega
  · exact precedes_marked (by decide) hlt (by omega)
  · exact precedes_of_mark_lt (by decide) (by decide) (by decide) (by decide) m n
  · exact precedes_of_mark_lt (by decide) (by decide) (by decide) (by decide) m n
  · exact precedes_of_mark_lt (by decide) (by decide) (by decide) (by decide) m n
  · exact precedes_marked (by decide) hlt (by omega)
  · exact precedes_of_mark_lt (by decide) (by decide) (by decide) (by decide) m n
  · exact precedes_of_mark_lt (by decide) (by decide) (by decide) (by decide) m n
  · exact precedes_marked (by decide) hlt (by omega)
  · exact precedes_of_mark_lt (by decide) (by decide) (by decide) (by decide) m n
  · exact precedes_marked (by decide) hlt (by omega)

/-! ## Texts -/

theorem flatMap_utf8EncodeChar_lt {cs ds : List Char} (h : cs < ds) :
    cs.flatMap String.utf8EncodeChar < ds.flatMap String.utf8EncodeChar := by
  induction ds generalizing cs with
  | nil => exact absurd h (List.not_lt_nil cs)
  | cons d ds ih =>
    cases cs with
    | nil =>
      rw [List.flatMap_nil, List.flatMap_cons]
      cases he : String.utf8EncodeChar d with
      | nil => exact absurd he String.utf8EncodeChar_ne_nil
      | cons b rest => exact List.nil_lt_cons b _
    | cons c cs =>
      rw [List.flatMap_cons, List.flatMap_cons]
      rcases List.cons_lt_cons_iff.1 h with hlt | ⟨rfl, hlt⟩
      · exact precedes_utf8EncodeChar hlt _ _
      · exact List.append_left_lt (ih hlt)

/-- Comparing texts compares their bytes. -/
theorem bytes_lt_iff {s t : String} : bytes s < bytes t ↔ s < t := by
  have hmono : ∀ {s t : String}, s < t → bytes s < bytes t := by
    intro s t h
    rw [bytes_eq, bytes_eq]
    exact flatMap_utf8EncodeChar_lt (String.lt_iff_toList_lt.1 h)
  refine ⟨fun h => ?_, hmono⟩
  rcases lt_trichotomy s t with hlt | rfl | hgt
  · exact hlt
  · exact absurd h (List.lt_irrefl _)
  · exact absurd h (List.lt_asymm (hmono hgt))

end SvgPress.Text
