/-!
# Cutting text

Cuts of a text at a character or at a marker, and its length in UTF-8 bytes. All functions work on
lists of characters; positions and sizes that the library reports are byte counts, and
`byteLength` is where they come from. Each cut comes with the law that says what it gives.
-/

namespace SvgPress.Text

/-- The number of bytes that a text takes in UTF-8. -/
def byteLength (cs : List Char) : Nat :=
  cs.foldl (fun n c => n + c.utf8Size) 0

/-- Counting on from a number of bytes adds the length. -/
theorem foldl_utf8Size (n : Nat) (cs : List Char) :
    cs.foldl (fun n c => n + c.utf8Size) n = n + byteLength cs := by
  induction cs generalizing n with
  | nil => rfl
  | cons c rest ih =>
    simp only [byteLength, List.foldl_cons] at ih ⊢
    rw [ih, ih (0 + c.utf8Size)]
    omega

/-- The empty text takes no bytes. -/
@[simp] theorem byteLength_nil : byteLength [] = 0 := rfl

/-- The first character and the rest take their bytes one after the other. -/
@[simp] theorem byteLength_cons (c : Char) (rest : List Char) :
    byteLength (c :: rest) = c.utf8Size + byteLength rest := by
  rw [byteLength, List.foldl_cons, foldl_utf8Size, Nat.zero_add]

/-- Two texts take their bytes one after the other. -/
@[simp] theorem byteLength_append (cs ds : List Char) :
    byteLength (cs ++ ds) = byteLength cs + byteLength ds := by
  simp only [byteLength, List.foldl_append]
  rw [foldl_utf8Size]
  rfl

/-- The text before and after the first occurrence of a character, if it occurs. -/
def splitFirst (sep : Char) : List Char → Option (List Char × List Char)
  | [] => none
  | c :: rest =>
    if c = sep then some ([], rest)
    else (splitFirst sep rest).map fun (before, after) => (c :: before, after)

/-- There is no cut exactly where the character does not occur. -/
theorem splitFirst_eq_none_iff {sep : Char} {cs : List Char} :
    splitFirst sep cs = none ↔ sep ∉ cs := by
  induction cs with
  | nil => simp [splitFirst]
  | cons c rest ih =>
    by_cases h : c = sep
    · simp [splitFirst, h]
    · simp [splitFirst, h, ih, Ne.symm h]

/-- The cut is at the first occurrence of the character, and nothing else is lost. -/
theorem splitFirst_eq_some_iff {sep : Char} {cs before after : List Char} :
    splitFirst sep cs = some (before, after) ↔ cs = before ++ sep :: after ∧ sep ∉ before := by
  induction cs generalizing before with
  | nil => simp [splitFirst]
  | cons c rest ih =>
    by_cases h : c = sep
    · subst h
      cases before with
      | nil => simp [splitFirst, eq_comm]
      | cons d before =>
        simp only [splitFirst, if_true, List.cons_append, List.cons.injEq, List.mem_cons, not_or]
        constructor
        · simp
        · rintro ⟨⟨rfl, -⟩, h, -⟩
          exact absurd rfl h
    · cases before with
      | nil => simp [splitFirst, h]
      | cons d before =>
        simp only [splitFirst, if_neg h, Option.map_eq_some_iff, Prod.exists, Prod.mk.injEq,
          List.cons.injEq, List.cons_append, List.mem_cons, not_or]
        constructor
        · rintro ⟨b, a, hb, ⟨rfl, rfl⟩, rfl⟩
          obtain ⟨rfl, hn⟩ := ih.1 hb
          exact ⟨⟨rfl, rfl⟩, Ne.symm h, hn⟩
        · rintro ⟨⟨rfl, rfl⟩, -, hn⟩
          exact ⟨before, after, ih.2 ⟨rfl, hn⟩, ⟨rfl, rfl⟩, rfl⟩

/-- The pieces between the occurrences of a character; there is always at least one. -/
def pieces (sep : Char) : List Char → List (List Char)
  | [] => [[]]
  | c :: rest =>
    if c = sep then [] :: pieces sep rest
    else match pieces sep rest with
      | [] => [[c]]
      | piece :: others => (c :: piece) :: others

/-- There is at least one piece. -/
theorem pieces_ne_nil (sep : Char) (cs : List Char) : pieces sep cs ≠ [] := by
  cases cs with
  | nil => simp [pieces]
  | cons c rest =>
    simp only [pieces]
    split
    · simp
    · split <;> simp

/-- The character occurs in no piece. -/
theorem not_mem_of_mem_pieces {sep : Char} {cs piece : List Char}
    (h : piece ∈ pieces sep cs) : sep ∉ piece := by
  induction cs generalizing piece with
  | nil => simp_all [pieces]
  | cons c rest ih =>
    simp only [pieces] at h
    split at h
    · rcases List.mem_cons.1 h with rfl | h
      · simp
      · exact ih h
    · rename_i hc
      split at h
      · obtain rfl := List.mem_singleton.1 h
        simpa using Ne.symm hc
      · rename_i first others hp
        rw [hp] at ih
        rcases List.mem_cons.1 h with rfl | h
        · simp only [List.mem_cons, not_or]
          exact ⟨Ne.symm hc, ih List.mem_cons_self⟩
        · exact ih (List.mem_cons_of_mem _ h)

/-- The pieces with the character between them are the text. -/
theorem intercalate_pieces (sep : Char) (cs : List Char) :
    [sep].intercalate (pieces sep cs) = cs := by
  induction cs with
  | nil => simp [pieces]
  | cons c rest ih =>
    simp only [pieces]
    split
    · rename_i h
      subst h
      cases hp : pieces c rest with
      | nil => exact absurd hp (pieces_ne_nil c rest)
      | cons first others => rw [hp] at ih; simp [List.intercalate_cons_cons, ih]
    · split
      · rename_i hp
        exact absurd hp (pieces_ne_nil sep rest)
      · rename_i first others hp
        rw [hp] at ih
        cases others with
        | nil => simp_all
        | cons second others => simp_all [List.intercalate_cons_cons]

/-- What follows a marker at the start of a text. -/
def after? : (marker : List Char) → List Char → Option (List Char)
  | [], cs => some cs
  | _ :: _, [] => none
  | m :: marker, c :: rest => if m = c then after? marker rest else none

/-- Something follows the marker exactly where the text starts with it. -/
theorem after?_eq_some_iff {marker cs rest : List Char} :
    after? marker cs = some rest ↔ cs = marker ++ rest := by
  induction marker generalizing cs with
  | nil => simp [after?]
  | cons m marker ih =>
    cases cs with
    | nil => simp [after?]
    | cons c cs =>
      by_cases h : m = c
      · simp [after?, h, ih]
      · simp [after?, h, Ne.symm h]

/-- The text before and after the first occurrence of a marker, if it occurs. -/
def cutAt (marker : List Char) : List Char → Option (List Char × List Char)
  | [] => (after? marker []).map fun rest => ([], rest)
  | c :: cs =>
    match after? marker (c :: cs) with
    | some rest => some ([], rest)
    | none => (cutAt marker cs).map fun (before, rest) => (c :: before, rest)

/-- A cut at a marker loses nothing but the marker. -/
theorem eq_append_of_cutAt {marker cs before rest : List Char}
    (h : cutAt marker cs = some (before, rest)) : cs = before ++ (marker ++ rest) := by
  induction cs generalizing before with
  | nil =>
    simp only [cutAt, Option.map_eq_some_iff, Prod.mk.injEq] at h
    obtain ⟨_, h, rfl, rfl⟩ := h
    simpa using after?_eq_some_iff.1 h
  | cons c cs ih =>
    simp only [cutAt] at h
    split at h
    · rename_i found
      obtain ⟨rfl, rfl⟩ := Prod.mk.inj (Option.some.inj h)
      simpa using after?_eq_some_iff.1 found
    · simp only [Option.map_eq_some_iff, Prod.exists, Prod.mk.injEq] at h
      obtain ⟨b, r, h, rfl, rfl⟩ := h
      simp [ih h]

/-- Whether a marker occurs in a text. -/
def contains (marker : List Char) (cs : List Char) : Bool :=
  (cutAt marker cs).isSome

/-- A marker occurs in a text exactly where it is a stretch of it. -/
theorem contains_iff_infix {marker cs : List Char} :
    contains marker cs = true ↔ marker <:+: cs := by
  constructor
  · intro h
    obtain ⟨⟨before, rest⟩, h⟩ := Option.isSome_iff_exists.1 h
    exact ⟨before, rest, by rw [eq_append_of_cutAt h, List.append_assoc]⟩
  · rintro ⟨before, rest, rfl⟩
    induction before with
    | nil =>
      have h : after? marker (marker ++ rest) = some rest := after?_eq_some_iff.2 rfl
      cases hm : marker ++ rest with
      | nil => simp_all [contains, cutAt]
      | cons c cs => simp_all [contains, cutAt]
    | cons b before ih =>
      simp only [contains, List.cons_append, cutAt] at ih ⊢
      split
      · rfl
      · simpa using ih

/-- An ASCII letter in lower case, any other character unchanged. -/
def lowerAscii (cs : List Char) : List Char :=
  cs.map Char.toLower

/-- A character of the decimal digits `0` to `9`. -/
def isDigit (c : Char) : Bool :=
  '0' ≤ c && c ≤ '9'

end SvgPress.Text
