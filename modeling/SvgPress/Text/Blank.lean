/-!
# Blank characters

Two notions of blank meet in a drawing. Markup knows four blanks (space, tab, line feed and carriage
return); every other space is content. Values inside attributes are trimmed by the wider Unicode
property `White_Space`. Both come with the trimming of text they induce.
-/

namespace SvgPress.Text

/-- The four blanks of markup: space, tab, line feed and carriage return. -/
def isBlank (c : Char) : Bool :=
  c == ' ' || c == '\t' || c == '\n' || c == '\r'

/-- The Unicode property `White_Space`. -/
def isSpace (c : Char) : Bool :=
  (0x09 ≤ c.toNat && c.toNat ≤ 0x0D) || c.toNat == 0x20 || c.toNat == 0x85 || c.toNat == 0xA0 ||
    c.toNat == 0x1680 || (0x2000 ≤ c.toNat && c.toNat ≤ 0x200A) || c.toNat == 0x2028 ||
    c.toNat == 0x2029 || c.toNat == 0x202F || c.toNat == 0x205F || c.toNat == 0x3000

/-- Every blank of markup is white space. -/
theorem isSpace_of_isBlank {c : Char} (h : isBlank c = true) : isSpace c = true := by
  simp only [isBlank, Bool.or_eq_true, beq_iff_eq] at h
  rcases h with ((rfl | rfl) | rfl) | rfl <;> decide

/-- Drop the characters of a class from the end of a text. -/
def dropTail (p : Char → Bool) (cs : List Char) : List Char :=
  (cs.reverse.dropWhile p).reverse

/-- Drop the characters of a class from both ends of a text. -/
def strip (p : Char → Bool) (cs : List Char) : List Char :=
  dropTail p (cs.dropWhile p)

/-- Drop the characters of a class from both ends of a string. -/
def stripString (p : Char → Bool) (s : String) : String :=
  String.ofList (strip p s.toList)

/-- A string without the markup blanks at its ends. -/
def trimBlanks (s : String) : String :=
  stripString isBlank s

/-- A string without the white space at its ends. -/
def trimSpace (s : String) : String :=
  stripString isSpace s

/-- Whether a text holds markup blanks only; the empty text does. -/
def allBlank (s : String) : Bool :=
  s.toList.all isBlank

end SvgPress.Text
