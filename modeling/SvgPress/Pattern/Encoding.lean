import SvgPress.Unicode.CharSet

/-!
# Ranges of encoded characters

The UTF-8 encodings of the characters of a range, as sequences of byte ranges: a text of bytes
encodes a character of the range if each byte is in the range at its place in one of the sequences.
The sequences are in increasing order.
-/

namespace SvgPress.Pattern

open Unicode

/-- The bytes between two, both included. -/
structure ByteRange where
  low : Nat
  high : Nat
deriving DecidableEq

/-- The bytes of a code point. -/
def encodedBytes (code : Nat) : List Nat :=
  (String.utf8EncodeChar (Char.ofNat code)).map (·.toNat)

/-- The byte ranges between the encodings of two code points of one length. -/
def byteRanges (low high : Nat) : List ByteRange :=
  List.zipWith ByteRange.mk (encodedBytes low) (encodedBytes high)

/-- Cut a range of code points after each of some bounds that lie in it. -/
def cutAfter : (bounds : List Nat) → (low high : Nat) → List (Nat × Nat)
  | [], low, high => [(low, high)]
  | bound :: bounds, low, high =>
    if low ≤ bound && bound < high then (low, bound) :: cutAfter bounds (bound + 1) high
    else cutAfter bounds low high

/-- The ranges of code points with encodings of one length: surrogates fall out, and the length
grows after 0x7F, 0x7FF and 0xFFFF. -/
def ofOneLength (low high : Nat) : List (Nat × Nat) :=
  let withoutSurrogates :=
    if low < 0xE000 && 0xD7FF < high then [(low, 0xD7FF), (0xE000, high)] else [(low, high)]
  withoutSurrogates.flatMap fun (low, high) => cutAfter [0x7F, 0x7FF, 0xFFFF] low high

/-- Cut a range of code points into blocks whose encodings are all sequences of some byte ranges.
The ends of the range lie at multiples of `size`, and `levels` greater sizes are left to look at,
each 64 times the one before. -/
def cutIntoBlocks : (levels size : Nat) → (low high : Nat) → List (Nat × Nat)
  | 0, _, low, high => [(low, high)]
  | levels + 1, size, low, high =>
    let size := size * 64
    if low / size = high / size then [(low, high)]
    else
      let (head, low) :=
        if low % size = 0 then ([], low)
        else ([(low, (low / size + 1) * size - 1)], (low / size + 1) * size)
      if low / size = high / size then head ++ [(low, high)]
      else if high % size = size - 1 then head ++ cutIntoBlocks levels size low high
      else
        let last := high / size * size
        head ++ cutIntoBlocks levels size low (last - 1) ++ [(last, high)]

/-- The sequences of byte ranges that encode the characters of a range. -/
def encodings (r : CharRange) : List (List ByteRange) :=
  (ofOneLength r.low.toNat r.high.toNat).flatMap fun (low, high) =>
    let blocks := if high < 0x80 then [(low, high)] else cutIntoBlocks 3 1 low high
    blocks.map fun (low, high) => byteRanges low high

end SvgPress.Pattern
