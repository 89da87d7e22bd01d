import SvgPress.Toml.Parser

/-!
# Settled values

Values as parameters hold them: the entries of every table are in the order of their keys, and a
table that starts with the key of times is the time that the text under that key spells. Such a
table is also the written form of a time standing alone.
-/

namespace SvgPress.Toml

/-! ## Times as texts -/

/-- A time of day as a text may spell it; the hour may be 24. -/
def readSpelledTime (cs : List Char) : Option (Time × List Char) := do
  let (hour, rest) ← readFixed 2 cs
  let (minute, rest) ← readFixed 2 (← expect ':' rest)
  let (second, rest) ← readFixed 2 (← expect ':' rest)
  if hour ≤ 24 && minute ≤ 59 && second ≤ 60 then
    let (nanosecond, rest) := readNanoseconds rest
    return (⟨hour, minute, second, nanosecond⟩, rest)
  else none

/-- An offset of at most a day that a whole text spells, if the text is not empty. -/
def spelledOffset? (cs : List Char) : Option (Option Offset) :=
  match cs with
  | [] => some none
  | ['Z'] | ['z'] => some (some .universal)
  | sign :: rest => do
    let (hours, rest) ← readFixed 2 rest
    let (minutes, rest) ← readFixed 2 (← expect ':' rest)
    let total : Int := hours * 60 + minutes
    if !rest.isEmpty || 24 * 60 < total then none
    else if sign = '+' then return some (.minutes total)
    else if sign = '-' then return some (.minutes (-total))
    else none

/-- The date, the time, or both that a whole text spells. -/
def DateTime.ofString? (s : String) : Option DateTime :=
  let cs := s.toList
  if cs[2]? = some ':' then do
    let (time, rest) ← readSpelledTime cs
    if rest.isEmpty then return ⟨none, some time, none⟩ else none
  else do
    let (date, rest) ← readDate cs
    match rest with
    | [] => return ⟨some date, none, none⟩
    | between :: rest =>
      if between = 'T' || between = 't' || between = ' ' then
        let (time, rest) ← readSpelledTime rest
        let offset ← spelledOffset? rest
        return ⟨some date, some time, offset⟩
      else none

/-! ## Values -/

mutual

/-- A value with settled tables, unless a table that starts with the key of times spells none. -/
def Value.settle : Value → Option Value
  | .array items => (settleItems items).map .array
  | .table [] => some (.table [])
  | .table ((key, value) :: rest) =>
    if key = datetimeKey then (value.string?.bind DateTime.ofString?).map .datetime
    else (settleEntries ((key, value) :: rest)).map fun entries => .table (Table.ofList entries)
  | scalar => some scalar

/-- Settle the items of an array. -/
def settleItems : List Value → Option (List Value)
  | [] => some []
  | item :: rest => do return (← item.settle) :: (← settleItems rest)

/-- Settle the values of entries. -/
def settleEntries : List (String × Value) → Option (List (String × Value))
  | [] => some []
  | (key, value) :: rest => do return (key, ← value.settle) :: (← settleEntries rest)

end

/-- A table with settled values, in the order of its keys. -/
def Table.settle (table : Table) : Option Table :=
  (settleEntries table).map ofList

end SvgPress.Toml
