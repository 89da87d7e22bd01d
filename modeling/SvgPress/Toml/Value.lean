import SvgPress.Number.Binary64

/-!
# Configuration values

The values of the configuration format TOML. A table has one entry for each key. The tables of a
text come in the order of the text; once settled, tables are in the order of their keys, by code
points.
-/

namespace SvgPress.Toml

/-- A calendar date. -/
structure Date where
  year : Nat
  month : Nat
  day : Nat
deriving DecidableEq

/-- A time of day. -/
structure Time where
  hour : Nat
  minute : Nat
  second : Nat
  nanosecond : Nat
deriving DecidableEq

/-- The distance from universal time. -/
inductive Offset where
  /-- None, written `Z`. -/
  | universal
  /-- A number of minutes. -/
  | minutes (n : Int)
deriving DecidableEq

/-- A date, a time, or both; with both there may be an offset. -/
structure DateTime where
  date : Option Date
  time : Option Time
  offset : Option Offset
deriving DecidableEq

/-- A value. -/
inductive Value where
  | string (s : String)
  | integer (n : Int)
  | float (x : Binary64)
  | boolean (b : Bool)
  | datetime (t : DateTime)
  | array (items : List Value)
  /-- The entries, one for each key. -/
  | table (entries : List (String × Value))

/-- The entries of a table. -/
abbrev Table := List (String × Value)

/-- The key of the one entry of a table that stands for a time. -/
def datetimeKey : String := "$__toml_private_datetime"

namespace Table

/-- The value of a key. -/
def get? : Table → String → Option Value
  | [], _ => none
  | (other, value) :: rest, key => if other = key then some value else get? rest key

/-- Give a key of a table in the order of its keys a value. -/
def insert (key : String) (value : Value) : Table → Table
  | [] => [(key, value)]
  | (other, old) :: rest =>
    if other = key then (key, value) :: rest
    else if key < other then (key, value) :: (other, old) :: rest
    else (other, old) :: insert key value rest

/-- The table of a list of entries in the order of the keys; of two entries for one key the later
counts. -/
def ofList (entries : List (String × Value)) : Table :=
  entries.foldl (fun table (key, value) => insert key value table) []

end Table

namespace Value

/-- The name of a value's type. -/
def typeName : Value → String
  | string _ => "string"
  | integer _ => "integer"
  | float _ => "float"
  | boolean _ => "boolean"
  | datetime _ => "datetime"
  | array _ => "array"
  | table _ => "table"

/-- The text of a string. -/
def string? : Value → Option String
  | string s => some s
  | _ => none

/-- The number of an integer. -/
def integer? : Value → Option Int
  | integer n => some n
  | _ => none

/-- The truth value of a boolean. -/
def boolean? : Value → Option Bool
  | boolean b => some b
  | _ => none

/-- The entries of a table. -/
def table? : Value → Option Table
  | table entries => some entries
  | _ => none

end Value

end SvgPress.Toml
