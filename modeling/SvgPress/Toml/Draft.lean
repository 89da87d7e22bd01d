import SvgPress.Toml.Value

/-!
# Tables under construction

While a configuration is read, its tables remember how they came about, because that decides what
may still be added to them: a table may be opened by one header only, headers may go through tables
that other headers or dotted keys have made on the way, and a dotted key may only end in a table
that dotted keys have made. Whatever would define a key twice is refused.
-/

namespace SvgPress.Toml

/-- What a key of a table under construction stands for. -/
inductive Draft where
  /-- A finished value. -/
  | value (v : Value)
  /-- A table; `implicit` if no header has opened it, `dotted` if a dotted key has made it. -/
  | table (implicit dotted : Bool) (entries : List (String × Draft))
  /-- An array of tables that headers have opened, the last one first. -/
  | tables (items : List (List (String × Draft)))

namespace Draft

/-- The entries of a table under construction. -/
abbrev Entries := List (String × Draft)

/-- Change what a key stands for; `f` is given what it stands for now. -/
def update (key : String) (f : Option Draft → Option Draft) : Entries → Option Entries
  | [] => (f none).map fun draft => [(key, draft)]
  | (other, draft) :: rest =>
    if other = key then (f (some draft)).map fun draft => (other, draft) :: rest
    else (update key f rest).map ((other, draft) :: ·)

/-- Enter the table of a key and go on there; a table on the way is made if it is missing. -/
def enter (dotted : Bool) (inside : Entries → Option Entries) : Option Draft → Option Draft
  | none => (inside []).map (.table true dotted)
  | some (.value _) => none
  | some (.table implicit wasDotted entries) =>
    if dotted && !implicit then none else (inside entries).map (.table implicit wasDotted)
  | some (.tables []) => none
  | some (.tables (last :: earlier)) => (inside last).map fun last => .tables (last :: earlier)

/-- Give a key in the table that a path leads to a value. The table that a path ends in must have
been made by dotted keys. -/
def put (key : String) (v : Value) : (path : List String) → Entries → Option Entries
  | [], entries => update key (fun old => if old.isSome then none else some (.value v)) entries
  | step :: path, entries =>
    update step (fun old =>
      match old with
      | some (.table _ false _) | some (.tables _) =>
        if path.isEmpty then none else enter true (put key v path) old
      | _ => enter true (put key v path) old) entries

/-- Open the table that a path leads to, as a header does. -/
def openTable : (path : List String) → Entries → Option Entries
  | [], entries => some entries
  | [key], entries =>
    update key (fun old =>
      match old with
      | none => some (.table false false [])
      | some (.table true false entries) => some (.table false false entries)
      | _ => none) entries
  | step :: path, entries => update step (enter false (openTable path)) entries

/-- Open another table of the array that a path leads to, as a header with two brackets does. -/
def openNext : (path : List String) → Entries → Option Entries
  | [], entries => some entries
  | [key], entries =>
    update key (fun old =>
      match old with
      | none => some (.tables [[]])
      | some (.tables items) => some (.tables ([] :: items))
      | _ => none) entries
  | step :: path, entries => update step (enter false (openNext path)) entries

/-- Give a key in the table opened last a value; `opened` is the path of its header. -/
def putUnder (opened : List String) (path : List String) (key : String) (v : Value) :
    Entries → Option Entries :=
  match opened with
  | [] => put key v path
  | step :: opened => update step (enter false (putUnder opened path key v))

mutual

/-- The value of a finished draft, its tables in the order of the text. -/
def finish : Draft → Value
  | .value v => v
  | .table _ _ entries => .table (finishEntries entries)
  | .tables items => .array (finishTables items).reverse

/-- The values of finished tables. -/
def finishTables : List (List (String × Draft)) → List Value
  | [] => []
  | entries :: rest => .table (finishEntries entries) :: finishTables rest

/-- The values of finished entries. -/
def finishEntries : List (String × Draft) → List (String × Value)
  | [] => []
  | (key, draft) :: rest => (key, draft.finish) :: finishEntries rest

end

end Draft

end SvgPress.Toml
