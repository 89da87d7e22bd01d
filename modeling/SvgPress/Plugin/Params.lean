import SvgPress.Toml.Value
import SvgPress.Error

/-!
# Plugin parameters

The parameters of a plugin are a table of configuration values. Each getter gives the parameter of a
key, a default where the key is absent, and an error that names the key and both types where the
value is of another type.
-/

namespace SvgPress

/-- The parameters of a plugin. -/
structure Params where
  /-- The values by key. -/
  table : Toml.Table

namespace Params

/-- No parameters. -/
def empty : Params := ⟨[]⟩

/-- Whether there are no parameters. -/
def isEmpty (p : Params) : Bool :=
  p.table.isEmpty

/-- The value of a key. -/
def get? (p : Params) (key : String) : Option Toml.Value :=
  p.table.get? key

/-- Give a key a value. -/
def set (p : Params) (key : String) (value : Toml.Value) : Params :=
  ⟨p.table.insert key value⟩

/-- The error of a value of another type. -/
def wrongType (key expected : String) (found : Toml.Value) : ConfigError :=
  .wrongType key expected found.typeName

/-- A boolean. -/
def bool (p : Params) (key : String) (default : Bool) : Except ConfigError Bool :=
  match p.get? key with
  | none => .ok default
  | some (.boolean b) => .ok b
  | some other => .error (wrongType key "a boolean" other)

/-- A natural number. -/
def nat (p : Params) (key : String) (default : Nat) : Except ConfigError Nat :=
  match p.get? key with
  | none => .ok default
  | some (.integer n) =>
    if 0 ≤ n then .ok n.toNat
    else .error (wrongType key "a non-negative integer" (.integer n))
  | some other => .error (wrongType key "a non-negative integer" other)

/-- A natural number below 256. -/
def byte (p : Params) (key : String) (default : Nat) : Except ConfigError Nat := do
  let n ← p.nat key default
  if n < 256 then return n else .error (.tooLarge key)

/-- A string, if the key is there. -/
def string? (p : Params) (key : String) : Except ConfigError (Option String) :=
  match p.get? key with
  | none => .ok none
  | some (.string s) => .ok (some s)
  | some other => .error (wrongType key "a string" other)

/-- A list of strings; one string is a list of its own. -/
def strings (p : Params) (key : String) : Except ConfigError (List String) :=
  match p.get? key with
  | none => .ok []
  | some (.string s) => .ok [s]
  | some (.array items) => items.mapM fun
    | .string s => .ok s
    | other => .error (wrongType key "a list of strings" other)
  | some other => .error (wrongType key "a list of strings" other)

/-- A table, if the key is there. -/
def table? (p : Params) (key : String) : Except ConfigError (Option Toml.Table) :=
  match p.get? key with
  | none => .ok none
  | some (.table entries) => .ok (some entries)
  | some other => .error (wrongType key "a table" other)

end Params

end SvgPress
