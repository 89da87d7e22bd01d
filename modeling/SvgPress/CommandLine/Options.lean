import SvgPress.Config
import SvgPress.Text.Split

/-!
# Command-line options

Options are written `--name value`, `--name=value`, `-n value`, `-nvalue` or `-n=value`; letters of
switches can be joined. A value that follows as an argument of its own does not start with a minus,
unless it is one. Every option but the two lists stands at most once. After `--` nothing is an
option.
-/

namespace SvgPress.CommandLine

/-- What a command line asks for. -/
structure Options where
  /-- The file to read; a minus stands for standard input. -/
  input : String := "-"
  /-- The file to write; a minus stands for standard output. -/
  output : String := "-"
  /-- The configuration file. -/
  config : Option String := none
  /-- Whether to repeat passes. -/
  multipass : Bool := false
  /-- Whether elements stand on lines of their own. -/
  pretty : Bool := false
  /-- The number of spaces for each level of nesting. -/
  indent : Option Nat := none
  /-- The number of decimal places in path data. -/
  precision : Option Nat := none
  /-- Plugins that are switched off. -/
  disabled : List String := []
  /-- Plugins that are switched on. -/
  enabled : List String := []
  /-- Whether to list the plugins instead. -/
  listPlugins : Bool := false
  /-- Whether to report sizes. -/
  stats : Bool := false
  /-- Whether to report what plugins say. -/
  verbose : Bool := false

/-- The name of an option. -/
inductive Key where
  | input
  | output
  | config
  | multipass
  | pretty
  | indent
  | precision
  | disable
  | enable
  | listPlugins
  | stats
  | verbose
  | help
  | version
deriving DecidableEq

/-- Why there are no options to run with. -/
inductive Stop where
  /-- The version is asked for. -/
  | version
  /-- Help is asked for. -/
  | help
  /-- The command line is malformed. -/
  | misuse
deriving DecidableEq

/-! ## Declarations -/

/-- How an option is declared. -/
structure Declaration where
  /-- The letter that stands for it. -/
  letter : Option Char := none
  /-- Its long name. The input has none: it is an argument by itself. -/
  name : Option String := none
  /-- What its value is called, if it has one. -/
  value : Option String := none
  /-- Whether it may stand more than once. -/
  repeats : Bool := false
  /-- What is told about it. -/
  purpose : String

namespace Key

/-- The options, in the order in which they are told about. -/
def all : List Key :=
  [input, output, config, multipass, pretty, indent, precision, disable, enable, listPlugins, stats,
    verbose, help, version]

/-- The declaration of an option. -/
def declaration : Key → Declaration
  | input =>
    { value := some "INPUT", purpose := "Input file (use - for stdin) [default: -]" }
  | output =>
    { letter := some 'o', name := some "output", value := some "OUTPUT"
      purpose := "Output file (use - for stdout) [default: -]" }
  | config =>
    { letter := some 'c', name := some "config", value := some "CONFIG"
      purpose := "TOML configuration file" }
  | multipass =>
    { letter := some 'm', name := some "multipass"
      purpose := "Repeat optimization until the output stops shrinking" }
  | pretty =>
    { name := some "pretty", purpose := "Pretty-print the output" }
  | indent =>
    { name := some "indent", value := some "INDENT"
      purpose := "Indentation width for pretty output" }
  | precision =>
    { letter := some 'p', name := some "precision", value := some "PRECISION"
      purpose := "Precision for path coordinates (decimal places)" }
  | disable =>
    { name := some "disable", value := some "NAME", repeats := true
      purpose := "Disable a plugin (repeatable)" }
  | enable =>
    { name := some "enable", value := some "NAME", repeats := true
      purpose := "Enable a plugin (repeatable)" }
  | listPlugins =>
    { name := some "list-plugins", purpose := "List the available plugins and exit" }
  | stats =>
    { letter := some 's', name := some "stats", purpose := "Print size comparison" }
  | verbose =>
    { letter := some 'v', name := some "verbose", purpose := "Log each pass" }
  | help =>
    { letter := some 'h', name := some "help", purpose := "Print help" }
  | version =>
    { letter := some 'V', name := some "version", purpose := "Print version" }

/-- The option of a long name. -/
def ofName? (name : String) : Option Key :=
  all.find? (·.declaration.name == some name)

/-- The option of a letter. -/
def ofLetter? (letter : Char) : Option Key :=
  all.find? (·.declaration.letter == some letter)

/-- Whether an option has a value. -/
def takesValue (key : Key) : Bool :=
  key.declaration.value.isSome

/-- Whether an option may stand more than once. -/
def repeats (key : Key) : Bool :=
  key.declaration.repeats

theorem mem_all (key : Key) : key ∈ all := by
  cases key <;> decide

/-- Look-up in the declarations by something that is declared of one option only. -/
theorem find?_all_eq_some_iff {α : Type} [DecidableEq α] {declared : Key → Option α} {a : α}
    {key : Key}
    (hone : ∀ k ∈ all, ∀ k' ∈ all, declared k = declared k' → declared k ≠ none → k = k') :
    all.find? (declared · == some a) = some key ↔ declared key = some a := by
  constructor
  · intro hfind
    simpa using List.find?_some hfind
  · intro hkey
    cases hfind : all.find? (declared · == some a) with
    | none => simpa [hkey] using List.find?_eq_none.1 hfind key (mem_all key)
    | some found =>
      have hfound : declared found = some a := by simpa using List.find?_some hfind
      rw [hone found (mem_all found) key (mem_all key) (hfound.trans hkey.symm) (by simp [hfound])]

/-- A long name stands for the option that declares it. -/
theorem ofName?_eq_some_iff {name : String} {key : Key} :
    ofName? name = some key ↔ key.declaration.name = some name :=
  find?_all_eq_some_iff (by decide)

/-- A letter stands for the option that declares it. -/
theorem ofLetter?_eq_some_iff {letter : Char} {key : Key} :
    ofLetter? letter = some key ↔ key.declaration.letter = some letter :=
  find?_all_eq_some_iff (by decide)

end Key

/-! ## Values -/

/-- A number below a limit; a plus sign may precede it. -/
def natBelow (limit : Nat) (s : String) : Option Nat :=
  let digits := match s.toList with
    | '+' :: rest => rest
    | cs => cs
  if digits.isEmpty || !digits.all Text.isDigit then none
  else some (Decimal.natOfDigits digits) |>.filter (· < limit)

/-- A number below 256; zero may also be negative. -/
def byte (s : String) : Option Nat :=
  match s.toList with
  | '-' :: rest => (natBelow 1 (String.ofList rest)).filter fun _ => rest.head? != some '+'
  | _ => natBelow 256 s

/-- A path, which is not empty. -/
def path (s : String) : Option String :=
  if s.isEmpty then none else some s

/-- The options with a value of an option. -/
def Options.setValue (o : Options) (key : Key) (value : String) : Option Options :=
  match key with
  | .input => (path value).map fun input => { o with input }
  | .output => (path value).map fun output => { o with output }
  | .config => (path value).map fun config => { o with config := some config }
  | .indent => (natBelow (Nat.pow 2 64) value).map fun indent => { o with indent := some indent }
  | .precision => (byte value).map fun precision => { o with precision := some precision }
  | .disable => some { o with disabled := o.disabled ++ [value] }
  | .enable => some { o with enabled := o.enabled ++ [value] }
  | _ => none

/-- The options with a switch turned on. -/
def Options.turnOn (o : Options) (key : Key) : Except Stop Options :=
  match key with
  | .multipass => .ok { o with multipass := true }
  | .pretty => .ok { o with pretty := true }
  | .listPlugins => .ok { o with listPlugins := true }
  | .stats => .ok { o with stats := true }
  | .verbose => .ok { o with verbose := true }
  | .version => .error .version
  | .help => .error .help
  | _ => .error .misuse

/-! ## Arguments -/

/-- What is known after some arguments. -/
structure Progress where
  /-- The options so far. -/
  options : Options := {}
  /-- The options that have been given. -/
  given : List Key := []

namespace Progress

/-- Note that an option is given. -/
def mark (p : Progress) (key : Key) : Except Stop Progress :=
  if p.given.contains key && !key.repeats then .error .misuse
  else .ok { p with given := key :: p.given }

/-- Take in an option with its value. -/
def withValue (p : Progress) (key : Key) (value : String) : Except Stop Progress := do
  let p ← p.mark key
  match p.options.setValue key value with
  | some options => return { p with options }
  | none => .error .misuse

/-- Take in a switch. -/
def withSwitch (p : Progress) (key : Key) : Except Stop Progress := do
  let options ← p.options.turnOn key
  let p ← p.mark key
  return { p with options }

/-- Take in joined letters. Gives the option whose value is still to come, if there is one. -/
def withLetters (p : Progress) : List Char → Except Stop (Progress × Option Key)
  | [] => .ok (p, none)
  | letter :: rest =>
    match Key.ofLetter? letter with
    | none => .error .misuse
    | some key =>
      if key.takesValue then
        match rest with
        | [] => .ok (p, some key)
        | '=' :: value => (p.withValue key (String.ofList value)).map (·, none)
        | value => (p.withValue key (String.ofList value)).map (·, none)
      else do
        let p ← p.withSwitch key
        withLetters p rest

/-- Take in what follows two minuses. Gives the option whose value is still to come, if there is
one. -/
def withName (p : Progress) (text : List Char) : Except Stop (Progress × Option Key) :=
  let (name, value) := match Text.splitFirst '=' text with
    | some (name, value) => (name, some value)
    | none => (text, none)
  match Key.ofName? (String.ofList name) with
  | none => .error .misuse
  | some key =>
    match key.takesValue, value with
    | true, some value => (p.withValue key (String.ofList value)).map (·, none)
    | true, none => .ok (p, some key)
    | false, some _ => .error .misuse
    | false, none => (p.withSwitch key).map (·, none)

end Progress

/-- Read arguments. `pending` is the option whose value is still to come; with `plain`, no argument
is an option. -/
def readArguments (p : Progress) (pending : Option Key) (plain : Bool) :
    List String → Except Stop Options
  | [] => if pending.isSome then .error .misuse else .ok p.options
  | argument :: rest =>
    match pending, plain, argument.toList with
    | none, false, ['-', '-'] => readArguments p none true rest
    | none, false, '-' :: '-' :: text => do
      let (p, pending) ← p.withName text
      readArguments p pending false rest
    | none, false, '-' :: first :: letters => do
      let (p, pending) ← p.withLetters (first :: letters)
      readArguments p pending false rest
    | some _, _, '-' :: _ :: _ => .error .misuse
    | some key, _, _ => do
      let p ← p.withValue key argument
      readArguments p none plain rest
    | none, _, _ => do
      let p ← p.withValue .input argument
      readArguments p none plain rest

/-- The options that a command line asks for. -/
def Options.ofArguments (arguments : List String) : Except Stop Options :=
  readArguments {} none false arguments

/-! ## Adjusting configurations -/

/-- Change the first entry of a name; a new entry of that name goes last. -/
def adjustEntry (name : String) (f : PluginEntry → PluginEntry) :
    List PluginEntry → List PluginEntry
  | [] => [f { name }]
  | entry :: rest =>
    if entry.name = name then f entry :: rest else entry :: adjustEntry name f rest

/-- Give the plugin for path data a number of decimal places. -/
def setPrecision (precision : Nat) (entry : PluginEntry) : PluginEntry :=
  { entry with params := entry.params.set "precision" (.integer precision) }

/-- A configuration with the options of a command line. Switching off counts for more than switching
on, and a precision switches nothing. -/
def Options.adjust (o : Options) (c : Config) : Config :=
  let enabled := o.enabled.foldl (fun entries name =>
    adjustEntry name (fun entry => { entry with enabled := true }) entries) c.plugins
  let disabled := o.disabled.foldl (fun entries name =>
    adjustEntry name (fun entry => { entry with enabled := false }) entries) enabled
  let plugins := match o.precision with
    | some precision => adjustEntry "convertPathData" (setPrecision precision) disabled
    | none => disabled
  { c with
    multipass := c.multipass || o.multipass
    style := { c.style with
      pretty := c.style.pretty || o.pretty
      indent := o.indent.getD c.style.indent }
    plugins }

end SvgPress.CommandLine
