import SvgPress.CommandLine.Options
import SvgPress.Engine

/-!
# The program

The program reads a configuration and a text, optimizes the text and writes it. It reaches files and
streams through `System` only, so that its course is a function of what they answer.
-/

namespace SvgPress.CommandLine

/-- The files and streams of a program, in a monad. -/
structure System (m : Type → Type) where
  /-- The text of a file, or why there is none. -/
  fileText : String → m (Except String String)
  /-- The text on standard input, or why there is none. -/
  inputText : m (Except String String)
  /-- Replace the text of a file. -/
  replaceFile : (path text : String) → m (Except String Unit)
  /-- Write on standard output. -/
  writeOutput : String → m Unit
  /-- Write on standard error. -/
  writeError : String → m Unit

/-- Why a program ends early. -/
inductive Failure where
  /-- The library fails. -/
  | library (e : Error)
  /-- The text cannot be read or written. -/
  | system (message : String)

/-- How a program ends. -/
inductive Ending where
  | success
  /-- The command line is malformed. -/
  | misuse
  | failed (cause : Failure)

/-- The name and version of the program. -/
def versionLine : String := "svgmill 0.1.0\n"

/-- A text with spaces after it, up to a width. -/
def padded (width : Nat) (s : String) : String :=
  s.pushn ' ' (width - s.length)

/-- How an option is written. -/
def Declaration.form (x : Declaration) : String :=
  match x.name with
  | none => "[" ++ x.value.getD "" ++ "]"
  | some name =>
    let letter := match x.letter with
      | some letter => "-" ++ letter.toString ++ ", "
      | none => "    "
    let value := match x.value with
      | some value => " <" ++ value ++ ">"
      | none => ""
    letter ++ "--" ++ name ++ value

/-- What is told about some options, a line for each, with the purposes in one column. -/
def describe (declared : List Declaration) : String :=
  let width := declared.foldl (fun width x => max width x.form.length) 0
  declared.foldl (fun out x => out ++ "  " ++ padded width x.form ++ "  " ++ x.purpose ++ "\n") ""

/-- How the program is called. -/
def usageLine : String := "Usage: svgmill [OPTIONS] [INPUT]\n"

/-- What the program tells about its use. -/
def helpText : String :=
  let (options, arguments) := (Key.all.map (·.declaration)).partition (·.name.isSome)
  "A multi-pass SVG optimizer\n\n" ++ usageLine ++ "\nArguments:\n" ++ describe arguments ++
    "\nOptions:\n" ++ describe options

/-- What the program tells when its command line is malformed. -/
def misuseText : String := usageLine ++ "\nFor more information, try '--help'.\n"

/-- The line of a plugin in the list of plugins. -/
def pluginLine (p : Plugin) : String :=
  padded 28 p.name ++ " " ++ p.description ++ "\n"

/-- The list of plugins. -/
def pluginList (r : Registry) : String :=
  r.plugins.foldl (fun out p => out ++ pluginLine p) ""

/-- The share by which a text has become shorter, in percent. -/
def percentSaved (before after : Nat) : Binary64 :=
  if before = 0 then .ofNat 0
  else ((Binary64.ofNat (before - after)).div (.ofNat before)).mul (.ofNat 100)

/-- The line that compares the sizes of two texts. -/
def statsLine (before after passes : Nat) : String :=
  toString before ++ " -> " ++ toString after ++ " bytes (" ++
    (percentSaved before after).oneDecimalPlace ++ "% smaller, " ++ toString passes ++
    (if passes = 1 then " pass" else " passes") ++ ")\n"

/-- The line for something that a plugin says. -/
def noteLine : Note → String
  | .warning cause => "warning: " ++ cause.message ++ "\n"
  | .message line => line ++ "\n"

variable {m : Type → Type} [Monad m]

/-- The configuration that options ask for. -/
def loadConfig (sys : System m) (o : Options) : m (Except Error Config) :=
  match o.config with
  | none => return .ok (o.adjust {})
  | some path => do
    match ← sys.fileText path with
    | .error message => return .error (.io message)
    | .ok text => return ((Config.ofString text).map o.adjust).mapError .config

/-- Optimize a text and write it. -/
def optimizeText (sys : System m) (o : Options) (engine : Engine) (input : String) :
    m Ending := do
  let report := engine.optimize input
  if o.verbose then
    for note in report.notes do sys.writeError (noteLine note)
  match report.outcome with
  | .error e => return .failed (.library e)
  | .ok optimized =>
    let written ←
      if o.output = "-" then do
        sys.writeOutput optimized.text
        pure (.ok ())
      else sys.replaceFile o.output optimized.text
    match written with
    | .error message => return .failed (.system message)
    | .ok () =>
      if o.stats then
        sys.writeError (statsLine input.utf8ByteSize optimized.size optimized.passes)
      return .success

/-- Run the program with options. -/
def runOptions (sys : System m) (o : Options) : m Ending := do
  if o.listPlugins then
    sys.writeOutput (pluginList Builtin.registry)
    return .success
  match ← loadConfig sys o with
  | .error e => return .failed (.library e)
  | .ok config =>
    match Engine.ofConfig config Builtin.registry with
    | .error e => return .failed (.library e)
    | .ok engine =>
      match ← (if o.input = "-" then sys.inputText else sys.fileText o.input) with
      | .error message => return .failed (.system message)
      | .ok input => optimizeText sys o engine input

/-- Run the program with arguments. -/
def run (sys : System m) (arguments : List String) : m Ending := do
  match Options.ofArguments arguments with
  | .error .misuse => return .misuse
  | .error .version =>
    sys.writeOutput versionLine
    return .success
  | .error .help =>
    sys.writeOutput helpText
    return .success
  | .ok o => runOptions sys o

/-- The exit code of an ending. -/
def Ending.exitCode : Ending → UInt32
  | success => 0
  | failed _ => 1
  | misuse => 2

end SvgPress.CommandLine
