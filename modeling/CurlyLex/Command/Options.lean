import CurlyLex.Settings

/-!
# Command-line arguments

The arguments behind the name of a command.  Each argument is read on its own; then the arguments
are put together from left to right, and the first that is out of place is reported.

* `Argument`, `Argument.read`   one argument: an option with a value, a flag, or an input;
* `Settings.put`                what an option with a value does to the settings;
* `UsageError`                  what may be wrong, with the wording of each cause;
* `LexOptions.read`             the arguments of `lex`: options, flags, and exactly one input;
* `readSettings`                the arguments of `keywords`: options only.

Of several options with one name the last holds.  A single dash is an input: the standard input.
-/

namespace CurlyLex

/-- the options that need a value -/
inductive ValueOption where
  | wordList
  | null
  deriving DecidableEq, Repr

def ValueOption.name : ValueOption → String
  | .wordList => "--keywords"
  | .null => "--null"

inductive UsageError where
  | missingInput
  | unexpectedArgument (arg : Text)
  | unknownOption (arg : Text)
  | missingValue (option : ValueOption)
  | badBooleans (value : Text)
  deriving DecidableEq, Repr

namespace UsageError

def message : UsageError → String
  | .missingInput => "missing input file (use '-' for stdin)"
  | .unexpectedArgument arg => s!"unexpected argument '{String.ofList arg}'"
  | .unknownOption arg => s!"unknown option '{String.ofList arg}'"
  | .missingValue option => s!"option '{option.name}' expects a value"
  | .badBooleans value =>
    s!"--booleans expects two comma-separated words, got '{String.ofList value}'"

end UsageError

/-! ## one argument -/

/-- one part of the settings -/
inductive Setting where
  | wordList (path : Text)
  | null (spelling : Text)
  | booleans (truthy falsy : Text)
  deriving DecidableEq, Repr

/-- the settings with one part set anew -/
def Settings.put (s : Settings) : Setting → Settings
  | .wordList path => { s with wordList := some path }
  | .null spelling => { s with null := some spelling }
  | .booleans truthy falsy => { s with booleans := some (truthy, falsy) }

inductive Argument where
  | setting (setting : Setting)
  | summary
  | denyErrors
  | input (name : Text)
  deriving DecidableEq, Repr

namespace Argument

/-- the value of an option that may not be empty -/
def value (option : ValueOption) (text : Text) : Except UsageError Text :=
  if text.isEmpty then .error (.missingValue option) else .ok text

/-- two words apart by one comma -/
def readBooleans (text : Text) : Except UsageError Setting :=
  match text.splitOn ',' with
  | [truthy, falsy] =>
    if truthy.isEmpty || falsy.isEmpty then .error (.badBooleans text)
    else .ok (.booleans truthy falsy)
  | _ => .error (.badBooleans text)

/-- the setting that an argument makes, if it is an option with a value -/
def readSetting? (arg : Text) : Option (Except UsageError Setting) :=
  if let some path := "--keywords=".toList.isPrefixOf? arg then
    some (.wordList <$> value .wordList path)
  else if let some spelling := "--null=".toList.isPrefixOf? arg then
    some (.null <$> value .null spelling)
  else if let some words := "--booleans=".toList.isPrefixOf? arg then
    some (readBooleans words)
  else none

/-- every other argument that begins with two dashes is unknown -/
def read (arg : Text) : Except UsageError Argument :=
  match readSetting? arg with
  | some s => .setting <$> s
  | none =>
    if arg = "--summary".toList then .ok .summary
    else if arg = "--deny-errors".toList then .ok .denyErrors
    else if "--".toList.isPrefixOf arg then .error (.unknownOption arg)
    else .ok (.input arg)

end Argument

/-! ## the arguments of `lex` -/

inductive Input where
  | standard
  | file (path : Text)
  deriving DecidableEq, Repr

/-- a single dash is the standard input -/
def Input.ofName (name : Text) : Input := if name = ['-'] then .standard else .file name

structure LexOptions where
  input : Input
  settings : Settings
  /-- print the counts instead of the tokens -/
  summary : Bool
  /-- fail if there is a malformed token -/
  denyErrors : Bool
  deriving DecidableEq, Repr

namespace LexOptions

/-- the options as far as they have been read -/
structure Draft where
  input : Option Input
  settings : Settings
  summary : Bool
  denyErrors : Bool
  deriving DecidableEq, Repr

def Draft.empty : Draft := ⟨none, .default, false, false⟩

/-- the draft with one more argument -/
def Draft.add (d : Draft) (arg : Text) : Except UsageError Draft :=
  match Argument.read arg with
  | .error e => .error e
  | .ok (.setting setting) => .ok { d with settings := d.settings.put setting }
  | .ok .summary => .ok { d with summary := true }
  | .ok .denyErrors => .ok { d with denyErrors := true }
  | .ok (.input name) =>
    match d.input with
    | none => .ok { d with input := some (.ofName name) }
    | some _ => .error (.unexpectedArgument arg)

/-- the options, if there is an input -/
def Draft.complete (d : Draft) : Except UsageError LexOptions :=
  match d.input with
  | some input => .ok ⟨input, d.settings, d.summary, d.denyErrors⟩
  | none => .error .missingInput

def read (args : List Text) : Except UsageError LexOptions := do
  let d ← args.foldlM Draft.add .empty
  d.complete

end LexOptions

/-! ## the arguments of `keywords` -/

/-- the settings with one more argument; the flags of `lex` are unknown here -/
def Settings.add (s : Settings) (arg : Text) : Except UsageError Settings :=
  match Argument.read arg with
  | .error e => .error e
  | .ok (.setting setting) => .ok (s.put setting)
  | .ok (.input _) => .error (.unexpectedArgument arg)
  | .ok _ => .error (.unknownOption arg)

def readSettings (args : List Text) : Except UsageError Settings :=
  args.foldlM Settings.add .default

end CurlyLex
