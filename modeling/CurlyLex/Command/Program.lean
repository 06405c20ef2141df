import CurlyLex.Command.Lex

/-!
# The program

What the program does with its arguments, its standard input and the files around it.

* `Settings.printVocabulary`   the command `keywords`: prints the vocabulary of the settings as a
                       word list, which may in turn be given as the word list of another run;
* `Request`            what the arguments ask for, `Request.ofArgs`;
* `Exit`               the exit code and what is written to the two outputs;
* `Request.run`        the answer to a request;
* `Request.paths`, `Request.readsStandardInput`   what a request may need to read.
-/

namespace CurlyLex

/-! ## the command `keywords` -/

/-- the word list of a vocabulary, in the pieces in which it is written -/
def Vocabulary.pieces (v : Vocabulary) : List Text :=
  ["// null: ".toList, v.null, ['\n'], "// booleans: ".toList, v.booleans.1, [' '], v.booleans.2,
    ['\n']] ++ v.words.toList.flatMap fun w => [w, ['\n']]

theorem Vocabulary.flatten_pieces (v : Vocabulary) : v.pieces.flatten = v.print := by
  have hw : (v.words.toList.flatMap fun w => [w, ['\n']]).flatten =
      v.words.toList.flatMap fun w => w ++ ['\n'] := by
    rw [← List.flatMap_id, List.flatMap_assoc]
    rfl
  unfold pieces print
  simp only [List.flatten_append, List.flatten_cons, List.flatten_nil, hw, List.append_assoc,
    List.append_nil]

/-- prints the vocabulary to the sink -/
def Settings.printVocabulary (s : Settings) (sink : Sink) (files : Files) : Outcome :=
  match s.vocabulary files with
  | .error e => ⟨[], some (.settings e)⟩
  | .ok v =>
    let body : Printing Unit := do
      Writer.print v.pieces
      Writer.flush
    body.outcome sink

/-! ## requests -/

inductive Request where
  | help
  | version
  | lex (options : LexOptions)
  | keywords (settings : Settings)
  /-- the arguments of `lex` are not in order -/
  | lexMisuse (error : UsageError)
  /-- the arguments of `keywords` are not in order -/
  | keywordsMisuse (error : UsageError)
  | unknown (command : Text)
  deriving DecidableEq, Repr

structure Exit where
  code : Nat
  out : Bytes
  err : Bytes
  deriving DecidableEq, Repr

namespace Request

/-- the version of the program -/
def versionNumber : String := "0.1.0"

def helpLines : List String :=
  ["cfam: character-stream scanner for C-family source text",
   "",
   "Usage: cfam <command> [options]",
   "",
   "Commands:",
   "  lex <file|->         Print the token stream as (KIND lexeme) lines",
   "  keywords             Print the active reserved-word list",
   "  help                 Show this help message",
   "  version              Show version information",
   "",
   "Keyword options (lex, keywords):",
   "  --keywords=<path>            Word list replacing the built-in keywords",
   "  --null=<word>                Spelling of the null literal (default: null)",
   "  --booleans=<true>,<false>    Spellings of the boolean literals",
   "",
   "Lex options:",
   "  --summary           Print token counts per kind instead of tokens",
   "  --deny-errors       Exit with status 1 if any malformed token is found",
   "",
   "Examples:",
   "  cfam lex Program.cs",
   "  cat Program.cs | cfam lex -",
   "  cfam lex main.toy --keywords=toy.words --null=nil",
   "  RUST_LOG=cfam_lexer_core=trace cfam lex Program.cs --summary"]

def lexUsage : String := "Usage: cfam lex <file|-> [options]"

def keywordsUsage : String :=
  "Usage: cfam keywords [--keywords=<path>] [--null=<word>] [--booleans=<true>,<false>]"

/-- what the arguments ask for; without any they ask for help -/
def ofArgs : List Text → Request
  | [] => .help
  | command :: args =>
    if command = "lex".toList then
      match LexOptions.read args with
      | .ok options => .lex options
      | .error e => .lexMisuse e
    else if command = "keywords".toList then
      match readSettings args with
      | .ok settings => .keywords settings
      | .error e => .keywordsMisuse e
    else if ["help".toList, "--help".toList, "-h".toList].contains command then .help
    else if ["version".toList, "--version".toList, "-V".toList].contains command then .version
    else .unknown command

/-- the bytes of some lines, each with its line feed -/
def linesOf (lines : List String) : Bytes :=
  Utf8.encode (lines.flatMap fun line => line.toList ++ ['\n'])

/-- the exit of a command: a failure is reported behind what has been printed -/
def exitOf (o : Outcome) : Exit :=
  match o.failure with
  | none => ⟨0, o.out, []⟩
  | some f => ⟨1, o.out, linesOf ["error: " ++ f.message]⟩

/-- the exit of a command whose arguments are not in order -/
def misuse (e : UsageError) (usage : String) : Exit :=
  ⟨1, [], linesOf ["error: " ++ e.message, usage]⟩

def run (r : Request) (standardInput : List Event) (files : Files) : Exit :=
  match r with
  | .help => ⟨0, linesOf helpLines, []⟩
  | .version => ⟨0, linesOf ["cfam " ++ versionNumber], []⟩
  | .lex options => exitOf (options.run .unlimited standardInput files)
  | .keywords settings => exitOf (settings.printVocabulary .unlimited files)
  | .lexMisuse e => misuse e lexUsage
  | .keywordsMisuse e => misuse e keywordsUsage
  | .unknown command =>
    ⟨1, linesOf helpLines, linesOf ["Unknown command: " ++ String.ofList command, ""]⟩

/-! ## what a request may need to read -/

def paths : Request → List Text
  | .lex options =>
    options.settings.wordList.toList ++
      match options.input with
      | .file path => [path]
      | .standard => []
  | .keywords settings => settings.wordList.toList
  | _ => []

def readsStandardInput : Request → Bool
  | .lex options => options.input == .standard
  | _ => false

end Request

end CurlyLex
