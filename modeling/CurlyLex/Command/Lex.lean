import CurlyLex.Command.Options
import CurlyLex.Command.Writer
import CurlyLex.Listing

/-!
# The command `lex`

Scans the input and prints its tokens, or their counts.

* `LexOptions.source`   the events of the input;
* `LexOptions.lexing`   reads the input, and prints the tokens as they are delivered.  A write that
                        fails does not end the reading: its failure is parked, and no more tokens
                        are printed;
* `LexOptions.conclude` then come the failures in their order: that of the source, that of a write,
                        and last, when everything has been written, the malformed tokens;
* `LexOptions.run`      the whole command.
-/

namespace CurlyLex

/-- the tokens that have been delivered since an earlier moment of the stream -/
def Stream.tokensSince (earlier now : Stream) : List Token :=
  now.tokens.drop earlier.tokens.length

/-- the printing of tokens -/
structure Printer where
  writer : Writer
  /-- the failure of a write -/
  parked : Option Failure

/-- how printing stands after a write: its failure is parked -/
def Printer.park : EStateM.Result Failure Writer Unit → Printer
  | .ok _ w => ⟨w, none⟩
  | .error f w => ⟨w, some f⟩

/-- a stream that is being read, and the printing of its tokens -/
structure Lexing where
  stream : Stream
  printer : Printer

namespace LexOptions

/-- the events of the input -/
def source (o : LexOptions) (standardInput : List Event) (files : Files) :
    Except SourceError (List Event) :=
  match o.input with
  | .standard => .ok standardInput
  | .file path => eventsOf files path

/-- prints a token, if tokens are asked for and no write has failed -/
def printToken (o : LexOptions) (p : Printer) (t : Token) : Printer :=
  if o.summary || p.parked.isSome then p
  else .park (Writer.print t.pieces p.writer)

/-- goes on to a later moment of the stream -/
def advance (o : LexOptions) (l : Lexing) (s : Stream) : Lexing :=
  ⟨s, (l.stream.tokensSince s).foldl o.printToken l.printer⟩

def take (o : LexOptions) (l : Lexing) (e : Event) : Lexing := o.advance l (l.stream.take e)

def finish (o : LexOptions) (l : Lexing) : Lexing := o.advance l l.stream.finish

/-- reads all events and the end of the input -/
def lexing (o : LexOptions) (v : Vocabulary) (events : List Event) (w : Writer) : Lexing :=
  o.finish (events.foldl o.take ⟨.new v, w, none⟩)

/-- what is held against the tokens: some are malformed, and that is not allowed -/
def objection (o : LexOptions) (ts : List Token) : Option Failure :=
  let count := countOf ts .error
  if o.denyErrors && decide (0 < count) then some (.malformed count) else none

/-- prints the counts of the tokens, if they are asked for -/
def printSummary (o : LexOptions) (ts : List Token) : Printing Unit :=
  if o.summary then Writer.print (summaryPieces ts) else pure ()

/-- what is left to do when the source has been read -/
def conclude (o : LexOptions) (s : Stream) (parked : Option Failure) : Printing Unit := do
  Printing.stopWith (s.error.map .source)
  Printing.stopWith parked
  o.printSummary s.tokens
  Writer.flush
  Printing.stopWith (o.objection s.tokens)

/-- reads the input and prints it -/
def print (o : LexOptions) (v : Vocabulary) (events : List Event) : Printing Unit := fun w =>
  let l := o.lexing v events w
  o.conclude l.stream l.printer.parked l.printer.writer

/-- scans the input and prints to the sink -/
def run (o : LexOptions) (sink : Sink) (standardInput : List Event) (files : Files) : Outcome :=
  match o.settings.vocabulary files with
  | .error e => ⟨[], some (.settings e)⟩
  | .ok v =>
    let body :=
      match o.source standardInput files with
      | .error e => Printing.stopWith (some (.source e))
      | .ok events => o.print v events
    body.outcome sink

end LexOptions

end CurlyLex
