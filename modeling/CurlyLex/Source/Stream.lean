import CurlyLex.Files.Basic
import CurlyLex.Scanner.Session
import CurlyLex.Text.Utf8

/-!
# Scanning a stream of bytes

Bytes reach the scanner in chunks of any size, and reading may fail between two chunks.

* `Event`             what one attempt to read brings;
* `SourceError`       why no text could be had from a source, with the wording of each cause;
* `eventsOf`          the events of a file, once its path opens.

Bytes are gathered until a line is complete; the line is decoded and fed to the scanner, and the
tokens that are settled by then are delivered.  So a token is delivered at the end of the line
that settles it, however the bytes are cut into chunks, even within a character.  At the end of
the input the last line is treated likewise, and then the open token is closed.

* `Stream`            a scan in progress: the scanner, the line being gathered, the deliveries;
* `Stream.byte`       one more byte, `Stream.endLine` the end of a line;
* `Stream.take`       one event;
* `Stream.finish`     the end of the input;
* `Stream.scanEvents` all events and the end.

A line that is no text stops the scan, and so does a failure of the source, whatever has been
gathered by then: nothing of that line is delivered, nor is the token that was open before it.
From then on the stream stays as it is (`take_of_error`).

A byte order mark at the very beginning of the input is not part of the text.
-/

namespace CurlyLex

/-! ## sources -/

inductive Event where
  /-- some bytes, possibly none -/
  | chunk (bytes : Bytes)
  /-- reading was interrupted, and is tried again -/
  | interrupted
  /-- the source itself says that its bytes are no text -/
  | malformed
  /-- reading failed for good -/
  | broken (message : String)
  deriving DecidableEq, Repr

inductive SourceError where
  | unopened (path : Text) (fault : Fault)
  /-- the line with the given number, counted from one, is no text -/
  | encoding (line : Nat)
  | broken (message : String)
  deriving DecidableEq, Repr

namespace SourceError

def message : SourceError → String
  | .unopened path fault => s!"cannot open '{String.ofList path}': {fault.message}"
  | .encoding line => s!"input is not valid UTF-8 (line {line})"
  | .broken message => s!"error reading input: {message}"

end SourceError

/-- the events of a file; a directory opens, but reading it fails -/
def eventsOf (files : Files) (path : Text) : Except SourceError (List Event) :=
  match files path with
  | .unopened fault => .error (.unopened path fault)
  | .unread fault => .ok [.broken fault.message]
  | .bytes bytes => .ok [.chunk bytes]

/-! ## streams -/

/-- a token, and how many events had been taken when it was delivered -/
structure Delivery where
  taken : Nat
  token : Token
  deriving DecidableEq, Repr

structure Stream where
  vocabulary : Vocabulary
  scanner : Scanner
  /-- how many lines have been fed -/
  lines : Nat
  /-- the bytes of the line being read, latest first -/
  gathered : Bytes
  /-- how many events have been taken -/
  taken : Nat
  /-- the tokens delivered so far, latest first -/
  delivered : List Delivery
  error : Option SourceError

namespace Stream

def new (v : Vocabulary) : Stream := ⟨v, .fresh, 0, [], 0, [], none⟩

/-- the byte order mark -/
def byteOrderMark : Char := Char.ofNat 0xFEFF

/-- the text without a byte order mark at its beginning -/
def dropMark (text : Text) : Text :=
  match text with
  | c :: rest => if c = byteOrderMark then rest else text
  | [] => []

theorem dropMark_cons (c : Char) (rest : Text) :
    dropMark (c :: rest) = if c = byteOrderMark then rest else c :: rest := rfl

/-- delivers pieces as tokens -/
def deliver (s : Stream) (ps : List Piece) : Stream :=
  let deliveries := (s.vocabulary.tokens ps).map (Delivery.mk s.taken)
  { s with delivered := deliveries.reverse ++ s.delivered }

/-- feeds one line to the scanner and delivers the pieces that it completes -/
def feedLine (s : Stream) (line : Text) : Stream :=
  let text := if s.lines = 0 then dropMark line else line
  let (ps, scanner) := s.scanner.run text
  { s with scanner, lines := s.lines + 1, gathered := [] }.deliver ps

/-- the gathered bytes are a whole line -/
def endLine (s : Stream) : Stream :=
  match Utf8.decode s.gathered.reverse with
  | some line => s.feedLine line
  | none => { s with error := some (.encoding (s.lines + 1)) }

/-- the byte that ends a line -/
def lineFeed : UInt8 := 10

/-- one more byte -/
def byte (s : Stream) (b : UInt8) : Stream :=
  if s.error.isSome then s
  else
    let s := { s with gathered := b :: s.gathered }
    if b = lineFeed then s.endLine else s

/-- one more event -/
def take (s : Stream) (e : Event) : Stream :=
  if s.error.isSome then s
  else
    let s := { s with taken := s.taken + 1 }
    match e with
    | .chunk bytes => bytes.foldl byte s
    | .interrupted => s
    | .malformed => { s with error := some (.encoding (s.lines + 1)) }
    | .broken message => { s with error := some (.broken message) }

/-- the end of the input: the last line, if it lacks its line feed, and then the open token -/
def finish (s : Stream) : Stream :=
  if s.error.isSome then s
  else
    let s := if s.gathered.isEmpty then s else s.endLine
    if s.error.isSome then s else s.deliver s.scanner.close

/-- a whole input -/
def scanEvents (v : Vocabulary) (events : List Event) : Stream :=
  (events.foldl take (new v)).finish

/-- the deliveries, in their order -/
def deliveries (s : Stream) : List Delivery := s.delivered.reverse

/-- the tokens delivered, in their order -/
def tokens (s : Stream) : List Token := s.deliveries.map Delivery.token

/-- all tokens of the input, or why there are none to be had -/
def result (s : Stream) : Except SourceError (List Token) :=
  match s.error with
  | some e => .error e
  | none => .ok s.tokens

/-! ## a stream that has failed stays as it is -/

theorem byte_of_error {s : Stream} (h : s.error.isSome = true) (b : UInt8) : s.byte b = s := by
  rw [byte, if_pos h]

theorem foldl_byte_of_error {s : Stream} (h : s.error.isSome = true) (bytes : Bytes) :
    bytes.foldl byte s = s := by
  induction bytes with
  | nil => rfl
  | cons b bytes ih => rw [List.foldl_cons, byte_of_error h, ih]

theorem take_of_error {s : Stream} (h : s.error.isSome = true) (e : Event) : s.take e = s := by
  rw [take, if_pos h]

theorem finish_of_error {s : Stream} (h : s.error.isSome = true) : s.finish = s := by
  rw [finish, if_pos h]

/-! ## what a delivery adds -/

theorem tokens_deliver (s : Stream) (ps : List Piece) :
    (s.deliver ps).tokens = s.tokens ++ s.vocabulary.tokens ps := by
  simp [deliver, tokens, deliveries, Function.comp_def]

end Stream

/-- the tokens of a file, or why there are none to be had -/
def scanFile (v : Vocabulary) (files : Files) (path : Text) : Except SourceError (List Token) := do
  let events ← eventsOf files path
  (Stream.scanEvents v events).result

end CurlyLex
