import CurlyLex.Settings
import CurlyLex.Source.Stream

/-!
# What a command writes

* `Sink`       where a command writes to: it may take only so many bytes;
* `Failure`    what may stop a command whose arguments were in order, with the wordings;
* `Outcome`    the bytes that arrived at the sink, and the failure, if there was one.

A sink that is full takes no more, but does not stop the command at once: the command goes on
reading, and a failure of its source is told before the failure of the sink.

What is written is held until there is enough of it, and then passed on to the sink.  So it may be
noticed late that the sink is full, but a flush passes on all that is held.

* `Writer`     a sink, what has arrived at it, and what is held for it;
* `Printing`   a computation that writes.  A failure ends it, and leaves the writer as it is then;
* `Writer.flush`, `Writer.write`, `Writer.print`   all that is held, some bytes, and a text in
               pieces;
* `Printing.outcome`   a whole command.  Whether it fails or not, what is held at its end is passed
               on, and it is not told what the sink refuses of that.
-/

namespace CurlyLex

/-! ## outcomes -/

structure Sink where
  /-- how many bytes the sink takes; `none` if it takes all -/
  capacity : Option Nat
  /-- what the sink says when it is full -/
  refusal : String
  deriving DecidableEq, Repr

namespace Sink

/-- a sink that takes everything -/
def unlimited : Sink := ⟨none, ""⟩

end Sink

inductive Failure where
  | settings (error : SettingsError)
  | source (error : SourceError)
  /-- the output took less than what was written -/
  | output (message : String)
  /-- there are malformed tokens, and they are not allowed -/
  | malformed (count : Nat)
  deriving DecidableEq, Repr

namespace Failure

def message : Failure → String
  | .settings e => e.message
  | .source e => e.message
  | .output message => s!"error writing output: {message}"
  | .malformed count => s!"{count} malformed token(s) in input"

end Failure

structure Outcome where
  out : Bytes
  failure : Option Failure
  deriving DecidableEq, Repr

/-! ## writing through a buffer -/

structure Writer where
  sink : Sink
  /-- what has arrived at the sink -/
  taken : Array UInt8
  /-- what has been written and not been passed on -/
  held : Array UInt8

abbrev Printing := EStateM Failure Writer

section
variable {m k : Printing Unit} {w w' : Writer}

theorem Printing.bind_of_ok (h : m w = .ok () w') : (do m; k) w = k w' := by
  show EStateM.bind m (fun _ => k) w = k w'
  rw [EStateM.bind, h]

theorem Printing.bind_of_error {f : Failure} (h : m w = .error f w') :
    (do m; k) w = .error f w' := by
  show EStateM.bind m (fun _ => k) w = .error f w'
  rw [EStateM.bind, h]

end

namespace Writer

def new (sink : Sink) : Writer := ⟨sink, #[], #[]⟩

/-- how many bytes are held at most -/
def bufferSize : Nat := 8192

/-- what a sink says that does not take all of what is passed on to it -/
def refusal (w : Writer) : Failure := .output w.sink.refusal

/-- passes bytes on to the sink: the writer afterwards, and what the sink had no room for -/
def offer (w : Writer) (bytes : Array UInt8) : Writer × Array UInt8 :=
  match w.sink.capacity with
  | none => ({ w with taken := w.taken ++ bytes }, #[])
  | some n =>
    let room := n - w.taken.size
    ({ w with taken := w.taken ++ bytes.take room }, bytes.drop room)

/-- passes on what is held; what is refused stays held -/
def flush : Printing Unit := fun w =>
  let (w, refused) := w.offer w.held
  let w := { w with held := refused }
  if refused.isEmpty then .ok () w else .error w.refusal w

/-- passes bytes on past those that are held -/
def pass (bytes : Array UInt8) : Printing Unit := fun w =>
  let (w, refused) := w.offer bytes
  if refused.isEmpty then .ok () w else .error w.refusal w

/-- flushes if the buffer has no room for so many bytes more -/
def makeRoom (size : Nat) : Printing Unit := fun w =>
  if bufferSize < w.held.size + size then flush w else .ok () w

/-- holds more bytes -/
def hold (bytes : Array UInt8) : Printing Unit := fun w =>
  .ok () { w with held := w.held ++ bytes }

/-- writes some bytes; so many that they would fill the buffer alone are not held -/
def write (bytes : Array UInt8) : Printing Unit := do
  makeRoom bytes.size
  if bytes.size < bufferSize then hold bytes else pass bytes

/-- writes the pieces of a text, up to the first that fails -/
def print : List Text → Printing Unit
  | [] => pure ()
  | piece :: pieces => do
    write (Utf8.encode piece).toArray
    print pieces

/-- what has arrived at the sink when the writer is closed -/
def close (w : Writer) : Bytes := (w.offer w.held).1.taken.toList

end Writer

namespace Printing

/-- stops with the failure, if there is one -/
def stopWith : Option Failure → Printing Unit
  | none => pure ()
  | some f => throw f

/-- what there is at the end of a command -/
def close : EStateM.Result Failure Writer Unit → Outcome
  | .ok _ w => ⟨w.close, none⟩
  | .error f w => ⟨w.close, some f⟩

def outcome (m : Printing Unit) (sink : Sink) : Outcome := close (m (.new sink))

end Printing

end CurlyLex
