import CurlyLex.Command.Lex
import CurlyLex.Proofs.Writing

/-!
# Runs of `lex`

The tokens are printed as they are delivered, through a buffer, to a sink that may take only so many
bytes.  What comes of it can be told from the whole scan.

* `tokens_prefix_take`, `tokens_prefix_finish`   the tokens delivered stay delivered;
* `stream_lexing`, `printer_lexing`   so printing them as they come is printing them all, in order;
* `After.foldl_printToken`   which writes their lines, or as many as there is room for;
* `report`, `verdict`   the text that a run writes, and its failure;
* `run_eq`              what a run comes to;
* `run_at_limited_sink`   a run whose sink takes `n` bytes, against one whose sink takes all.
-/

namespace CurlyLex

/-! ## tokens that have been delivered -/

namespace Stream

theorem tokens_prefix_deliver (s : Stream) (ps : List Piece) :
    s.tokens <+: (s.deliver ps).tokens := by
  rw [tokens_deliver]
  exact List.prefix_append _ _

theorem tokens_prefix_endLine (s : Stream) : s.tokens <+: s.endLine.tokens := by
  rw [endLine]
  split
  · exact tokens_prefix_deliver _ _
  · exact List.prefix_refl _

theorem tokens_prefix_byte (s : Stream) (b : UInt8) : s.tokens <+: (s.byte b).tokens := by
  rw [byte]
  split
  · exact List.prefix_refl _
  · dsimp only
    split
    · exact tokens_prefix_endLine { s with gathered := b :: s.gathered }
    · exact List.prefix_refl _

theorem tokens_prefix_foldl_byte (s : Stream) (bytes : Bytes) :
    s.tokens <+: (bytes.foldl byte s).tokens := by
  induction bytes generalizing s with
  | nil => exact List.prefix_refl _
  | cons b bytes ih => exact (s.tokens_prefix_byte b).trans (ih (s.byte b))

theorem tokens_prefix_take (s : Stream) (e : Event) : s.tokens <+: (s.take e).tokens := by
  rw [take]
  split
  · exact List.prefix_refl _
  · cases e with
    | chunk bytes => exact tokens_prefix_foldl_byte { s with taken := s.taken + 1 } bytes
    | interrupted | malformed | broken => exact List.prefix_refl _

theorem tokens_prefix_finish (s : Stream) : s.tokens <+: s.finish.tokens := by
  have hl : s.tokens <+: (if s.gathered.isEmpty then s else s.endLine).tokens := by
    split
    · exact List.prefix_refl _
    · exact s.tokens_prefix_endLine
  rw [finish]
  split
  · exact List.prefix_refl _
  · dsimp only
    generalize (if s.gathered.isEmpty then s else s.endLine) = s' at hl ⊢
    split
    · exact hl
    · exact hl.trans (s'.tokens_prefix_deliver _)

end Stream

namespace LexOptions

/-! ## printing tokens as they are delivered -/

section
variable (o : LexOptions) (start : Printer)

/-- all tokens that have been delivered have been printed -/
def Current (l : Lexing) : Prop := l.printer = l.stream.tokens.foldl o.printToken start

variable {o start}

theorem Current.advance {l : Lexing} (h : o.Current start l) {s : Stream}
    (hs : l.stream.tokens <+: s.tokens) : o.Current start (o.advance l s) := by
  obtain ⟨more, e⟩ := hs
  rw [Current, LexOptions.advance, Stream.tokensSince, ← e, List.drop_left, List.foldl_append, h]

theorem Current.foldl_take {l : Lexing} (h : o.Current start l) (events : List Event) :
    o.Current start (events.foldl o.take l) := by
  induction events generalizing l with
  | nil => exact h
  | cons e events ih => exact ih (h.advance (l.stream.tokens_prefix_take e))

end

section
variable (o : LexOptions) (v : Vocabulary) (events : List Event) (w : Writer)

theorem stream_foldl_take (l : Lexing) :
    (events.foldl o.take l).stream = events.foldl Stream.take l.stream := by
  induction events generalizing l with
  | nil => rfl
  | cons e events ih => exact ih (o.take l e)

theorem stream_lexing : (o.lexing v events w).stream = Stream.scanEvents v events := by
  show (events.foldl o.take ⟨.new v, w, none⟩).stream.finish = _
  rw [stream_foldl_take]
  rfl

theorem printer_lexing : (o.lexing v events w).printer =
    (Stream.scanEvents v events).tokens.foldl o.printToken ⟨w, none⟩ := by
  have h : o.Current ⟨w, none⟩ ⟨.new v, w, none⟩ := rfl
  rw [← stream_lexing o v events w]
  exact (h.foldl_take events).advance (Stream.tokens_prefix_finish _)

end

/-! ## what is written of the tokens -/

/-- what is written of tokens as they are delivered -/
def printed (o : LexOptions) (ts : List Token) : Text := if o.summary then [] else listing ts

theorem printed_nil (o : LexOptions) : o.printed [] = [] := by
  rw [printed, listing_nil, ite_self]

theorem printed_cons (o : LexOptions) (t : Token) (ts : List Token) :
    o.printed (t :: ts) = o.printed [t] ++ o.printed ts := by
  rw [printed, printed, printed]
  split
  · rfl
  · rw [listing_cons, listing_cons, listing_nil, List.append_nil]

end LexOptions

/-- how the writes have ended by now -/
def Printer.result (p : Printer) : EStateM.Result Failure Writer Unit :=
  Printing.stopWith p.parked p.writer

theorem Printer.result_park (r : EStateM.Result Failure Writer Unit) : (park r).result = r := by
  cases r <;> rfl

namespace Writer

section
variable {sink : Sink} {a : Bytes} {p : Printer} (h : After sink a p.result) (o : LexOptions)
include h

theorem After.printToken (t : Token) :
    After sink (a ++ Utf8.encode (o.printed [t])) (o.printToken p t).result := by
  rw [LexOptions.printed, LexOptions.printToken]
  cases o.summary with
  | true =>
    show After sink (a ++ []) p.result
    rwa [List.append_nil]
  | false =>
    obtain ⟨w, parked⟩ := p
    cases parked with
    | some f =>
      obtain ⟨hw, hf⟩ := h
      exact ⟨hw.append _, hf⟩
    | none =>
      have hp := writes_print t.pieces h
      rw [Token.flatten_pieces] at hp
      show After sink (a ++ Utf8.encode (listing [t])) (Printer.park (print t.pieces w)).result
      rwa [listing_cons, listing_nil, List.append_nil, Printer.result_park]

theorem After.foldl_printToken (ts : List Token) :
    After sink (a ++ Utf8.encode (o.printed ts)) (ts.foldl o.printToken p).result := by
  induction ts generalizing a p with
  | nil =>
    rw [LexOptions.printed_nil, Utf8.encode_nil, List.append_nil]
    exact h
  | cons t ts ih =>
    rw [LexOptions.printed_cons, Utf8.encode_append, ← List.append_assoc]
    exact ih (h.printToken o t)

end

theorem writes_printSummary (o : LexOptions) (ts : List Token) :
    Writes (o.printSummary ts) (Utf8.encode (if o.summary then summaryOf ts else [])) := by
  rw [LexOptions.printSummary]
  split
  · rw [← flatten_summaryPieces]
    exact writes_print (summaryPieces ts)
  · exact writes_nil

end Writer

/-! ## whole runs -/

namespace LexOptions

open Writer (After)

/-- the text that is written of a stream that has been scanned -/
def report (o : LexOptions) (s : Stream) : Text :=
  if o.summary then
    if s.error.isSome then [] else summaryOf s.tokens
  else listing s.tokens

/-- the failure of a run that has scanned the stream -/
def verdict (o : LexOptions) (sink : Sink) (s : Stream) : Option Failure :=
  match s.error with
  | some e => some (.source e)
  | none =>
    if sink.overflows (Utf8.encode (o.report s)) then some (.output sink.refusal)
    else o.objection s.tokens

section
variable (o : LexOptions) (sink : Sink) (v : Vocabulary) (events : List Event)

theorem report_eq_printed {s : Stream} {e : SourceError} (h : s.error = some e) :
    o.report s = o.printed s.tokens := by
  rw [report, printed, h]
  rfl

theorem report_eq_append {s : Stream} (h : s.error = none) :
    o.report s = o.printed s.tokens ++ if o.summary then summaryOf s.tokens else [] := by
  rw [report, printed, h]
  cases o.summary with
  | true => rfl
  | false => exact (List.append_nil _).symm

theorem close_conclude {s : Stream} {p : Printer}
    (hp : After sink (Utf8.encode (o.printed s.tokens)) p.result) :
    Printing.close (o.conclude s p.parked p.writer) =
      ⟨sink.receive (Utf8.encode (o.report s)), o.verdict sink s⟩ := by
  rw [conclude]
  cases he : s.error with
  | some e =>
    have hs : Printing.stopWith (some (.source e)) p.writer = .error (.source e) p.writer := rfl
    have hc : (Printing.close p.result).out = p.writer.close := by
      rw [Printer.result]
      cases p.parked <;> rfl
    rw [Option.map_some, Printing.bind_of_error hs, report_eq_printed o he, verdict, he,
      ← Printing.out_close hp, hc]
    rfl
  | none =>
    have hs : Printing.stopWith none p.writer = .ok () p.writer := rfl
    rw [Option.map_none, Printing.bind_of_ok hs, ← bind_assoc,
      Printing.close_flush (hp.bind (Writer.writes_printSummary o s.tokens)), ← Utf8.encode_append,
      ← report_eq_append o he, verdict, he]

theorem outcome_print : (o.print v events).outcome sink =
    ⟨sink.receive (Utf8.encode (o.report (Stream.scanEvents v events))),
      o.verdict sink (Stream.scanEvents v events)⟩ := by
  have h : After sink [] (Printer.result ⟨.new sink, none⟩) := Writer.fine_new sink
  have hp := h.foldl_printToken o (Stream.scanEvents v events).tokens
  rw [← printer_lexing] at hp
  rw [Printing.outcome, print, stream_lexing]
  exact close_conclude o sink hp

variable {o sink v events} {standardInput : List Event} {files : Files}

/-- what a run comes to whose vocabulary and input can be had -/
theorem run_eq (hv : o.settings.vocabulary files = .ok v)
    (hs : o.source standardInput files = .ok events) : o.run sink standardInput files =
      ⟨sink.receive (Utf8.encode (o.report (Stream.scanEvents v events))),
        o.verdict sink (Stream.scanEvents v events)⟩ := by
  rw [run, hv, hs]
  exact outcome_print o sink v events

theorem run_of_settings_error {e : SettingsError} (hv : o.settings.vocabulary files = .error e) :
    o.run sink standardInput files = ⟨[], some (.settings e)⟩ := by
  rw [run, hv]

theorem run_of_source_error {e : SourceError} (hv : o.settings.vocabulary files = .ok v)
    (hs : o.source standardInput files = .error e) :
    o.run sink standardInput files = ⟨[], some (.source e)⟩ := by
  have hn : (Writer.new sink).close = [] := by
    rw [(Writer.fine_new sink).close_eq, Sink.receive_of_not_overflows sink.overflows_nil]
  rw [run, hv, hs]
  show (⟨(Writer.new sink).close, _⟩ : Outcome) = _
  rw [hn]

end

end LexOptions

/-- to a sink that takes only `n` bytes a run writes the first `n` of those that it writes to a sink
that takes all.  What is wrong with the settings or the source is told whatever the sink has taken;
if nothing is, it is told that the sink is full, if there was more to write; and only then the
malformed tokens are -/
theorem run_at_limited_sink (o : LexOptions) (n : Nat) (refusal : String)
    (standardInput : List Event) (files : Files) :
    let whole := o.run .unlimited standardInput files
    let limited := o.run ⟨some n, refusal⟩ standardInput files
    limited.out = whole.out.take n ∧
    match o.settings.vocabulary files, o.source standardInput files with
    | .error e, _ => whole.out = [] ∧ limited.failure = some (.settings e)
    | .ok _, .error e => whole.out = [] ∧ limited.failure = some (.source e)
    | .ok v, .ok events =>
      let s := Stream.scanEvents v events
      match s.error with
      | some e =>
        whole.out = Utf8.encode (if o.summary then [] else listing s.tokens) ∧
          limited.failure = some (.source e)
      | none =>
        whole.out = Utf8.encode (if o.summary then summaryOf s.tokens else listing s.tokens) ∧
          limited.failure =
            let count := countOf s.tokens .error
            if n < whole.out.length then some (.output refusal)
            else if o.denyErrors && decide (0 < count) then some (.malformed count)
            else none := by
  intro whole limited
  cases hv : o.settings.vocabulary files with
  | error e =>
    have hw : whole = _ := LexOptions.run_of_settings_error hv
    have hl : limited = _ := LexOptions.run_of_settings_error hv
    rw [hw, hl]
    exact ⟨List.take_nil.symm, rfl, rfl⟩
  | ok v =>
    cases hs : o.source standardInput files with
    | error e =>
      have hw : whole = _ := LexOptions.run_of_source_error hv hs
      have hl : limited = _ := LexOptions.run_of_source_error hv hs
      rw [hw, hl]
      exact ⟨List.take_nil.symm, rfl, rfl⟩
    | ok events =>
      have hw : whole = _ := LexOptions.run_eq hv hs
      have hl : limited = _ := LexOptions.run_eq hv hs
      rw [hw, hl]
      refine ⟨rfl, ?_⟩
      dsimp only
      rw [LexOptions.verdict, Sink.receive_unlimited, LexOptions.report]
      cases he : (Stream.scanEvents v events).error with
      | some e => exact ⟨rfl, rfl⟩
      | none =>
        refine ⟨rfl, ?_⟩
        simp only [Sink.overflows, decide_eq_true_eq]
        rfl

/-- the source breaks in its second line, and the sink takes five bytes of what is written of the
first: what is told is that the source broke -/
example : (LexOptions.run ⟨.standard, .default, false, true⟩ ⟨some 5, "full"⟩
    [.chunk (Utf8.encode ['a', '\n', '\'']), .broken "gone"] fun _ => .unopened .notFound) =
      ⟨Utf8.encode "(IDEN".toList, some (.source (.broken "gone"))⟩ := by
  decide +kernel

end CurlyLex
