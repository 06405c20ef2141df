import CurlyLex.Proofs.ByteLines
import CurlyLex.Proofs.Resumption
import Mathlib.Data.List.TakeWhile

/-!
# What a stream has read

* `bytesRead`, `failureIn`   what a list of events brings: bytes, and then maybe a failure;
* `FailsBehind bytes failure lines e`   to read the bytes, and then to meet the failure or the end
                      of input, fails behind the lines `lines` with the error `e`;
* `Stream.Behind v lines s`   the stream has scanned the lines, and delivered the tokens that they
                      complete;
* `Stream.At v bytes failure s`   the stream has read the bytes: it waits in the line behind those
                      that it has scanned, or has failed there;
* `At.byte`, `At.foldl_take`, `at_foldl_take`   one byte and one event keep this, so every list of
                      events does;
* `At.finish`         what becomes of the stream at the end of input.
-/

namespace CurlyLex

/-! ## what the events bring -/

namespace Event

def bytes : Event → Bytes
  | .chunk bytes => bytes
  | .interrupted | .malformed | .broken _ => []

/-- does the source go on behind the event? -/
def isSmooth : Event → Bool
  | .chunk _ | .interrupted => true
  | .malformed | .broken _ => false

/-- the error that the event makes in the line with the given number -/
def error? (line : Nat) : Event → Option SourceError
  | .chunk _ | .interrupted => none
  | .malformed => some (.encoding line)
  | .broken message => some (.broken message)

theorem error?_eq_none_iff (line : Nat) (e : Event) : e.error? line = none ↔ e.isSmooth = true := by
  cases e <;> simp [error?, isSmooth]

end Event

/-- the bytes that come before the source fails -/
def bytesRead (events : List Event) : Bytes :=
  (events.takeWhile Event.isSmooth).flatMap Event.bytes

/-- the error with which the source fails in the line with the given number, if it fails -/
def failureIn (events : List Event) (line : Nat) : Option SourceError :=
  events.findSome? (Event.error? line)

section
variable {e : Event} {events : List Event}

theorem bytesRead_cons_of_isSmooth (h : e.isSmooth = true) :
    bytesRead (e :: events) = e.bytes ++ bytesRead events := by
  rw [bytesRead, List.takeWhile_cons_of_pos h, List.flatMap_cons]
  rfl

theorem bytesRead_cons_of_not_isSmooth (h : ¬ e.isSmooth = true) :
    bytesRead (e :: events) = [] := by
  rw [bytesRead, List.takeWhile_cons_of_neg h]
  rfl

theorem bytesRead_eq_flatMap (h : ∀ e ∈ events, e.isSmooth = true) :
    bytesRead events = events.flatMap Event.bytes := by
  rw [bytesRead, List.takeWhile_eq_self_iff.mpr h]

theorem failureIn_cons_of_isSmooth (h : e.isSmooth = true) :
    failureIn (e :: events) = failureIn events := by
  funext line
  rw [failureIn, List.findSome?_cons, (e.error?_eq_none_iff line).mpr h]
  rfl

theorem failureIn_eq_none (h : ∀ e ∈ events, e.isSmooth = true) (line : Nat) :
    failureIn events line = none :=
  List.findSome?_eq_none_iff.mpr (fun e he => (e.error?_eq_none_iff line).mpr (h e he))

end

/-! ## failures -/

/-- to read the bytes, and then to meet the failure or else the end of input, fails behind the
lines `lines` with an error -/
inductive FailsBehind (bytes : Bytes) (failure : Nat → Option SourceError) (lines : List Text) :
    SourceError → Prop where
  /-- the next line is complete, but no text -/
  | line {line more : Bytes} (hl : Lined bytes lines (line ++ Stream.lineFeed :: more))
      (hr : Stream.lineFeed ∉ line) (hd : Utf8.decode (line ++ [Stream.lineFeed]) = none) :
      FailsBehind bytes failure lines (.encoding (lines.length + 1))
  /-- the input ends in the next line, which is no text -/
  | last {line : Bytes} (hl : Lined bytes lines line) (hr : Stream.lineFeed ∉ line)
      (hf : ∀ n, failure n = none) (hd : Utf8.decode line = none) :
      FailsBehind bytes failure lines (.encoding (lines.length + 1))
  /-- the source fails in the next line, be that a text so far or not -/
  | source {line : Bytes} {e : SourceError} (hl : Lined bytes lines line)
      (hr : Stream.lineFeed ∉ line) (hf : failure (lines.length + 1) = some e) :
      FailsBehind bytes failure lines e

theorem FailsBehind.exists_lined {bytes : Bytes} {failure : Nat → Option SourceError}
    {lines : List Text} {e : SourceError} (h : FailsBehind bytes failure lines e) :
    ∃ rest, Lined bytes lines rest ∧ NoLine rest := by
  cases h with
  | line hl hr hd => exact ⟨_, hl, noLine_of_decode_eq_none hr hd⟩
  | last hl hr _ _ => exact ⟨_, hl, noLine_of_notMem hr⟩
  | source hl hr _ => exact ⟨_, hl, noLine_of_notMem hr⟩

/-- without a failure of the source, only bytes that are no text fail -/
theorem FailsBehind.decode_eq_none {bytes : Bytes} {failure : Nat → Option SourceError}
    {lines : List Text} {e : SourceError} (h : FailsBehind bytes failure lines e)
    (hf : ∀ n, failure n = none) : Utf8.decode bytes = none := by
  cases h with
  | line hl _ hd => exact hl.decode_eq_none (Utf8.decode_eq_none_of_lineFeed hd)
  | last hl _ _ hd => exact hl.decode_eq_none hd
  | source _ _ hf' =>
    rw [hf] at hf'
    cases hf'

/-- the bytes and the failure decide where and how they fail -/
theorem FailsBehind.unique {bytes : Bytes} {failure : Nat → Option SourceError}
    {lines lines' : List Text} {e e' : SourceError} (h : FailsBehind bytes failure lines e)
    (h' : FailsBehind bytes failure lines' e') : lines = lines' ∧ e = e' := by
  obtain ⟨rest, hl, hn⟩ := h.exists_lined
  obtain ⟨rest', hl', hn'⟩ := h'.exists_lined
  obtain rfl := hl.lines_eq hn hl' hn'
  refine ⟨rfl, ?_⟩
  cases h with
  | line hx _ _ =>
    cases h' with
    | line _ _ _ => rfl
    | last _ _ _ _ => rfl
    | source hy hr _ => exact absurd hx (hy.not_lined_lineFeed hr _ _)
  | last _ _ hf _ =>
    cases h' with
    | line _ _ _ => rfl
    | last _ _ _ _ => rfl
    | source _ _ hs => cases (hf _).symm.trans hs
  | source hx hr hs =>
    cases h' with
    | line hy _ _ => exact absurd hy (hx.not_lined_lineFeed hr _ _)
    | last _ _ hf _ => cases (hf _).symm.trans hs
    | source _ _ hs' => exact Option.some.inj (hs.symm.trans hs')

namespace Stream

/-! ## a byte order mark -/

theorem dropMark_append {t : Text} (h : t ≠ []) (u : Text) :
    dropMark (t ++ u) = dropMark t ++ u := by
  cases t with
  | nil => exact absurd rfl h
  | cons c t =>
    rw [List.cons_append, dropMark_cons, dropMark_cons]
    split <;> rfl

/-- the text of one more line loses a byte order mark only if it is the first -/
theorem dropMark_flatten_concat {lines : List Text} (h : ∀ l ∈ lines, l ≠ []) (line : Text) :
    dropMark (lines ++ [line]).flatten =
      dropMark lines.flatten ++ if lines.length = 0 then dropMark line else line := by
  cases lines with
  | nil =>
    rw [List.nil_append, List.flatten_singleton]
    rfl
  | cons l lines =>
    have hl : (l :: lines).flatten ≠ [] := by
      intro e
      exact h l List.mem_cons_self (List.append_eq_nil_iff.mp e).1
    rw [List.flatten_concat, dropMark_append hl, List.length_cons, if_neg (Nat.succ_ne_zero _)]

/-! ## lines scanned -/

/-- the stream has scanned the lines, and delivered the tokens that they complete -/
structure Behind (v : Vocabulary) (lines : List Text) (s : Stream) : Prop where
  vocabulary : s.vocabulary = v
  lines_eq : s.lines = lines.length
  scanner : s.scanner = (Scanner.fresh.run (dropMark lines.flatten)).2
  tokens : s.tokens = v.tokens (Scanner.fresh.run (dropMark lines.flatten)).1

theorem behind_new (v : Vocabulary) : (new v).Behind v [] := ⟨rfl, rfl, rfl, rfl⟩

variable {v : Vocabulary} {lines : List Text} {s : Stream}

/-- neither the line that is gathered nor the events counted nor an error plays a part -/
theorem Behind.update (h : s.Behind v lines) (gathered : Bytes) (taken : Nat)
    (error : Option SourceError) : Behind v lines { s with gathered, taken, error } :=
  ⟨h.vocabulary, h.lines_eq, h.scanner, h.tokens⟩

theorem feedLine_eq (s : Stream) (line : Text) :
    let text := if s.lines = 0 then dropMark line else line
    s.feedLine line = ({ s with scanner := (s.scanner.run text).2, lines := s.lines + 1,
                                gathered := [] } : Stream).deliver (s.scanner.run text).1 := rfl

theorem Behind.feedLine (h : s.Behind v lines) (hl : ∀ l ∈ lines, l ≠ []) (line : Text) :
    (s.feedLine line).Behind v (lines ++ [line]) := by
  have ht := dropMark_flatten_concat hl line
  refine ⟨h.vocabulary, ?_, ?_, ?_⟩
  · show s.lines + 1 = (lines ++ [line]).length
    rw [h.lines_eq, List.length_append, List.length_singleton]
  · show (s.scanner.run (if s.lines = 0 then dropMark line else line)).2 = _
    rw [ht, h.lines_eq, h.scanner, Scanner.run_append]
  · rw [feedLine_eq, tokens_deliver, ht, Scanner.run_append, Vocabulary.tokens_append, ← h.tokens,
      ← h.scanner, ← h.lines_eq]
    show s.tokens ++ s.vocabulary.tokens _ = s.tokens ++ v.tokens _
    rw [h.vocabulary]

theorem Behind.tokens_close (h : s.Behind v lines) :
    (s.deliver s.scanner.close).tokens = scan v (dropMark lines.flatten) := by
  rw [tokens_deliver, h.tokens, h.vocabulary, h.scanner, scan, cut_eq, Vocabulary.tokens_append]

/-! ## bytes read -/

/-- the stream has read the bytes, and then met the failure, if there is one -/
inductive At (v : Vocabulary) (bytes : Bytes) (failure : Nat → Option SourceError) (s : Stream) :
    Prop where
  /-- it waits in the line behind those that it has scanned -/
  | reading {lines : List Text} (hs : s.Behind v lines)
      (hl : Lined bytes lines s.gathered.reverse) (hr : lineFeed ∉ s.gathered)
      (hf : ∀ n, failure n = none) (he : s.error = none)
  /-- the line behind them was complete, but no text -/
  | spoiled {lines : List Text} {line more : Bytes} (hs : s.Behind v lines)
      (hl : Lined bytes lines (line ++ lineFeed :: more)) (hr : lineFeed ∉ line)
      (hd : Utf8.decode (line ++ [lineFeed]) = none)
      (he : s.error = some (.encoding (lines.length + 1)))
  /-- the source failed in the line behind them -/
  | broken {lines : List Text} {line : Bytes} {e : SourceError} (hs : s.Behind v lines)
      (hl : Lined bytes lines line) (hr : lineFeed ∉ line)
      (hf : failure (lines.length + 1) = some e) (he : s.error = some e)

theorem at_new (v : Vocabulary) : (new v).At v [] (fun _ => none) :=
  .reading (behind_new v) (Lined.nil []) List.not_mem_nil (fun _ => rfl) rfl

section
variable {bytes : Bytes} {failure : Nat → Option SourceError}

/-- a line feed completes the line that is gathered -/
theorem Behind.byte_lineFeed (h : s.Behind v lines) (hl : Lined bytes lines s.gathered.reverse)
    (hr : lineFeed ∉ s.gathered) (hf : ∀ n, failure n = none) (he : s.error = none) :
    (s.byte lineFeed).At v (bytes ++ [lineFeed]) failure := by
  have hb : s.byte lineFeed = ({ s with gathered := lineFeed :: s.gathered } : Stream).endLine := by
    rw [byte, he, if_neg (by simp), if_pos rfl]
  have hm : lineFeed ∉ s.gathered.reverse := by rwa [List.mem_reverse]
  have hl' := hl.append [lineFeed]
  rw [hb, endLine, List.reverse_cons]
  cases hd : Utf8.decode (s.gathered.reverse ++ [lineFeed]) with
  | none =>
    refine .spoiled ?_ hl' hm hd ?_
    · exact h.update _ _ _
    · show some (SourceError.encoding (s.lines + 1)) = _
      rw [h.lines_eq]
  | some l =>
    have he' : Utf8.encode l = s.gathered.reverse ++ [lineFeed] := Utf8.encode_of_decode hd
    have hc : Lined (bytes ++ [lineFeed]) (lines ++ [l]) [] := by
      refine Lined.concat ?_ (isLine_of_encode_eq he' hm)
      rwa [he', List.append_nil]
    have hn : ∀ l ∈ lines, l ≠ [] := fun l hx => (hl.isLine l hx).ne_nil
    refine .reading ?_ hc List.not_mem_nil hf he
    exact (h.update _ _ _).feedLine hn l

theorem At.byte (h : s.At v bytes failure) (hf : ∀ n, failure n = none) (b : UInt8) :
    (s.byte b).At v (bytes ++ [b]) failure := by
  cases h with
  | reading hs hl hr hf he =>
    by_cases hb : b = lineFeed
    · subst hb
      exact hs.byte_lineFeed hl hr hf he
    · have e : s.byte b = { s with gathered := b :: s.gathered } := by
        rw [Stream.byte, he, if_neg (by simp), if_neg hb]
      rw [e]
      refine .reading (hs.update _ _ _) ?_ ?_ hf he
      · rw [List.reverse_cons]
        exact hl.append [b]
      · intro hm
        rcases List.mem_cons.mp hm with hm | hm
        · exact hb hm.symm
        · exact hr hm
  | spoiled hs hl hr hd he =>
    rw [byte_of_error (by rw [he]; rfl)]
    have hl' := hl.append [b]
    rw [List.append_assoc, List.cons_append] at hl'
    exact .spoiled hs hl' hr hd he
  | broken hs hl hr hf' he =>
    rw [hf] at hf'
    cases hf'

theorem At.foldl_byte (h : s.At v bytes failure) (hf : ∀ n, failure n = none) (more : Bytes) :
    (more.foldl Stream.byte s).At v (bytes ++ more) failure := by
  induction more generalizing s bytes with
  | nil =>
    rw [List.append_nil]
    exact h
  | cons b more ih =>
    have hb := ih (h.byte hf b)
    rwa [List.append_assoc, List.singleton_append] at hb

/-! ## events taken -/

/-- a stream that has failed has failed for good -/
theorem At.append_of_error (h : s.At v bytes failure) (hf : ∀ n, failure n = none)
    (he : s.error.isSome = true) (more : Bytes) (failure' : Nat → Option SourceError) :
    s.At v (bytes ++ more) failure' := by
  cases h with
  | reading _ _ _ _ hn =>
    rw [hn] at he
    cases he
  | spoiled hs hl hr hd he =>
    have hl' := hl.append more
    rw [List.append_assoc, List.cons_append] at hl'
    exact .spoiled hs hl' hr hd he
  | broken _ _ _ hf' _ =>
    rw [hf] at hf'
    cases hf'

theorem At.take_of_isSmooth {e : Event} (h : s.At v bytes failure) (hf : ∀ n, failure n = none)
    (hs : e.isSmooth = true) : (s.take e).At v (bytes ++ e.bytes) failure := by
  by_cases he : s.error.isSome = true
  · rw [take_of_error he]
    exact h.append_of_error hf he e.bytes failure
  · have ht : ({ s with taken := s.taken + 1 } : Stream).At v bytes failure := by
      cases h with
      | reading hs hl hr hf he =>
        exact .reading (hs.update _ _ _) hl hr hf he
      | spoiled _ _ _ _ hx => exact absurd (congrArg Option.isSome hx) he
      | broken _ _ _ _ hx => exact absurd (congrArg Option.isSome hx) he
    rw [take, if_neg he]
    cases e with
    | chunk more => exact ht.foldl_byte hf more
    | interrupted =>
      show At v (bytes ++ []) failure _
      rwa [List.append_nil]
    | malformed => cases hs
    | broken message => cases hs

theorem At.take_of_not_isSmooth {e : Event} (h : s.At v bytes failure)
    (hf : ∀ n, failure n = none) (hs : ¬ e.isSmooth = true) (events : List Event) :
    (s.take e).At v bytes (failureIn (e :: events)) ∧ (s.take e).error.isSome = true := by
  by_cases he : s.error.isSome = true
  · rw [take_of_error he]
    have ha := h.append_of_error hf he [] (failureIn (e :: events))
    rw [List.append_nil] at ha
    exact ⟨ha, he⟩
  · rw [take, if_neg he]
    cases h with
    | @reading lines hb hl hr _ _ =>
      have hm : lineFeed ∉ s.gathered.reverse := by rwa [List.mem_reverse]
      cases e with
      | chunk more => exact absurd rfl hs
      | interrupted => exact absurd rfl hs
      | malformed =>
        refine ⟨.broken ?_ hl hm rfl ?_, rfl⟩
        · exact hb.update _ _ _
        · show some (SourceError.encoding (s.lines + 1)) = _
          rw [hb.lines_eq]
      | broken message =>
        exact ⟨.broken (hb.update _ _ _) hl hm rfl rfl, rfl⟩
    | spoiled _ _ _ _ hx => exact absurd (congrArg Option.isSome hx) he
    | broken _ _ _ _ hx => exact absurd (congrArg Option.isSome hx) he

end

theorem foldl_take_of_error (h : s.error.isSome = true) (events : List Event) :
    events.foldl take s = s := by
  induction events with
  | nil => rfl
  | cons e events ih => rw [List.foldl_cons, take_of_error h, ih]

theorem At.foldl_take {bytes : Bytes} (h : s.At v bytes (fun _ => none)) (events : List Event) :
    (events.foldl take s).At v (bytes ++ bytesRead events) (failureIn events) := by
  induction events generalizing s bytes with
  | nil =>
    show s.At v (bytes ++ []) (fun _ => none)
    rwa [List.append_nil]
  | cons e events ih =>
    by_cases hs : e.isSmooth = true
    · rw [List.foldl_cons, bytesRead_cons_of_isSmooth hs, failureIn_cons_of_isSmooth hs,
        ← List.append_assoc]
      exact ih (h.take_of_isSmooth (fun _ => rfl) hs)
    · obtain ⟨ht, he⟩ := h.take_of_not_isSmooth (fun _ => rfl) hs events
      rw [List.foldl_cons, foldl_take_of_error he, bytesRead_cons_of_not_isSmooth hs,
        List.append_nil]
      exact ht

/-- every list of events leads to where its bytes and its failure say -/
theorem at_foldl_take (v : Vocabulary) (events : List Event) :
    (events.foldl take (new v)).At v (bytesRead events) (failureIn events) :=
  (at_new v).foldl_take events

/-! ## the end of input -/

theorem finish_of_nil (he : s.error = none) (hg : s.gathered = []) :
    s.finish = s.deliver s.scanner.close := by
  simp [finish, he, hg]

theorem finish_of_decode_eq_some {t : Text} (he : s.error = none) (hg : s.gathered ≠ [])
    (hd : Utf8.decode s.gathered.reverse = some t) :
    s.finish = (s.feedLine t).deliver (s.feedLine t).scanner.close := by
  have hf : (s.feedLine t).error = none := he
  simp [finish, endLine, he, hg, hd, hf]

theorem finish_of_decode_eq_none (he : s.error = none) (hg : s.gathered ≠ [])
    (hd : Utf8.decode s.gathered.reverse = none) :
    s.finish = { s with error := some (.encoding (s.lines + 1)) } := by
  simp [finish, endLine, he, hg, hd]

/-- the tokens and the error that come of the bytes, and of the failure or the end of input behind
them -/
inductive Outcome (v : Vocabulary) (bytes : Bytes) (failure : Nat → Option SourceError) :
    List Token → Option SourceError → Prop where
  | scanned {t : Text} (hf : ∀ n, failure n = none) (hd : Utf8.decode bytes = some t) :
      Outcome v bytes failure (scan v (dropMark t)) none
  | failed {lines : List Text} {e : SourceError} (hf : FailsBehind bytes failure lines e) :
      Outcome v bytes failure (v.tokens (Scanner.fresh.run (dropMark lines.flatten)).1) (some e)

section
variable {bytes : Bytes} {failure : Nat → Option SourceError}

theorem At.finish (h : s.At v bytes failure) :
    Outcome v bytes failure s.finish.tokens s.finish.error := by
  cases h with
  | @reading lines hs hl hr hf he =>
    by_cases hg : s.gathered = []
    · have hx : (s.deliver s.scanner.close).error = none := he
      rw [finish_of_nil he hg, hs.tokens_close, hx]
      rw [hg] at hl
      have hd := hl.decode_eq Utf8.decode_nil
      rw [List.append_nil] at hd
      exact .scanned hf hd
    · cases hd : Utf8.decode s.gathered.reverse with
      | some t =>
        have hn : ∀ l ∈ lines, l ≠ [] := fun l hx => (hl.isLine l hx).ne_nil
        have ht := (hs.feedLine hn t).tokens_close
        have hx : ((s.feedLine t).deliver (s.feedLine t).scanner.close).error = none := he
        rw [finish_of_decode_eq_some he hg hd, ht, hx, List.flatten_concat]
        exact .scanned hf (hl.decode_eq hd)
      | none =>
        have hm : lineFeed ∉ s.gathered.reverse := by rwa [List.mem_reverse]
        rw [finish_of_decode_eq_none he hg hd, hs.lines_eq]
        show Outcome v bytes failure s.tokens _
        rw [hs.tokens]
        exact .failed (.last hl hm hf hd)
  | spoiled hs hl hr hd he =>
    rw [finish_of_error (by rw [he]; rfl), hs.tokens, he]
    exact .failed (.line hl hr hd)
  | broken hs hl hr hf he =>
    rw [finish_of_error (by rw [he]; rfl), hs.tokens, he]
    exact .failed (.source hl hr hf)

end

theorem outcome_scanEvents (v : Vocabulary) (events : List Event) :
    Outcome v (bytesRead events) (failureIn events) (scanEvents v events).tokens
      (scanEvents v events).error := (at_foldl_take v events).finish

/-- the bytes and the failure decide the outcome -/
theorem Outcome.unique {bytes : Bytes} {failure : Nat → Option SourceError} {ts ts' : List Token}
    {e e' : Option SourceError} (h : Outcome v bytes failure ts e)
    (h' : Outcome v bytes failure ts' e') : ts = ts' ∧ e = e' := by
  cases h with
  | scanned hf hd =>
    cases h' with
    | scanned _ hd' =>
      rw [hd] at hd'
      cases hd'
      exact ⟨rfl, rfl⟩
    | failed h' =>
      rw [h'.decode_eq_none hf] at hd
      cases hd
  | failed h =>
    cases h' with
    | scanned hf hd =>
      rw [h.decode_eq_none hf] at hd
      cases hd
    | failed h' =>
      obtain ⟨rfl, rfl⟩ := h.unique h'
      exact ⟨rfl, rfl⟩

end Stream

end CurlyLex
