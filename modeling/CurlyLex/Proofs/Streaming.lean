import CurlyLex.Proofs.Reading

/-!
# Scanning a stream

A stream delivers what its lines complete, one line after the other, and at its end what a source
text is scanned into.

* `Stream.moment v before a`   the stream in the middle of its run, and so of a chunk;
* `behind_moment`     at each moment it has scanned the lines that it has read to their ends;
* `stream_scans_bytes`   without a failure of the source the bytes decide, however they are cut into
                      chunks: they are scanned as one text, or the line is told that holds the first
                      bytes that are none;
* `failing_stream_delivers_settled`   a stream that fails has delivered the tokens of the lines
                      before the failure, each behind the line that completes it, and no more, and
                      they begin every scan that begins with those lines.
-/

namespace CurlyLex

theorem bytesRead_chunk_prefix (before after : List Event) (a b : Bytes) :
    bytesRead (before ++ [.chunk a]) <+: bytesRead (before ++ .chunk (a ++ b) :: after) := by
  induction before with
  | nil =>
    rw [List.nil_append, List.nil_append, bytesRead_cons_of_isSmooth rfl,
      bytesRead_cons_of_isSmooth rfl]
    show a ++ [] <+: a ++ b ++ _
    rw [List.append_nil, List.append_assoc]
    exact List.prefix_append a _
  | cons e before ih =>
    rw [List.cons_append, List.cons_append]
    by_cases hs : e.isSmooth = true
    · rw [bytesRead_cons_of_isSmooth hs, bytesRead_cons_of_isSmooth hs]
      exact (List.prefix_append_right_inj _).mpr ih
    · rw [bytesRead_cons_of_not_isSmooth hs]
      exact List.nil_prefix

namespace Stream

/-! ## the result -/

theorem result_of_error_eq_none {s : Stream} (h : s.error = none) : s.result = .ok s.tokens := by
  rw [result, h]

theorem result_of_error_eq_some {s : Stream} {e : SourceError} (h : s.error = some e) :
    s.result = .error e := by
  rw [result, h]

theorem result_congr {s s' : Stream} (ht : s.tokens = s'.tokens) (he : s.error = s'.error) :
    s.result = s'.result := by
  rw [result, result, ht, he]

/-! ## moments of a run -/

/-- the stream when the bytes `a` of a chunk behind the events `before` have been read -/
def moment (v : Vocabulary) (before : List Event) (a : Bytes) : Stream :=
  (before ++ [Event.chunk a]).foldl take (new v)

theorem take_chunk_append (s : Stream) (a b : Bytes) :
    s.take (.chunk (a ++ b)) = b.foldl byte (s.take (.chunk a)) := by
  by_cases he : s.error.isSome = true
  · rw [take_of_error he, take_of_error he, foldl_byte_of_error he]
  · rw [take, take, if_neg he, if_neg he]
    exact List.foldl_append

/-- a run goes on from each of its moments -/
theorem scanEvents_eq_of_moment (v : Vocabulary) (before after : List Event) (a b : Bytes) :
    scanEvents v (before ++ .chunk (a ++ b) :: after) =
      (after.foldl take (b.foldl byte (moment v before a))).finish := by
  rw [scanEvents, moment, List.foldl_append, List.foldl_append, List.foldl_cons,
    take_chunk_append]
  rfl

section
variable {v : Vocabulary} {bytes more rest : Bytes} {failure : Nat → Option SourceError}
  {lines : List Text} {s : Stream}

/-- a stream has scanned as many lines as it has met line feeds, up to where it fails -/
theorem At.behind_take (h : s.At v bytes failure) (hl : Lined (bytes ++ more) lines rest)
    (hn : NoLine rest) : s.Behind v (lines.take (bytes.count lineFeed)) := by
  cases h with
  | reading hs hx hr _ _ =>
    have hm : lineFeed ∉ s.gathered.reverse := by rwa [List.mem_reverse]
    rwa [← hl.eq_take hn hx hm]
  | @spoiled _ line behind hs hx hr hd _ =>
    have hn' : NoLine (line ++ lineFeed :: behind ++ more) := by
      rw [List.append_assoc]
      exact noLine_of_decode_eq_none hr hd
    rwa [← hl.eq_take_of_noLine hn hx hn']
  | broken hs hx hr _ _ => rwa [← hl.eq_take hn hx hr]

theorem behind_moment {before after : List Event} {a b : Bytes}
    (hl : Lined (bytesRead (before ++ .chunk (a ++ b) :: after)) lines rest) (hn : NoLine rest) :
    (moment v before a).Behind v
      (lines.take ((bytesRead (before ++ [.chunk a])).count lineFeed)) := by
  obtain ⟨more, e⟩ := bytesRead_chunk_prefix before after a b
  rw [← e] at hl
  exact (at_foldl_take v (before ++ [.chunk a])).behind_take hl hn

end

theorem Behind.tokens_eq_fed {v : Vocabulary} {lines : List Text} {s : Stream}
    (h : s.Behind v lines) : s.tokens = (Session.fed v (dropMark lines.flatten)).tokens := by
  rw [h.tokens, Session.tokens_fed]

end Stream

/-! ## sources that do not fail -/

theorem Stream.outcome_of_isSmooth (v : Vocabulary) {events : List Event}
    (h : ∀ e ∈ events, e.isSmooth = true) :
    Outcome v (events.flatMap Event.bytes) (fun _ => none) (scanEvents v events).tokens
      (scanEvents v events).error := by
  have ho := outcome_scanEvents v events
  rwa [bytesRead_eq_flatMap h, funext (failureIn_eq_none h)] at ho

/-- while the source fails in no line, the longest text tells the line that is no text -/
theorem FailsBehind.error_eq_encoding {bytes p : Bytes} {failure : Nat → Option SourceError}
    {lines : List Text} {e : SourceError} (h : FailsBehind bytes failure lines e)
    (hf : ∀ n, failure n = none) (hp : LongestText p bytes) :
    e = .encoding (1 + p.count Stream.lineFeed) := by
  obtain ⟨rest, hl, hn⟩ := h.exists_lined
  rw [hp.count_lineFeed hl hn, Nat.add_comm]
  cases h with
  | line _ _ _ => rfl
  | last _ _ _ _ => rfl
  | source _ _ hx => cases (hf _).symm.trans hx

/-- the events of a source that does not fail matter through their bytes only: these are scanned
as one text, without a byte order mark at its beginning, or they are no text, and then the line is
told in which they cease to be one -/
theorem stream_scans_bytes (v : Vocabulary) (events : List Event)
    (h : ∀ e ∈ events, e.isSmooth = true) :
    let bytes := events.flatMap Event.bytes
    let s := Stream.scanEvents v events
    (match Utf8.decode bytes with
      | some t =>
        s.error = none ∧ s.tokens = scan v (Stream.dropMark t) ∧
          s.result = .ok (scan v (Stream.dropMark t))
      | none =>
        ∃ p, LongestText p bytes ∧
          s.error = some (.encoding (1 + p.count Stream.lineFeed)) ∧
          s.result = .error (.encoding (1 + p.count Stream.lineFeed))) ∧
      ∀ events' : List Event, (∀ e ∈ events', e.isSmooth = true) →
        events'.flatMap Event.bytes = bytes →
        let s' := Stream.scanEvents v events'
        s'.tokens = s.tokens ∧ s'.error = s.error ∧ s'.result = s.result := by
  intro bytes s
  have ho : Stream.Outcome v bytes (fun _ => none) s.tokens s.error :=
    Stream.outcome_of_isSmooth v h
  refine ⟨?_, ?_⟩
  · generalize hts : s.tokens = ts at ho ⊢
    generalize he : s.error = e at ho ⊢
    cases ho with
    | scanned _ hd =>
      rw [hd]
      refine ⟨rfl, rfl, ?_⟩
      rw [Stream.result_of_error_eq_none he, hts]
    | failed hf =>
      obtain ⟨p, hp⟩ := exists_longestText bytes
      obtain rfl := hf.error_eq_encoding (fun _ => rfl) hp
      rw [hf.decode_eq_none (fun _ => rfl)]
      exact ⟨p, hp, rfl, Stream.result_of_error_eq_some he⟩
  · intro events' h' hb s'
    have ho' : Stream.Outcome v bytes (fun _ => none) s'.tokens s'.error := by
      rw [← hb]
      exact Stream.outcome_of_isSmooth v h'
    obtain ⟨ht, he⟩ := ho'.unique ho
    exact ⟨ht, he, Stream.result_congr ht he⟩

/-- a byte order mark and a letter, both cut by the source: the text has two letters and a line
feed -/
theorem stream_scans_bytes_cut_in_letter :
    let v := Vocabulary.ofWords []
    let bytes : Bytes := [0xEF, 0xBB, 0xBF, 0x61, 0xC3, 0xA9, 0x0A]
    let events : List Event :=
      [.chunk [0xEF, 0xBB], .interrupted, .chunk [0xBF, 0x61, 0xC3], .chunk [], .chunk [0xA9, 0x0A]]
    let s := Stream.scanEvents v events
    (∀ e ∈ events, e.isSmooth = true) ∧ s.error = none ∧
      s.tokens = [⟨.identifier, ['a', 'é']⟩, ⟨.whitespace, ['\n']⟩] ∧
      (Stream.scanEvents v [.chunk bytes]).result = s.result := by
  intro v bytes events s
  have h : ∀ e ∈ events, e.isSmooth = true := by decide
  have hd : Utf8.decode (events.flatMap Event.bytes) =
      some [Stream.byteOrderMark, 'a', 'é', '\n'] := by decide +kernel
  have ht : scan v (Stream.dropMark [Stream.byteOrderMark, 'a', 'é', '\n']) =
      [⟨.identifier, ['a', 'é']⟩, ⟨.whitespace, ['\n']⟩] := by decide +kernel
  obtain ⟨hs, ha⟩ := stream_scans_bytes v events h
  rw [hd] at hs
  obtain ⟨he, hs, _⟩ := hs
  refine ⟨h, he, hs.trans ht, ?_⟩
  exact (ha [.chunk bytes] (by decide) (by decide)).2.2

/-! ## streams that fail -/

theorem Stream.exists_failsBehind {v : Vocabulary} {events : List Event} {e : SourceError}
    (h : (scanEvents v events).error = some e) :
    ∃ lines : List Text, FailsBehind (bytesRead events) (failureIn events) lines e ∧
      (scanEvents v events).tokens = (Session.fed v (dropMark lines.flatten)).tokens := by
  have ho := outcome_scanEvents v events
  rw [h] at ho
  generalize (scanEvents v events).tokens = ts at ho ⊢
  cases ho with
  | @failed lines _ hf => exact ⟨lines, hf, (Session.tokens_fed v _).symm⟩

/-- a stream that fails has delivered the tokens that are settled by the lines before the failing
one, and nothing of that line, nor of the token that was open before it.  Whatever might have
followed those lines, the tokens would have been the first ones.  And it has delivered them line by
line: in the middle of its run, those that were settled by the lines it had read to their ends. -/
theorem failing_stream_delivers_settled (v : Vocabulary) (events : List Event) (e : SourceError)
    (h : (Stream.scanEvents v events).error = some e) :
    let s := Stream.scanEvents v events
    ∃ lines : List Text, FailsBehind (bytesRead events) (failureIn events) lines e ∧
      let text := Stream.dropMark lines.flatten
      s.tokens = (Session.fed v text).tokens ∧
        textOf s.tokens ++ (Session.fed v text).scanner.buffered = text ∧
        (∀ w, s.tokens <+: scan v (text ++ w)) ∧
        (∀ before a b after, events = before ++ .chunk (a ++ b) :: after →
          let m := Stream.moment v before a
          let k := (bytesRead (before ++ [.chunk a])).count Stream.lineFeed
          s = (after.foldl Stream.take (b.foldl Stream.byte m)).finish ∧
            m.tokens = (Session.fed v (Stream.dropMark (lines.take k).flatten)).tokens) ∧
        s.result = .error e := by
  intro s
  obtain ⟨lines, hf, ht⟩ := Stream.exists_failsBehind h
  refine ⟨lines, hf, ?_⟩
  intro text
  have ht : s.tokens = (Session.fed v text).tokens := ht
  refine ⟨ht, ?_, ?_, ?_, Stream.result_of_error_eq_some h⟩
  · rw [ht]
    exact Session.textOf_tokens_fed v text
  · intro w
    rw [ht]
    exact Session.tokens_fed_prefix v text w
  · intro before a b after hev m k
    obtain ⟨rest, hl, hn⟩ := hf.exists_lined
    rw [hev] at hl
    refine ⟨?_, (Stream.behind_moment hl hn).tokens_eq_fed⟩
    show Stream.scanEvents v events = _
    rw [hev]
    exact Stream.scanEvents_eq_of_moment v before after a b

/-- a source that breaks in a line behind an open string: the string is not delivered, but what
stands before it is, and the first line was delivered in the middle of the second -/
theorem failing_stream_delivers_settled_before_string :
    let v := Vocabulary.ofWords []
    let a : Bytes := [0x61, 0x0A, 0x22]
    let b : Bytes := [0x78, 0x0A, 0xC3]
    let events : List Event := [.chunk (a ++ b), .interrupted, .broken "gone"]
    let s := Stream.scanEvents v events
    let e := SourceError.broken "gone"
    s.error = some e ∧ s.tokens = [⟨.identifier, ['a']⟩, ⟨.whitespace, ['\n']⟩] ∧
      ∃ lines : List Text, FailsBehind (bytesRead events) (failureIn events) lines e ∧
        (∀ w, s.tokens <+: scan v (Stream.dropMark lines.flatten ++ w)) ∧
        (Stream.moment v [] a).tokens =
          (Session.fed v (Stream.dropMark (lines.take 1).flatten)).tokens ∧
        s.result = .error e := by
  intro v a b events s e
  have he : s.error = some e := by decide +kernel
  have ht : s.tokens = [⟨.identifier, ['a']⟩, ⟨.whitespace, ['\n']⟩] := by decide +kernel
  obtain ⟨lines, hf, _, _, hw, hm, hr⟩ := failing_stream_delivers_settled v events e he
  have h1 := (hm [] a b [.interrupted, .broken "gone"] rfl).2
  exact ⟨he, ht, lines, hf, hw, h1, hr⟩

end CurlyLex
