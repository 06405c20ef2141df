import CurlyLex.Proofs.Runs

/-!
# Listings and summaries

The listing of a list of tokens has one line for each token, whatever the lexemes are, and the line
tells the kind of the token.  So the summary of the tokens is a summary of the lines.

* `textLines_listing`   the lines of a listing;
* `Kind.opens`, `opens_line_iff`   a line that begins with the name of a kind is the line of a token
                      of that kind;
* `heads`, `numberOn`   the name and the number on a row of a summary;
* `Summarises p q`    the rows `q` are the summary of the lines `p`;
* `listing_and_summary_agree`   the four runs of `lex` on one source, with and without `--summary`
                      and `--deny-errors`.
-/

namespace CurlyLex

/-! ## the lines of a listing -/

theorem not_lineBreak_of_mem_escapeLineBreaks {t : Text} :
    ∀ c ∈ escapeLineBreaks t, c ≠ '\r' ∧ c ≠ '\n' := by
  have hr : ∀ c ∈ ['\\', 'r'], c ≠ '\r' ∧ c ≠ '\n' := by simp
  have hn : ∀ c ∈ ['\\', 'n'], c ≠ '\r' ∧ c ≠ '\n' := by simp
  intro c hc
  rw [escapeLineBreaks_eq_escapeEach] at hc
  obtain ⟨d, _, hd⟩ := List.mem_flatMap.mp hc
  rw [escapeChar] at hd
  split at hd
  · exact hr c hd
  · split at hd
    · exact hn c hd
    · next hdr hdn =>
      rw [List.mem_singleton.mp hd]
      exact ⟨hdr, hdn⟩

theorem Kind.lineFeed_not_mem_name (k : Kind) : '\n' ∉ k.name.toList := by cases k <;> decide

theorem Token.lineFeed_not_mem_line (t : Token) : '\n' ∉ t.line := by
  have hn := t.kind.lineFeed_not_mem_name
  have hl : '\n' ∉ escapeLineBreaks t.lexeme := fun h =>
    (not_lineBreak_of_mem_escapeLineBreaks _ h).2 rfl
  simp [Token.line, hn, hl]

theorem listing_eq_ofLines (ts : List Token) : listing ts = ofLines (ts.map Token.line) := by
  rw [ofLines, List.flatMap_map, listing]

theorem textLines_listing (ts : List Token) : textLines (listing ts) = ts.map Token.line := by
  rw [listing_eq_ofLines]
  apply textLines_ofLines
  intro l hl
  obtain ⟨t, _, rfl⟩ := List.mem_map.mp hl
  exact t.lineFeed_not_mem_line

/-! ## names at the beginning of a line -/

/-- does the row begin with the name and a space? -/
def heads (name : String) (row : Text) : Bool := (name.toList ++ [' ']).isPrefixOf row

/-- does the line begin with a bracket, the name of the kind and a space? -/
def Kind.opens (k : Kind) (line : Text) : Bool := ('(' :: (k.name.toList ++ [' '])).isPrefixOf line

/-- the names that a row may begin with -/
def rowNames : List String := "TOTAL" :: Kind.all.map Kind.name

theorem Kind.name_mem_rowNames (k : Kind) : k.name ∈ rowNames :=
  List.mem_cons_of_mem _ (List.mem_map_of_mem k.mem_all)

theorem total_mem_rowNames : "TOTAL" ∈ rowNames := List.mem_cons_self

theorem Kind.name_ne_total (k : Kind) : k.name ≠ "TOTAL" := by cases k <;> decide

theorem Kind.eq_of_name_eq {k k' : Kind} (h : k.name = k'.name) : k = k' := by
  have ho := congrArg ofName? h
  rw [ofName?_name, ofName?_name] at ho
  exact Option.some.inj ho

/-- a row begins with one name only -/
theorem eq_of_heads {a b : String} (ha : a ∈ rowNames) (hb : b ∈ rowNames) {row : Text}
    (h : heads a row = true) (h' : heads b row = true) : a = b := by
  have hp : ∀ a ∈ rowNames, ∀ b ∈ rowNames, heads a (b.toList ++ [' ']) = true → a = b := by
    decide +kernel
  -- of two names that one row begins with, the one with its space begins the other
  rcases List.prefix_or_prefix_of_prefix (List.isPrefixOf_iff_prefix.mp h)
    (List.isPrefixOf_iff_prefix.mp h') with hab | hba
  · exact hp a ha b hb (List.isPrefixOf_iff_prefix.mpr hab)
  · exact (hp b hb a ha (List.isPrefixOf_iff_prefix.mpr hba)).symm

theorem opens_line_iff (k : Kind) (t : Token) : k.opens t.line = true ↔ t.kind = k := by
  obtain ⟨rest, hl⟩ : ∃ rest, t.line = '(' :: (t.kind.name.toList ++ [' '] ++ rest) :=
    ⟨escapeLineBreaks t.lexeme ++ [')'], by simp [Token.line]⟩
  have ht : heads t.kind.name (t.kind.name.toList ++ [' '] ++ rest) = true :=
    List.isPrefixOf_iff_prefix.mpr (List.prefix_append _ rest)
  have ho : k.opens t.line = heads k.name (t.kind.name.toList ++ [' '] ++ rest) := by
    rw [hl]
    rfl
  rw [ho]
  constructor
  · intro h
    exact Kind.eq_of_name_eq (eq_of_heads t.kind.name_mem_rowNames k.name_mem_rowNames ht h)
  · rintro rfl
    exact ht

theorem countP_opens_lines (ts : List Token) (k : Kind) :
    (ts.map Token.line).countP k.opens = countOf ts k := by
  rw [List.countP_map, countOf]
  congr 1
  funext t
  rw [Function.comp_apply, Bool.eq_iff_iff, opens_line_iff, beq_iff_eq]

/-! ## the rows of a summary -/

/-- the number on a row, in its second column -/
def numberOn (row : Text) : Nat := Nat.ofDigitChars 10 (row.drop nameWidth) 0

section
variable {name : String} (hm : name ∈ rowNames) (n : Nat)
include hm

theorem length_lt_nameWidth : name.length < nameWidth := by
  have h : ∀ a ∈ rowNames, a.length < nameWidth := by decide +kernel
  exact h name hm

theorem heads_tallyLine : heads name (tallyLine name n) = true := by
  obtain ⟨m, hw⟩ := Nat.exists_eq_add_of_lt (length_lt_nameWidth hm)
  have hs : nameWidth - name.length = m + 1 := by omega
  refine List.isPrefixOf_iff_prefix.mpr ⟨List.replicate m ' ' ++ Nat.toDigits 10 n, ?_⟩
  simp [tallyLine, hs, List.replicate_succ]

theorem numberOn_tallyLine : numberOn (tallyLine name n) = n := by
  have hw : (name.toList ++ List.replicate (nameWidth - name.length) ' ').length = nameWidth := by
    have h := length_lt_nameWidth hm
    rw [List.length_append, List.length_replicate, String.length_toList]
    omega
  rw [numberOn, tallyLine, List.drop_left' hw]
  exact Nat.ofDigitChars_toDigits (by decide) (by decide)

theorem lineFeed_not_mem_tallyLine : '\n' ∉ tallyLine name n := by
  have hn : ∀ a ∈ rowNames, '\n' ∉ a.toList := by decide +kernel
  have hd : '\n' ∉ Nat.toDigits 10 n := fun h =>
    absurd (Nat.isDigit_of_mem_toDigits (by decide) (by decide) h) (by decide)
  simp [tallyLine, hn name hm, hd]

end

/-- the rows of some kinds, each with its number, and the row of all -/
def rowsOf (ks : List Kind) (number : Kind → Nat) (total : Nat) : List Text :=
  ks.map (fun k => tallyLine k.name (number k)) ++ [tallyLine "TOTAL" total]

section
variable {ks : List Kind} {number : Kind → Nat} {total : Nat} {k : Kind} {row : Text}

theorem lineFeed_not_mem_of_mem_rowsOf : ∀ row ∈ rowsOf ks number total, '\n' ∉ row := by
  intro row hm
  rcases List.mem_append.mp hm with hm | hm
  · obtain ⟨k, _, rfl⟩ := List.mem_map.mp hm
    exact lineFeed_not_mem_tallyLine k.name_mem_rowNames (number k)
  · rw [List.mem_singleton.mp hm]
    exact lineFeed_not_mem_tallyLine total_mem_rowNames total

theorem eq_of_mem_rowsOf (hm : row ∈ rowsOf ks number total) (h : heads k.name row = true) :
    k ∈ ks ∧ row = tallyLine k.name (number k) := by
  rcases List.mem_append.mp hm with hm | hm
  · obtain ⟨k', hk, rfl⟩ := List.mem_map.mp hm
    have hn := eq_of_heads k.name_mem_rowNames k'.name_mem_rowNames h
      (heads_tallyLine k'.name_mem_rowNames (number k'))
    obtain rfl := Kind.eq_of_name_eq hn
    exact ⟨hk, rfl⟩
  · rw [List.mem_singleton.mp hm] at h
    exact absurd (eq_of_heads k.name_mem_rowNames total_mem_rowNames h
      (heads_tallyLine total_mem_rowNames total)) k.name_ne_total

theorem mem_rowsOf (hk : k ∈ ks) : tallyLine k.name (number k) ∈ rowsOf ks number total :=
  List.mem_append_left _ (List.mem_map_of_mem hk)

end

/-- the rows `q` are the summary of the lines `p` -/
structure Summarises (p q : List Text) : Prop where
  /-- the rows of the kinds that occur, in the order of the kinds, and last the row of all lines -/
  rows : q = rowsOf (Kind.all.filter fun k => p.any k.opens) (fun k => p.countP k.opens) p.length
  /-- a kind has a row exactly if it occurs -/
  row_iff : ∀ k : Kind, (∃ row ∈ q, heads k.name row = true) ↔ ∃ line ∈ p, k.opens line = true
  number : ∀ k : Kind, ∀ row ∈ q, heads k.name row = true → numberOn row = p.countP k.opens
  total : ∃ row ∈ q.getLast?, heads "TOTAL" row = true ∧ numberOn row = p.length

/-- the rows of a summary can be told apart and read -/
theorem summarises_of_rows {p q : List Text}
    (h : q = rowsOf (Kind.all.filter fun k => p.any k.opens) (fun k => p.countP k.opens)
      p.length) : Summarises p q := by
  refine ⟨h, ?_, ?_, ?_⟩
  · intro k
    rw [h]
    constructor
    · rintro ⟨row, hm, hr⟩
      exact List.any_eq_true.mp (List.mem_filter.mp (eq_of_mem_rowsOf hm hr).1).2
    · intro hp
      exact ⟨_, mem_rowsOf (List.mem_filter.mpr ⟨k.mem_all, List.any_eq_true.mpr hp⟩),
        heads_tallyLine k.name_mem_rowNames _⟩
  · intro k row hm hr
    rw [h] at hm
    rw [(eq_of_mem_rowsOf hm hr).2]
    exact numberOn_tallyLine k.name_mem_rowNames _
  · rw [h, rowsOf, List.getLast?_concat]
    exact ⟨_, rfl, heads_tallyLine total_mem_rowNames _, numberOn_tallyLine total_mem_rowNames _⟩

/-- the tally leaves out the kinds that do not occur -/
theorem tally_eq_ofLines (ts : List Token) :
    tally ts = ofLines ((Kind.all.filter fun k => decide (countOf ts k ≠ 0)).map fun k =>
      tallyLine k.name (countOf ts k)) := by
  rw [tally]
  induction Kind.all with
  | nil => rfl
  | cons k ks ih =>
    rw [List.flatMap_cons, ih]
    by_cases hk : countOf ts k = 0
    · rw [List.filter_cons_of_neg (by simpa using hk), if_pos hk, List.nil_append]
    · rw [List.filter_cons_of_pos (by simpa using hk), if_neg hk, List.map_cons, ofLines_cons,
        List.append_assoc, List.singleton_append]

theorem any_opens_lines (ts : List Token) (k : Kind) :
    (ts.map Token.line).any k.opens = decide (countOf ts k ≠ 0) := by
  rw [Bool.eq_iff_iff, List.any_eq_true, decide_eq_true_iff, ← countP_opens_lines,
    ← Nat.pos_iff_ne_zero, List.countP_pos_iff]

theorem textLines_summaryOf (ts : List Token) :
    textLines (summaryOf ts) =
      rowsOf (Kind.all.filter fun k => decide (countOf ts k ≠ 0)) (countOf ts) ts.length := by
  rw [← textLines_ofLines lineFeed_not_mem_of_mem_rowsOf, rowsOf, ofLines_append,
    ← tally_eq_ofLines, ofLines_cons, ofLines_nil, summaryOf, List.append_assoc]

theorem summarises_summaryOf (ts : List Token) :
    Summarises (textLines (listing ts)) (textLines (summaryOf ts)) := by
  apply summarises_of_rows
  rw [textLines_summaryOf, textLines_listing, List.length_map]
  simp only [any_opens_lines, countP_opens_lines]

/-! ## runs of the command -/

theorem Stream.result_eq_ok_iff {s : Stream} {ts : List Token} :
    s.result = .ok ts ↔ s.error = none ∧ s.tokens = ts := by
  rw [result]
  cases s.error <;> simp

namespace LexOptions

section
variable {o : LexOptions} {standardInput : List Event} {files : Files} {v : Vocabulary}
  {events : List Event} {tokens : List Token}
  (hv : o.settings.vocabulary files = .ok v) (hs : o.source standardInput files = .ok events)
  (hr : (Stream.scanEvents v events).result = .ok tokens)
include hv hs hr

theorem out_run : (o.run .unlimited standardInput files).out =
    Utf8.encode (if o.summary then summaryOf tokens else listing tokens) := by
  obtain ⟨he, ht⟩ := Stream.result_eq_ok_iff.mp hr
  rw [run_eq hv hs, Sink.receive_unlimited, report, he, ht]
  rfl

theorem failure_run : (o.run .unlimited standardInput files).failure =
    if o.denyErrors && decide (0 < countOf tokens .error) then
      some (.malformed (countOf tokens .error))
    else none := by
  obtain ⟨he, ht⟩ := Stream.result_eq_ok_iff.mp hr
  rw [run_eq hv hs, verdict, he, ht]
  rfl

end

end LexOptions

/-- of a source that is scanned without a failure the command prints a listing with one line for
each token, and with `--summary` the summary of those lines; `--deny-errors` changes neither, and
the command fails only with it, exactly if there are lines of malformed tokens, and tells how many
they are -/
theorem listing_and_summary_agree (o : LexOptions) (standardInput : List Event) (files : Files)
    (v : Vocabulary) (events : List Event) (tokens : List Token)
    (hv : o.settings.vocabulary files = .ok v) (hs : o.source standardInput files = .ok events)
    (hr : (Stream.scanEvents v events).result = .ok tokens) :
    let run summary denyErrors :=
      { o with summary, denyErrors : LexOptions }.run .unlimited standardInput files
    ∃ p q, (∀ deny, (run false deny).out = Utf8.encode p) ∧
      (∀ deny, (run true deny).out = Utf8.encode q) ∧
      textLines p = tokens.map Token.line ∧ Summarises (textLines p) (textLines q) ∧
      ∀ summary, (run summary false).failure = none ∧
        (run summary true).failure =
          let n := (textLines p).countP Kind.error.opens
          if 0 < n then some (.malformed n) else none := by
  intro run
  refine ⟨listing tokens, summaryOf tokens, ?_, ?_, textLines_listing tokens,
    summarises_summaryOf tokens, ?_⟩
  · intro deny
    exact LexOptions.out_run (o := { o with summary := false, denyErrors := deny }) hv hs hr
  · intro deny
    exact LexOptions.out_run (o := { o with summary := true, denyErrors := deny }) hv hs hr
  · intro summary
    have hf deny := LexOptions.failure_run (o := { o with summary, denyErrors := deny }) hv hs hr
    refine ⟨hf false, ?_⟩
    rw [textLines_listing, countP_opens_lines]
    simpa using hf true

/-- a comment in which a line looks like that of a malformed token, and a malformed token -/
theorem listing_and_summary_agree_lookalike :
    let comment := "/*\n(ERROR x)*/".toList
    let input : List Event := [.chunk (Utf8.encode (comment ++ ['\'']))]
    let tokens : List Token := [⟨.comment, comment⟩, ⟨.error, ['\'']⟩]
    let o : LexOptions := ⟨.standard, .default, false, true⟩
    let outcome := o.run .unlimited input fun _ => .unopened .notFound
    (Stream.scanEvents .builtIn input).result = .ok tokens ∧
      ∃ p, outcome.out = Utf8.encode p ∧ (textLines p).length = 2 ∧
        outcome.failure = some (.malformed 1) := by
  intro comment input tokens o outcome
  have hr : (Stream.scanEvents .builtIn input).result = .ok tokens :=
    Stream.result_eq_ok_iff.mpr (by decide +kernel)
  obtain ⟨p, q, hp, -, hl, -, hf⟩ :=
    listing_and_summary_agree o input (fun _ => .unopened .notFound) .builtIn input tokens
      (Settings.vocabulary_default _) rfl hr
  refine ⟨hr, p, hp true, ?_, ?_⟩
  · rw [hl]
    rfl
  · have he := (hf false).2
    rw [hl] at he
    exact he.trans (by decide +kernel)

end CurlyLex
