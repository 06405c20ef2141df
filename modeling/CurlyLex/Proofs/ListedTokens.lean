import CurlyLex.Proofs.Listings
import CurlyLex.Proofs.Pieces

/-!
# What a listing tells

A listing tells where each line ends, and a line tells the kind of its token.  Of the lexeme it
does not tell whether a backslash and a letter were in it, or a line break that is written as these
two.  So it tells the lexemes as far as there are no backslashes in them.

* `unescapeLineBreaks`   a text with the line breaks that its escapes stand for;
* `escapeLineBreaks_eq_iff`   two texts are written alike exactly if these are the same;
* `Token.line_eq_iff`   the line of a token tells its kind, and how its lexeme is written;
* `listing_eq_iff`      so listings are the same exactly if the tokens are, but for escapes;
* `listing_tells_tokens`   without backslashes, they are the same exactly if the tokens are, and
                      the texts that were scanned.
-/

namespace CurlyLex

/-! ## escapes -/

/-- what is written has no line break, so writing it again changes nothing -/
theorem escapeLineBreaks_escapeLineBreaks (t : Text) :
    escapeLineBreaks (escapeLineBreaks t) = escapeLineBreaks t := by
  have h : (escapeLineBreaks t).any isEscaped = false := by
    rw [List.any_eq_false]
    intro c hc
    have hn := not_lineBreak_of_mem_escapeLineBreaks c hc
    simp [isEscaped, hn.1, hn.2]
  rw [escapeLineBreaks_eq_escapeEach, escapeEach_eq_self h]

/-- reads every escape as the line break that it may stand for -/
def unescapeLineBreaks : Text → Text
  | '\\' :: 'r' :: rest => '\r' :: unescapeLineBreaks rest
  | '\\' :: 'n' :: rest => '\n' :: unescapeLineBreaks rest
  | c :: rest => c :: unescapeLineBreaks rest
  | [] => []

/-- a character that begins no escape -/
theorem unescapeLineBreaks_cons {c : Char} {t : Text}
    (h : c = '\\' → ∀ d ∈ t.head?, d ≠ 'r' ∧ d ≠ 'n') :
    unescapeLineBreaks (c :: t) = c :: unescapeLineBreaks t := by
  rw [unescapeLineBreaks]
  · rintro rest rfl rfl
    exact (h rfl 'r' rfl).1 rfl
  · rintro rest rfl rfl
    exact (h rfl 'n' rfl).2 rfl

theorem unescapeLineBreaks_eq_self {t : Text} (h : '\\' ∉ t) : unescapeLineBreaks t = t := by
  induction t with
  | nil => rfl
  | cons c t ih =>
    obtain ⟨hc, ht⟩ := List.ne_and_not_mem_of_not_mem_cons h
    rw [unescapeLineBreaks_cons fun e => absurd e.symm hc, ih ht]

/-- what is written begins with the backslash of an escape, or as the text does -/
theorem mem_head?_of_mem_head?_escapeLineBreaks {d : Char} {t : Text}
    (h : d ∈ (escapeLineBreaks t).head?) : d = '\\' ∨ d ∈ t.head? := by
  cases t with
  | nil => cases h
  | cons c t =>
    rw [escapeLineBreaks_cons, escapeChar] at h
    split_ifs at h with h1 h2
    · cases h
      exact Or.inl rfl
    · cases h
      exact Or.inl rfl
    · cases h
      exact Or.inr rfl

theorem unescapeLineBreaks_escapeLineBreaks (t : Text) :
    unescapeLineBreaks (escapeLineBreaks t) = unescapeLineBreaks t := by
  fun_induction unescapeLineBreaks t with
  | case1 rest ih =>
    rw [escapeLineBreaks_cons, escapeLineBreaks_cons]
    show '\r' :: unescapeLineBreaks (escapeLineBreaks rest) = _
    rw [ih]
  | case2 rest ih =>
    rw [escapeLineBreaks_cons, escapeLineBreaks_cons]
    show '\n' :: unescapeLineBreaks (escapeLineBreaks rest) = _
    rw [ih]
  | case3 c rest h1 h2 ih =>
    rw [escapeLineBreaks_cons, escapeChar]
    split_ifs with hr hn
    · show '\r' :: unescapeLineBreaks (escapeLineBreaks rest) = _
      rw [ih, hr]
    · show '\n' :: unescapeLineBreaks (escapeLineBreaks rest) = _
      rw [ih, hn]
    · show unescapeLineBreaks (c :: escapeLineBreaks rest) = _
      rw [unescapeLineBreaks_cons, ih]
      intro hc d hd
      -- behind the backslash stands what stood there, or the backslash of an escape
      rcases mem_head?_of_mem_head?_escapeLineBreaks hd with rfl | hd
      · exact ⟨by decide, by decide⟩
      · obtain ⟨rest', rfl⟩ := List.head?_eq_some_iff.mp hd
        exact ⟨fun e => h1 rest' hc (by rw [e]), fun e => h2 rest' hc (by rw [e])⟩
  | case4 => rfl

theorem escapeLineBreaks_unescapeLineBreaks (t : Text) :
    escapeLineBreaks (unescapeLineBreaks t) = escapeLineBreaks t := by
  fun_induction unescapeLineBreaks t with
  | case1 rest ih =>
    rw [escapeLineBreaks_cons, ih, escapeLineBreaks_cons, escapeLineBreaks_cons]
    rfl
  | case2 rest ih =>
    rw [escapeLineBreaks_cons, ih, escapeLineBreaks_cons, escapeLineBreaks_cons]
    rfl
  | case3 c rest h1 h2 ih => rw [escapeLineBreaks_cons, ih, escapeLineBreaks_cons]
  | case4 => rfl

/-- texts are written alike exactly if they are the same but for escapes -/
theorem escapeLineBreaks_eq_iff {t u : Text} :
    escapeLineBreaks t = escapeLineBreaks u ↔ unescapeLineBreaks t = unescapeLineBreaks u := by
  constructor
  · intro h
    rw [← unescapeLineBreaks_escapeLineBreaks t, h, unescapeLineBreaks_escapeLineBreaks]
  · intro h
    rw [← escapeLineBreaks_unescapeLineBreaks t, h, escapeLineBreaks_unescapeLineBreaks]

/-! ## tokens -/

namespace Token

/-- the token with the line breaks that the escapes of its lexeme stand for -/
def unescaped (t : Token) : Token := ⟨t.kind, unescapeLineBreaks t.lexeme⟩

theorem unescaped_eq_self {t : Token} (h : '\\' ∉ t.lexeme) : t.unescaped = t := by
  rw [unescaped, unescapeLineBreaks_eq_self h]

theorem line_eq_iff {t u : Token} : t.line = u.line ↔ t.unescaped = u.unescaped := by
  have hu : t.unescaped = u.unescaped ↔
      t.kind = u.kind ∧ escapeLineBreaks t.lexeme = escapeLineBreaks u.lexeme := by
    rw [unescaped, unescaped, mk.injEq, escapeLineBreaks_eq_iff]
  rw [hu]
  constructor
  · intro h
    have hk : t.kind = u.kind := by
      rw [← opens_line_iff, h, opens_line_iff]
    rw [line, line, hk] at h
    exact ⟨hk, List.append_cancel_left (List.append_cancel_right h)⟩
  · rintro ⟨hk, hl⟩
    rw [line, line, hk, hl]

end Token

theorem map_unescaped_eq_self {ts : List Token} (h : ∀ t ∈ ts, '\\' ∉ t.lexeme) :
    ts.map Token.unescaped = ts := by
  rw [List.map_congr_left fun t ht => Token.unescaped_eq_self (h t ht), List.map_id']

/-! ## listings -/

theorem listing_eq_iff_lines {ts ts' : List Token} :
    listing ts = listing ts' ↔ ts.map Token.line = ts'.map Token.line := by
  constructor
  · intro h
    rw [← textLines_listing, h, textLines_listing]
  · intro h
    rw [listing_eq_ofLines, h, ← listing_eq_ofLines]

/-- listings are the same exactly if the tokens are, one for one, but for escapes -/
theorem listing_eq_iff {ts ts' : List Token} :
    listing ts = listing ts' ↔ ts.map Token.unescaped = ts'.map Token.unescaped := by
  have hmap {α : Type} (f : Token → α) :
      ts.map f = ts'.map f ↔ List.Forall₂ (fun t u => f t = f u) ts ts' := by
    rw [← List.forall₂_eq_eq_eq, List.forall₂_map_left_iff, List.forall₂_map_right_iff]
  rw [listing_eq_iff_lines, hmap, hmap]
  simp only [Token.line_eq_iff]

theorem eq_of_listing_eq {ts ts' : List Token} (h : ∀ t ∈ ts, '\\' ∉ t.lexeme)
    (h' : ∀ t ∈ ts', '\\' ∉ t.lexeme) (hl : listing ts = listing ts') : ts = ts' := by
  have hm := listing_eq_iff.mp hl
  rwa [map_unescaped_eq_self h, map_unescaped_eq_self h'] at hm

/-- a scan adds no characters -/
theorem not_mem_lexeme_of_mem_scan {v : Vocabulary} {text : Text} {c : Char} (h : c ∉ text) :
    ∀ t ∈ scan v text, c ∉ t.lexeme := by
  intro t ht hc
  apply h
  rw [← textOf_scan v text]
  exact List.mem_flatMap.mpr ⟨t, ht, hc⟩

/-- tokens without backslashes can be told from their listing, and so can a text without
backslashes from the listing of its tokens.  What is written of a lexeme is written part by part;
it has no line breaks, and written again it is the same -/
theorem listing_tells_tokens :
    (∀ ts ts' : List Token, (∀ t ∈ ts, '\\' ∉ t.lexeme) → (∀ t ∈ ts', '\\' ∉ t.lexeme) →
      listing ts = listing ts' → ts = ts') ∧
    (∀ (v : Vocabulary) (text text' : Text), '\\' ∉ text → '\\' ∉ text' →
      listing (scan v text) = listing (scan v text') → text = text') ∧
    (∀ t u : Text, escapeLineBreaks (t ++ u) = escapeLineBreaks t ++ escapeLineBreaks u) ∧
    ∀ t : Text, escapeLineBreaks (escapeLineBreaks t) = escapeLineBreaks t ∧
      '\r' ∉ escapeLineBreaks t ∧ '\n' ∉ escapeLineBreaks t ∧
      escapeLineBreaks t = escapeEach t := by
  refine ⟨?_, ?_, escapeLineBreaks_append, ?_⟩
  · intro ts ts' h h' hl
    exact eq_of_listing_eq h h' hl
  · intro v text text' h h' hl
    have hs : scan v text = scan v text' :=
      eq_of_listing_eq (not_mem_lexeme_of_mem_scan h) (not_mem_lexeme_of_mem_scan h') hl
    rw [← textOf_scan v text, hs, textOf_scan]
  · intro t
    exact ⟨escapeLineBreaks_escapeLineBreaks t,
      fun hc => (not_lineBreak_of_mem_escapeLineBreaks _ hc).1 rfl,
      fun hc => (not_lineBreak_of_mem_escapeLineBreaks _ hc).2 rfl,
      escapeLineBreaks_eq_escapeEach t⟩

/-- a line break in a comment, and what looks like the line of another token behind it -/
theorem listing_tells_tokens_lookalike :
    let ts : List Token := [⟨.comment, "/*)\n(ERROR x)*/".toList⟩, ⟨.error, ['\'']⟩]
    let text : Text := "/*)\n(ERROR x)*/'".toList
    listing ts = listing (scan .builtIn text) ∧ '\\' ∉ text ∧
      ts = scan .builtIn text ∧ textOf ts = text := by
  intro ts text
  obtain ⟨tokens, texts, -, -⟩ := listing_tells_tokens
  have hl : listing ts = listing (scan .builtIn text) := by decide +kernel
  have ht : '\\' ∉ text := by decide +kernel
  have hs : listing (scan .builtIn (textOf ts)) = listing (scan .builtIn text) := by
    decide +kernel
  exact ⟨hl, ht, tokens ts _ (by decide +kernel) (by decide +kernel) hl,
    texts .builtIn _ _ (by decide +kernel) ht hs⟩

/-- with a backslash, two comments have one listing -/
example : listing (scan .builtIn "/*\n*/".toList) = listing (scan .builtIn "/*\\n*/".toList) := by
  decide +kernel

end CurlyLex
