import CurlyLex.Proofs.Pieces

/-!
# The scanner recognises the token grammar

* `delimiterMoves`, `symbolMoves`   the moves that complete a piece, and `mem_moves_of_done`, that
                      there are no others;
* `Piece.EndsBefore.mem_language`   a piece that is no error belongs to the language of its shape;
* `cut_of_mem_language`   a text of the language of a shape is cut into one piece of that shape;
* `cut_eq_singleton_iff`   so the texts that are cut into one well-formed piece are those of the
                      grammar, and the shape is the one whose language they belong to;
* `Vocabulary.mem_language_iff`   a language of a kind holds the texts of the shapes that the
                      vocabulary gives that kind;
* `scan_recognises_grammar`   the same for tokens: each is a text of the language of its kind and of
                      no other, and an error is a text of none.
-/

namespace CurlyLex

open Grammar

/-! ## a piece that the next character closes -/

section
variable {q : State} {b : Text} {shape : Shape} (hb : b ∈ q.language)
include hb

theorem mem_operator_of_pending (h : q.pending = some .operator) : b ∈ Grammar.operator := by
  have hs : ∀ t ∈ q.spellings.map String.toList, t ∈ spelled operators := by
    cases q <;> cases h
    all_goals decide
  apply hs
  cases q <;> cases h
  all_goals exact hb

theorem mem_int_of_pending (h : q.pending = some .int) : b ∈ Grammar.int := by
  rw [Grammar.int, mul_one_add]
  cases q <;> cases h
  case zero => exact Or.inl (Or.inl (Or.inl (Or.inl hb)))
  case decimal => exact Or.inl (Or.inl (Or.inl (Or.inr hb)))
  case binary => exact Or.inl (Or.inl (Or.inr hb))
  case hex => exact Or.inl (Or.inr hb)
  case longInt => exact Or.inr hb

theorem mem_float_of_pending (h : q.pending = some .float) : b ∈ Grammar.float := by
  rw [Grammar.float, mul_one_add]
  cases q <;> cases h
  case fraction => exact Or.inl (Or.inl hb)
  case suffixed =>
    rcases hb with hb | hb
    · exact Or.inl (Or.inr hb)
    · exact Or.inr hb

theorem mem_separator_of_pending (h : q.pending = some .separator) (hq : q ≠ .dotDot) :
    b ∈ Grammar.separator := by
  cases q <;> cases h
  case dotDot => exact absurd rfl hq
  case dot =>
    obtain rfl := List.mem_singleton.mp hb
    show _ ∈ spelled separators
    decide

/-- a well-formed text that is closed is a text of the shape that it is closed with -/
theorem mem_language_of_pending (h : q.pending = some shape) (hq : q ≠ .dotDot)
    (hs : shape ≠ .error) : b ∈ shape.language := by
  cases shape with
  | operator => exact mem_operator_of_pending hb h
  | int => exact mem_int_of_pending hb h
  | float => exact mem_float_of_pending hb h
  | separator => exact mem_separator_of_pending hb h hq
  | whitespace =>
    cases q <;> cases h
    exact hb
  | word =>
    cases q <;> cases h
    exact hb
  | comment =>
    cases q <;> cases h
    exact Or.inl hb
  | char => cases q <;> cases h
  | string => cases q <;> cases h
  | error => exact absurd rfl hs

end

/-! ## a piece that its last character completes -/

/-- the moves that complete a literal or a block comment -/
def delimiterMoves : List (State × Char × Shape) :=
  [(.charFull, '\'', .char), (.string, '"', .string), (.blockStar, '/', .comment)]

/-- the moves that complete an operator or a separator -/
def symbolMoves : List (State × Char × Shape) :=
  [(.idle, '?', .operator), (.idle, '~', .operator), (.greater, '=', .operator),
   (.less, '=', .operator), (.less, '>', .operator), (.ampersand, '&', .operator),
   (.bar, '|', .operator), (.colon, ':', .separator), (.dotDot, '.', .separator),
   (.idle, '(', .separator), (.idle, ')', .separator), (.idle, '{', .separator),
   (.idle, '}', .separator), (.idle, '[', .separator), (.idle, ']', .separator),
   (.idle, ';', .separator), (.idle, ',', .separator)]

section
variable {q : State} {b : Text} {c : Char} {shape : Shape}

theorem mem_symbolMoves_of_start (h : start c = .done shape) :
    (.idle, c, shape) ∈ symbolMoves := by
  have hp : c ≠ '.' := by
    intro e
    have hd : start '.' = .stay .dot := by decide +kernel
    rw [e, hd] at h
    cases h
  unfold start at h
  split_ifs at h
  split at h
  case h_18 =>
    split at h
    · next hc =>
      cases h
      have hm := List.contains_iff_mem.mp hc
      simp only [List.mem_cons, List.not_mem_nil, or_false] at hm
      rcases hm with rfl | rfl | rfl | rfl | rfl | rfl | rfl | rfl | rfl
      all_goals try exact absurd rfl hp
      all_goals decide
    · cases h
  all_goals cases h
  all_goals decide

/-- only a few characters complete a text, each in its own states -/
theorem mem_moves_of_done (h : move q c = .done shape) :
    (q, c, shape) ∈ delimiterMoves ∨ (q, c, shape) ∈ symbolMoves := by
  cases q
  case idle => exact Or.inr (mem_symbolMoves_of_start (Move.join.inj h))
  case malformed => cases h
  case less =>
    simp only [move, afterComplete, afterOperator] at h
    split_ifs at h with hc <;> cases h
    rcases hc with rfl | rfl
    all_goals decide
  all_goals
    simp only [move, afterComplete, afterOperator, afterNumber, afterWord, afterBackslash,
      afterPoint, radixDigit, doubledOrAssign, increment] at h
    split_ifs at h <;> cases h
  all_goals
    subst c
    decide

theorem mem_spelled_of_symbolMoves (hb : b ∈ q.language) (h : (q, c, shape) ∈ symbolMoves) :
    b ∈ spelled q.spellings := by
  have hq : ∀ x ∈ symbolMoves, x.1.spellings ≠ [] := by decide
  exact mem_spelled_of_mem_language hb (hq _ h)

/-- a text that its last character completes is a text of the shape that it is given -/
theorem concat_mem_language_of_done (hb : b ∈ q.language) (h : move q c = .done shape) :
    b ++ [c] ∈ shape.language := by
  rcases mem_moves_of_done h with hm | hm
  · simp only [delimiterMoves, List.mem_cons, List.not_mem_nil, or_false, Prod.mk.injEq] at hm
    rcases hm with ⟨rfl, rfl, rfl⟩ | ⟨rfl, rfl, rfl⟩ | ⟨rfl, rfl, rfl⟩
    · exact (concat_mem_mul_just _ b _ '\'').mpr ⟨hb, rfl⟩
    · exact (concat_mem_mul_just _ b _ '"').mpr ⟨hb, rfl⟩
    · exact Or.inr ((concat_mem_blockComment b _).mpr ⟨hb, rfl⟩)
  · have hs : ∀ x ∈ symbolMoves, ∀ t ∈ x.1.spellings.map String.toList,
        x.2.2 = .operator ∧ t ++ [x.2.1] ∈ spelled operators ∨
          x.2.2 = .separator ∧ t ++ [x.2.1] ∈ spelled separators := by decide
    rcases hs _ hm b (mem_spelled_of_symbolMoves hb hm) with ⟨e, ht⟩ | ⟨e, ht⟩
    · obtain rfl : shape = .operator := e
      exact ht
    · obtain rfl : shape = .separator := e
      exact ht

end

/-! ## the grammar of pieces -/

namespace Piece

variable {p : Piece} {rest : Text}

/-- a piece that is no error is a text of its shape -/
theorem EndsBefore.mem_language (h : p.EndsBefore rest) (hp : p.shape ≠ .error) :
    p.text ∈ p.shape.language := by
  cases h with
  | completed hb h => exact concat_mem_language_of_done (hb.mem_language_of_done h) h
  | @closed q b shape rest hb h hq _ =>
    refine mem_language_of_pending (hb.mem_language ?_) h hq hp
    intro e
    subst e
    cases h
    exact hp rfl
  | point _ =>
    show _ ∈ spelled separators
    decide

end Piece

/-- a text that is well-formed in a state closes as it stands -/
theorem cut_of_pending {q : State} {b : Text} {shape : Shape} (hb : b ∈ q.language)
    (h : q.pending = some shape) (hq : q ≠ .dotDot) : cut b = [⟨shape, b⟩] := by
  rw [(Open.wellFormed hb).cut_eq, Scanner.closing_of_pending b h hq]

/-- a text that is well-formed in a state is completed by its last character -/
theorem cut_concat_of_done {q : State} {b : Text} {c : Char} {shape : Shape} (hb : b ∈ q.language)
    (h : move q c = .done shape) : cut (b ++ [c]) = [⟨shape, b ++ [c]⟩] :=
  (Open.wellFormed hb).cut_of_done h []

theorem cut_of_mem_int {t : Text} (h : t ∈ Grammar.int) : cut t = [⟨.int, t⟩] := by
  rw [Grammar.int, mul_one_add] at h
  rcases h with ((h | h) | h) | h
  · rcases h with h | h
    · exact cut_of_pending (q := .zero) h rfl (by decide)
    · exact cut_of_pending (q := .decimal) h rfl (by decide)
  · exact cut_of_pending (q := .binary) h rfl (by decide)
  · exact cut_of_pending (q := .hex) h rfl (by decide)
  · exact cut_of_pending (q := .longInt) h rfl (by decide)

theorem cut_of_mem_float {t : Text} (h : t ∈ Grammar.float) : cut t = [⟨.float, t⟩] := by
  rw [Grammar.float, mul_one_add] at h
  rcases h with (h | h) | h
  · exact cut_of_pending (q := .fraction) h rfl (by decide)
  · exact cut_of_pending (q := .suffixed) (Or.inl h) rfl (by decide)
  · exact cut_of_pending (q := .suffixed) (Or.inr h) rfl (by decide)

/-- a text of a language whose texts all end in `d` -/
theorem exists_concat_of_mem_mul_just {l : Language Char} {d : Char} {t : Text}
    (h : t ∈ l * just d) : ∃ b ∈ l, t = b ++ [d] := by
  obtain ⟨b, hb, e, he, rfl⟩ := Language.mem_mul.mp h
  rw [(mem_just d e).mp he]
  exact ⟨b, hb, rfl⟩

theorem cut_of_mem_comment {t : Text} (h : t ∈ Grammar.comment) : cut t = [⟨.comment, t⟩] := by
  rcases h with h | h
  · exact cut_of_pending (q := .lineComment) h rfl (by decide)
  · rcases List.eq_nil_or_concat t with rfl | ⟨b, c, rfl⟩
    · obtain ⟨y, _, e⟩ := (mem_opened _ _).mp h
      cases e
    · rw [List.concat_eq_append] at h ⊢
      obtain ⟨hb, rfl⟩ := (concat_mem_blockComment b c).mp h
      exact cut_concat_of_done (q := .blockStar) hb (by decide)

/-- a text of the language of a shape is one piece of that shape -/
theorem cut_of_mem_language {shape : Shape} {t : Text} (h : t ∈ shape.language) :
    cut t = [⟨shape, t⟩] := by
  cases shape with
  | whitespace => exact cut_of_pending (q := .blank) h rfl (by decide)
  | word => exact cut_of_pending (q := .word) h rfl (by decide)
  | comment => exact cut_of_mem_comment h
  | operator =>
    have hs : ∀ t ∈ operators.map String.toList, cut t = [⟨.operator, t⟩] := by decide +kernel
    exact hs t h
  | separator =>
    have hs : ∀ t ∈ separators.map String.toList, cut t = [⟨.separator, t⟩] := by decide +kernel
    exact hs t h
  | int => exact cut_of_mem_int h
  | float => exact cut_of_mem_float h
  | char =>
    obtain ⟨b, hb, rfl⟩ := exists_concat_of_mem_mul_just h
    exact cut_concat_of_done (q := .charFull) hb (by decide)
  | string =>
    obtain ⟨b, hb, rfl⟩ := exists_concat_of_mem_mul_just h
    exact cut_concat_of_done (q := .string) hb (by decide)
  | error => exact absurd h (Language.notMem_zero t)

/-- the texts that are cut into one well-formed piece are those of the grammar -/
theorem cut_eq_singleton_iff (t : Text) (p : Piece) :
    cut t = [p] ∧ p.shape ≠ .error ↔ p.text = t ∧ t ∈ p.shape.language := by
  refine ⟨?_, ?_⟩
  · intro hx
    obtain ⟨h, hp⟩ := hx
    have hm : p ∈ cut t := by
      rw [h]
      exact List.mem_singleton_self p
    obtain ⟨rest, hr⟩ := exists_endsBefore_of_mem_cut hm
    have e : p.text = t := by
      rw [← cutText_cut t, h, cutText_cons, cutText_nil, List.append_nil]
    exact ⟨e, e ▸ hr.mem_language hp⟩
  · intro hx
    obtain ⟨rfl, h⟩ := hx
    refine ⟨cut_of_mem_language h, ?_⟩
    intro e
    rw [e] at h
    exact Language.notMem_zero _ h

/-! ## the grammar of tokens -/

/-- a language of a kind holds the texts of the shapes that the vocabulary gives that kind -/
theorem Vocabulary.mem_language_iff (v : Vocabulary) (k : Kind) (t : Text) :
    t ∈ v.language k ↔ ∃ shape : Shape, t ∈ shape.language ∧ v.kindOfPiece ⟨shape, t⟩ = k := by
  have hw := v.kindOf_mem_wordKinds t
  refine ⟨?_, ?_⟩
  · intro h
    cases k with
    | comment => exact ⟨.comment, h, rfl⟩
    | whitespace => exact ⟨.whitespace, h, rfl⟩
    | operator => exact ⟨.operator, h, rfl⟩
    | separator => exact ⟨.separator, h, rfl⟩
    | int => exact ⟨.int, h, rfl⟩
    | float => exact ⟨.float, h, rfl⟩
    | char => exact ⟨.char, h, rfl⟩
    | string => exact ⟨.string, h, rfl⟩
    | error => exact ⟨.error, h, rfl⟩
    | identifier => exact ⟨.word, h.1, h.2⟩
    | boolean => exact ⟨.word, h.1, h.2⟩
    | null => exact ⟨.word, h.1, h.2⟩
    | keyword => exact ⟨.word, h.1, h.2⟩
  · intro hx
    obtain ⟨shape, ht, rfl⟩ := hx
    cases shape with
    | word =>
      show t ∈ v.language (v.kindOf t)
      generalize hk : v.kindOf t = k at hw
      simp only [wordKinds, List.mem_cons, List.not_mem_nil, or_false] at hw
      rcases hw with rfl | rfl | rfl | rfl
      all_goals exact ⟨ht, hk⟩
    | _ => exact ht

/-- a vocabulary makes errors of errors only -/
theorem Vocabulary.kindOfPiece_eq_error_iff (v : Vocabulary) (p : Piece) :
    v.kindOfPiece p = .error ↔ p.shape = .error := by
  obtain ⟨shape, text⟩ := p
  cases shape with
  | word =>
    refine ⟨?_, ?_⟩
    · intro h
      have hw := v.kindOf_mem_wordKinds text
      rw [show v.kindOf text = .error from h] at hw
      exact absurd hw (by decide)
    · intro h
      cases h
  | error => exact iff_of_true rfl rfl
  | _ =>
    refine ⟨?_, ?_⟩
    all_goals
      intro h
      cases h

/-- a text is scanned into one token that is no error exactly if it belongs to the language of the
kind of that token -/
theorem scan_eq_singleton_iff (v : Vocabulary) (text : Text) (t : Token) :
    scan v text = [t] ∧ t.kind ≠ .error ↔ t.lexeme = text ∧ text ∈ v.language t.kind := by
  rw [scan_eq]
  refine ⟨?_, ?_⟩
  · intro hx
    obtain ⟨h, ht⟩ := hx
    obtain ⟨p, hp, rfl⟩ := List.map_eq_singleton_iff.mp h
    have hs : p.shape ≠ .error := (v.kindOfPiece_eq_error_iff p).not.mp ht
    obtain ⟨rfl, hm⟩ := (cut_eq_singleton_iff text p).mp ⟨hp, hs⟩
    exact ⟨rfl, (v.mem_language_iff _ _).mpr ⟨p.shape, hm, rfl⟩⟩
  · intro hx
    obtain ⟨rfl, h⟩ := hx
    obtain ⟨shape, hs, hk⟩ := (v.mem_language_iff _ _).mp h
    refine ⟨?_, ?_⟩
    · rw [cut_of_mem_language hs, List.map_singleton, Vocabulary.token, hk]
    · intro e
      rw [e] at h
      exact Language.notMem_zero _ h

/-- the scanner recognises the grammar: a text is one well-formed token of a kind exactly if it
belongs to the language of the kind, and a token of any text belongs to the language of its kind
alone, or to none if it is an error -/
theorem scan_recognises_grammar (v : Vocabulary) :
    (∀ (text : Text) (t : Token),
      scan v text = [t] ∧ t.kind ≠ .error ↔ t.lexeme = text ∧ text ∈ v.language t.kind) ∧
    ∀ (text : Text), ∀ t ∈ scan v text, ∀ k : Kind,
      t.lexeme ∈ v.language k ↔ t.kind = k ∧ k ≠ .error := by
  refine ⟨scan_eq_singleton_iff v, ?_⟩
  intro text t ht k
  have hs := scan_lexeme ht
  refine ⟨?_, ?_⟩
  · intro hk
    obtain ⟨h, hne⟩ := (scan_eq_singleton_iff v t.lexeme ⟨k, t.lexeme⟩).mpr ⟨rfl, hk⟩
    have e : t = ⟨k, t.lexeme⟩ := List.singleton_inj.mp (hs.symm.trans h)
    exact ⟨congrArg Token.kind e, hne⟩
  · intro hx
    obtain ⟨rfl, hne⟩ := hx
    exact ((scan_eq_singleton_iff v t.lexeme t).mp ⟨hs, hne⟩).2

/-- behind `0x` the suffix of a float is one more digit -/
theorem mem_int_of_hex_digit :
    let v := Vocabulary.ofWords []
    ⟨.int, "0x1f".toList⟩ ∈ scan v "0x1f".toList ∧ "0x1f".toList ∈ v.language .int ∧
      "0x1f".toList ∉ v.language .float := by
  intro v
  have h : ⟨.int, "0x1f".toList⟩ ∈ scan v "0x1f".toList := by decide +kernel
  have hk := (scan_recognises_grammar v).2 "0x1f".toList _ h
  exact ⟨h, (hk .int).mpr ⟨rfl, by decide⟩, fun hf => nomatch ((hk .float).mp hf).1⟩

end CurlyLex
