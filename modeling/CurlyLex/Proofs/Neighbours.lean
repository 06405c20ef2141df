import CurlyLex.Proofs.Boundary
import CurlyLex.Proofs.Viability

/-!
# What may stand next to what

A piece that its last character completes may stand before anything.  Where the next character
completes it, the shape of the piece says which characters these are.

* `Grammar.finalOperators`   the operators that are complete as soon as they are spelled;
* `Piece.Admits p c`  the character `c` may come behind the piece `p`;
* `admits_of_close`, `admits_of_done`   it may, if `c` closes the piece or if its own last character
                      completes it;
* `EndsBefore.shape_of_isWhitespace`   a piece that begins with white space is white space;
* `Adjoins t t' c`    what the kind of the token `t` asks of the token `t'` behind it, whose first
                      character is `c`;
* `neighbours_adjoin`   any two neighbours in a scan adjoin.
-/

namespace CurlyLex

def Grammar.finalOperators : List String := [">=", "<=", "<>", "&&", "||", "?", "~"]

open Grammar

def Piece.Admits (p : Piece) (c : Char) : Prop :=
  match p.shape with
  | .word => isWhitespace c = true ∨ isOperator c = true ∨ isSeparator c = true
  | .int | .float => isIdentContinue c = false
  | .operator => p.text ∈ spelled finalOperators ∨ isOperator c = false
  | .whitespace => isWhitespace c = false
  | .comment => p.text ∈ blockComment ∨ isLineBreak c = true
  | _ => True

/-! ## a piece and the character behind it -/

section
variable {q : State} {b : Text} {c : Char} {shape : Shape}

theorem admits_of_close (h : move q c = .close shape) : Piece.Admits ⟨shape, b⟩ c := by
  have hc : shape.EndedBy c := endedBy_of_close h
  cases shape with
  | operator | comment => exact Or.inr hc
  | word | int | float | whitespace => exact hc
  | separator | error | char | string => exact trivial

theorem admits_of_done (hb : b ∈ q.language) (h : move q c = .done shape) (d : Char) :
    Piece.Admits ⟨shape, b ++ [c]⟩ d := by
  rcases mem_moves_of_done h with hm | hm
  · simp only [delimiterMoves, List.mem_cons, List.not_mem_nil, or_false, Prod.mk.injEq] at hm
    rcases hm with ⟨rfl, rfl, rfl⟩ | ⟨rfl, rfl, rfl⟩ | ⟨rfl, rfl, rfl⟩
    · exact trivial
    · exact trivial
    · exact Or.inl ((concat_mem_blockComment b _).mpr ⟨hb, rfl⟩)
  · have hs : ∀ x ∈ symbolMoves, ∀ t ∈ x.1.spellings.map String.toList,
        x.2.2 = .separator ∨ x.2.2 = .operator ∧ t ++ [x.2.1] ∈ spelled finalOperators := by
      decide
    rcases hs _ hm b (mem_spelled_of_symbolMoves hb hm) with e | ⟨e, ht⟩
    · obtain rfl : shape = .separator := e
      exact trivial
    · obtain rfl : shape = .operator := e
      exact Or.inl ht

end

namespace Piece

variable {p : Piece} {c : Char} {cs rest : Text}

theorem EndsBefore.admits (h : p.EndsBefore (c :: rest)) : p.Admits c := by
  cases h with
  | completed hb h => exact admits_of_done (hb.mem_language_of_done h) h c
  | closed hb h hq hc => exact admits_of_close (hc c rfl)
  | point h => exact trivial

/-! ## the first character of a piece -/

theorem EndsBefore.isIdentStart_of_word (h : p.EndsBefore rest) (hs : p.shape = .word)
    (hp : p.text = c :: cs) : isIdentStart c = true := by
  have hm := h.mem_language (by rw [hs]; decide)
  rw [hs, hp] at hm
  exact of_cons_mem_oneOf_mul hm

theorem EndsBefore.isWhitespace_of_whitespace (h : p.EndsBefore rest)
    (hs : p.shape = .whitespace) (hp : p.text = c :: cs) : isWhitespace c = true := by
  have hm := h.mem_language (by rw [hs]; decide)
  rw [hs, hp] at hm
  exact of_cons_mem_oneOf_mul hm

end Piece

theorem Open.exists_cut_of_blank {b : Text} (hb : Open .blank b) (w : Text) :
    ∃ t ps, cut (b ++ w) = ⟨.whitespace, t⟩ :: ps := by
  induction w generalizing b with
  | nil =>
    rw [List.append_nil, hb.cut_eq]
    exact ⟨b, [], rfl⟩
  | cons c cs ih =>
    by_cases hc : isWhitespace c = true
    · have hm : move .blank c = .stay .blank := if_pos hc
      have h := ih (hb.concat hm)
      rwa [List.append_assoc] at h
    · have hm : move .blank c = .close .whitespace := if_neg hc
      rw [hb.cut_of_ends (congrArg Move.ends hm)]
      exact ⟨b, cut (c :: cs), rfl⟩

theorem Piece.EndsBefore.shape_of_isWhitespace {p : Piece} {c : Char} {cs rest : Text}
    (h : p.EndsBefore rest) (hp : p.text = c :: cs) (hc : isWhitespace c = true) :
    p.shape = .whitespace := by
  have hb : Open .blank [c] := open_idle.concat (congrArg Move.join (start_of_isWhitespace hc))
  obtain ⟨t, ps, e⟩ := hb.exists_cut_of_blank cs
  have hw : cut (c :: cs) = [p] := hp ▸ h.cut_text
  have he : [p] = ⟨.whitespace, t⟩ :: ps := hw.symm.trans e
  rw [(List.cons_eq_cons.mp he).1]

/-! ## tokens -/

/-- none of the rules speaks of what stands behind a separator, a literal or an error -/
structure Adjoins (t t' : Token) (c : Char) : Prop where
  word : t.kind ∈ Vocabulary.wordKinds →
    isWhitespace c = true ∨ isOperator c = true ∨ isSeparator c = true
  /-- so neither a word nor a number may be glued to a number -/
  number : t.kind = .int ∨ t.kind = .float →
    isIdentContinue c = false ∧ isDigit c = false ∧ t'.kind ∉ Vocabulary.wordKinds
  operator : t.kind = .operator → t.lexeme ∉ spelled finalOperators → isOperator c = false
  whitespace : t.kind = .whitespace → t'.kind ≠ .whitespace
  lineComment : t.kind = .comment → ['/', '/'] <+: t.lexeme →
    t'.kind = .whitespace ∧ isLineBreak c = true

section
variable {v : Vocabulary} {p p' : Piece} {c : Char} {cs rest rest' : Text}

theorem not_lineComment_of_mem_blockComment {t : Text} (h : t ∈ blockComment) :
    ¬ ['/', '/'] <+: t := by
  intro hl
  have he := List.prefix_of_prefix_length_le hl (prefix_of_mem_opened h) (by decide)
  exact absurd he (by decide)

theorem Piece.EndsBefore.adjoins (h : p.EndsBefore (c :: rest)) (h' : p'.EndsBefore rest')
    (hp : p'.text = c :: cs) : Adjoins (v.token p) (v.token p') c := by
  have ha : p.Admits c := h.admits
  obtain ⟨shape, text⟩ := p
  -- the kind of the first token tells the shape, and so which rule `ha` is
  have hs : Vocabulary.shapeOf (v.token ⟨shape, text⟩).kind = shape :=
    v.shapeOf_kindOfPiece ⟨shape, text⟩
  constructor
  case word =>
    intro hk
    obtain rfl : shape = .word := (v.kindOfPiece_mem_wordKinds_iff _).mp hk
    exact ha
  case number =>
    intro hk
    have hc : isIdentContinue c = false := by
      rcases hk with hk | hk
      all_goals
        rw [hk] at hs
        subst hs
        exact ha
    refine ⟨hc, ?_, ?_⟩
    · rw [Bool.eq_false_iff]
      intro hd
      exact Bool.eq_false_iff.mp hc (isIdentContinue_of_isDigit hd)
    · intro hw
      have hi := h'.isIdentStart_of_word ((v.kindOfPiece_mem_wordKinds_iff p').mp hw) hp
      exact Bool.eq_false_iff.mp hc (isIdentContinue_of_isIdentStart c hi)
  case operator =>
    intro hk hf
    rw [hk] at hs
    subst hs
    exact ha.resolve_left hf
  case whitespace =>
    intro hk hw
    rw [hk] at hs
    subst hs
    have hs' : p'.shape = .whitespace := by
      rw [← v.shapeOf_kindOfPiece p', show v.kindOfPiece p' = .whitespace from hw]
      rfl
    exact Bool.eq_false_iff.mp ha (h'.isWhitespace_of_whitespace hs' hp)
  case lineComment =>
    intro hk hl
    rw [hk] at hs
    subst hs
    have hc : isLineBreak c = true :=
      ha.resolve_left fun hb => not_lineComment_of_mem_blockComment hb hl
    have hs' := h'.shape_of_isWhitespace hp (isWhitespace_of_isLineBreak c hc)
    refine ⟨?_, hc⟩
    show v.kindOfPiece p' = .whitespace
    unfold Vocabulary.kindOfPiece
    rw [hs']
    rfl

end

/-- any two neighbours in a scan adjoin, by the first character of the second -/
theorem neighbours_adjoin (v : Vocabulary) (text : Text) (before after : List Token)
    (t t' : Token) (h : scan v text = before ++ t :: t' :: after) :
    ∃ c cs, t'.lexeme = c :: cs ∧ Adjoins t t' c := by
  obtain ⟨p, rest, rfl, hp, -, hr⟩ := exists_of_scan_eq h
  have h' : scan v rest = [] ++ t' :: after := hr.symm
  obtain ⟨p', rest', rfl, hp', e, -⟩ := exists_of_scan_eq h'
  obtain ⟨c, cs, hc⟩ := List.exists_cons_of_ne_nil hp'.text_ne_nil
  refine ⟨c, cs, hc, ?_⟩
  rw [textOf_nil, List.nil_append, hc] at e
  rw [e] at hp
  exact hp.adjoins hp' hc

/-- a comment to the end of its line, and the end of the line -/
theorem adjoins_of_comment_at_break :
    let v := Vocabulary.ofWords []
    let t : Token := ⟨.comment, ['/', '/', 'c']⟩
    let t' : Token := ⟨.whitespace, ['\n', ' ']⟩
    scan v ['7', '/', '/', 'c', '\n', ' '] = [⟨.int, ['7']⟩] ++ t :: t' :: [] ∧
      ∃ c cs, ['\n', ' '] = c :: cs ∧ Adjoins t t' c := by
  intro v t t'
  have h : scan v ['7', '/', '/', 'c', '\n', ' '] = [⟨.int, ['7']⟩] ++ t :: t' :: [] := by
    decide +kernel
  exact ⟨h, neighbours_adjoin v _ [⟨.int, ['7']⟩] [] t t' h⟩

end CurlyLex
