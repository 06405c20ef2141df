import CurlyLex.Proofs.Neighbours
import CurlyLex.Proofs.Slices

/-!
# Spacing

The white space between two tokens may be any: another stretch of it in the same place leaves all
the other tokens as they are.  Only behind two kinds of token must it begin with a line break.

* `move_of_isWhitespace`   in all states but two, white space is like a space;
* `Token.EndsAtBreak`   nothing but a line break ends the token: it is a comment to the end of its
                      line, or a lone quote;
* `exists_endsAtBreak_of_open`   it is what is left where one of the two states is closed;
* `ScansApart.respaced`   what scans apart from white space scans apart from other white space;
* `scan_spaced_anew`   other white space leaves the tokens around it as they are if it begins with a
                      line break or stands behind none of these, and not otherwise.
-/

namespace CurlyLex

open Grammar

/-! ## white space behind an open text -/

section
variable {q : State} {c d : Char}

theorem move_of_isWhitespace (hq : q ≠ .charOpen) (hq' : q ≠ .lineComment)
    (hc : isWhitespace c = true) : move q c = move q ' ' := by
  have h : (State.all.all fun q =>
      q == .charOpen || q == .lineComment || move q c == move q ' ') = true :=
    eq_true_of_inRanges (p := fun c => State.all.all fun q =>
      q == .charOpen || q == .lineComment || move q c == move q ' ') (by decide +kernel) hc
  simpa [hq, hq'] using List.all_eq_true.mp h q q.mem_all

theorem ends_charOpen_iff : (move .charOpen d).ends = true ↔ isLineBreak d = true := by
  by_cases hd : d = '\\'
  · subst hd
    decide
  · rw [move, if_neg hd]
    split <;> simp_all [Move.ends]

theorem ends_lineComment_iff : (move .lineComment d).ends = true ↔ isLineBreak d = true := by
  rw [move]
  split <;> simp_all [Move.ends]

/-- where some white space closes the open text, other white space does so too, but for the two
states that wait for a line break -/
theorem ends_iff_of_isWhitespace (hc : isWhitespace c = true)
    (hd : isWhitespace d = true) (h : (move q c).ends = true) :
    (move q d).ends = true ↔ isLineBreak d = true ∨ q ≠ .charOpen ∧ q ≠ .lineComment := by
  by_cases hq : q = .charOpen
  · subst hq
    rw [ends_charOpen_iff]
    simp
  by_cases hq' : q = .lineComment
  · subst hq'
    rw [ends_lineComment_iff]
    simp
  have hm : (move q d).ends = true := by
    rw [move_of_isWhitespace hq hq' hd, ← move_of_isWhitespace hq hq' hc, h]
  exact iff_of_true hm (Or.inr ⟨hq, hq'⟩)

end

/-! ## tokens that only a line break ends -/

/-- nothing but a line break ends the token: it is a comment to the end of its line, or a quote that
the end of its line has left alone -/
def Token.EndsAtBreak (t : Token) : Prop :=
  t.kind = .comment ∧ ['/', '/'] <+: t.lexeme ∨ t = ⟨.error, ['\'']⟩

theorem open_charOpen : Open .charOpen ['\''] := .wellFormed (List.mem_singleton_self _)

theorem prefix_of_mem_lineComment {b : Text} (hb : b ∈ lineComment) : ['/', '/'] <+: b := by
  obtain ⟨x, hx, y, _, rfl⟩ := Language.mem_mul.mp hb
  rw [(mem_just_mul_just '/' '/' x).mp hx]
  exact List.prefix_append _ y

section
variable {v : Vocabulary} {p : Piece} {c : Char} {rest u : Text}

theorem Piece.EndsBefore.isLineBreak_of_endsAtBreak (h : p.EndsBefore (c :: rest))
    (hp : (v.token p).EndsAtBreak) : isLineBreak c = true := by
  obtain ⟨shape, text⟩ := p
  have hs : Vocabulary.shapeOf (v.token ⟨shape, text⟩).kind = shape :=
    v.shapeOf_kindOfPiece ⟨shape, text⟩
  rcases hp with ⟨hk, hl⟩ | ht
  · rw [hk] at hs
    subst hs
    have ha : text ∈ blockComment ∨ isLineBreak c = true := h.admits
    exact ha.resolve_left fun hb => not_lineComment_of_mem_blockComment hb hl
  · rw [ht] at hs
    subst hs
    obtain rfl : text = ['\''] := congrArg Token.lexeme ht
    rcases h.of_error with hm | ⟨_, d, hd, hb⟩ | ⟨e, _⟩
    · cases hm.state_eq open_charOpen
    · cases hd
      exact hb
    · cases e

theorem exists_endsAtBreak_of_open {q : State} {b : Text} (hb : Open q b)
    (hq : q = .charOpen ∨ q = .lineComment) :
    ∃ t, v.tokens (Scanner.closing q b) = [t] ∧ t.EndsAtBreak := by
  rcases hq with rfl | rfl
  · obtain rfl : b = ['\''] := List.mem_singleton.mp (hb.mem_language (by decide))
    exact ⟨⟨.error, ['\'']⟩, rfl, Or.inr rfl⟩
  · have hl : b ∈ lineComment := hb.mem_language (by decide)
    exact ⟨⟨.comment, b⟩, rfl, Or.inl ⟨rfl, prefix_of_mem_lineComment hl⟩⟩

theorem state_ne_of_not_endsAtBreak (h : ∀ t ∈ (scan v u).getLast?, ¬ t.EndsAtBreak) :
    (Session.fed v u).scanner.state ≠ .charOpen ∧
      (Session.fed v u).scanner.state ≠ .lineComment := by
  rw [← not_or]
  intro hq
  obtain ⟨t, ht, he⟩ := exists_endsAtBreak_of_open (v := v) (Session.sound_fed v u) hq
  have hs : scan v u = v.tokens (Scanner.fresh.run u).1 ++ [t] := by
    rw [scan, cut_eq, ← Session.scanner_fed v u, v.tokens_append, Scanner.close, ht]
  refine h t ?_ he
  rw [hs, List.getLast?_concat]
  rfl

end

/-! ## other white space in the same place -/

theorem mem_whitespace {w : Text} (hne : w ≠ []) (hw : ∀ c ∈ w, isWhitespace c = true) :
    w ∈ Grammar.whitespace := by
  obtain ⟨c, cs, rfl⟩ := List.exists_cons_of_ne_nil hne
  exact (cons_mem_oneOf_mul_many _ _ c cs).mpr (List.forall_mem_cons.mp hw)

theorem Piece.EndsBefore.of_mem_whitespace {w w' rest : Text}
    (h : (⟨.whitespace, w⟩ : Piece).EndsBefore rest) (hw : w' ∈ Grammar.whitespace) :
    (⟨.whitespace, w'⟩ : Piece).EndsBefore rest := by
  have hb : Open .blank w' := .wellFormed hw
  refine .closed hb rfl (by decide) ?_
  intro c hc
  obtain ⟨cs, rfl⟩ := List.head?_eq_some_iff.mp hc
  have ha : isWhitespace c = false := h.admits
  rw [move, ha, if_neg Bool.false_ne_true]

theorem Piece.EndsBefore.scansApart_iff {p : Piece} {rest : Text} (h : p.EndsBefore rest)
    (v : Vocabulary) (u : Text) :
    ScansApart v u (p.text ++ rest) ↔
      scan v (u ++ p.text ++ rest) = scan v u ++ v.token p :: scan v rest := by
  have hs : scan v (p.text ++ rest) = v.token p :: scan v rest :=
    congrArg (List.map v.token) h.cut_append
  rw [ScansApart, hs, List.append_assoc]

section
variable {v : Vocabulary} {text u : Text} {before after : List Token} {t : Token} {c : Char}
  {cs : Text}

theorem scansApart_cons_iff_of_isWhitespace (hc : isWhitespace c = true) :
    ScansApart v u (c :: cs) ↔ (Session.fed v u).scanner.state = .idle ∨
      (move (Session.fed v u).scanner.state c).ends = true := by
  apply scansApart_cons_iff
  rintro ⟨_, rfl⟩
  cases hc

/-- a text that scans apart from white space scans apart from other white space, if it ends in no
token that waits for a line break or there is one -/
theorem ScansApart.respaced {d : Char} {ds : Text} (h : ScansApart v u (c :: cs))
    (hc : isWhitespace c = true) (hd : isWhitespace d = true)
    (hb : isLineBreak d = true ∨ ∀ t ∈ (scan v u).getLast?, ¬ t.EndsAtBreak) :
    ScansApart v u (d :: ds) := by
  refine (scansApart_cons_iff_of_isWhitespace hd).mpr ?_
  refine ((scansApart_cons_iff_of_isWhitespace hc).mp h).imp_right fun hm => ?_
  exact (ends_iff_of_isWhitespace hc hd hm).mpr (hb.imp_right state_ne_of_not_endsAtBreak)

theorem isLineBreak_of_scan_eq (h : scan v text = before ++ ⟨.whitespace, c :: cs⟩ :: after)
    (ht : t ∈ before.getLast?) (he : t.EndsAtBreak) : isLineBreak c = true := by
  obtain ⟨before, rfl⟩ := List.getLast?_eq_some_iff.mp ht
  rw [List.append_assoc] at h
  obtain ⟨p, rest, rfl, hp, -, hr⟩ := exists_of_scan_eq h
  have e : rest = c :: (cs ++ textOf after) := by
    rw [← textOf_scan v rest, ← hr]
    rfl
  rw [e] at hp
  exact hp.isLineBreak_of_endsAtBreak he

end

/-- in the place of white space between two tokens other white space may stand, and all the other
tokens are as they were, exactly if it begins with a line break or the token before it does not wait
for one; there may be no token before it -/
theorem scan_spaced_anew (v : Vocabulary) (text : Text) (before after : List Token) (w w' : Text)
    (h : scan v text = before ++ ⟨.whitespace, w⟩ :: after) (hne : w' ≠ [])
    (hw : ∀ c ∈ w', isWhitespace c = true) :
    scan v (textOf before ++ w' ++ textOf after) = before ++ ⟨.whitespace, w'⟩ :: after ↔
      (∃ c ∈ w'.head?, isLineBreak c = true) ∨ ∀ t ∈ before.getLast?, ¬ t.EndsAtBreak := by
  have hu : scan v (textOf before) = before := scan_textOf_left h
  obtain ⟨p, rest, hp, he, ht, rfl⟩ := exists_of_scan_eq h
  obtain rfl : p = ⟨.whitespace, w⟩ := v.token_injective hp
  have he' := he.of_mem_whitespace (mem_whitespace hne hw)
  obtain ⟨c, cs, rfl⟩ := List.exists_cons_of_ne_nil he.text_ne_nil
  obtain ⟨c', cs', rfl⟩ := List.exists_cons_of_ne_nil hne
  have hc : isWhitespace c = true := he.isWhitespace_of_whitespace rfl rfl
  have hc' : isWhitespace c' = true := hw c' List.mem_cons_self
  rw [textOf_scan]
  constructor
  · intro hs
    by_cases hb : ∃ t ∈ before.getLast?, t.EndsAtBreak
    · obtain ⟨t, ht, hb⟩ := hb
      exact Or.inl ⟨c', rfl, isLineBreak_of_scan_eq hs ht hb⟩
    · exact Or.inr fun t ht hb' => hb ⟨t, ht, hb'⟩
  · intro hb
    have hs : ScansApart v (textOf before) (c :: (cs ++ rest)) := by
      refine (he.scansApart_iff v (textOf before)).mpr ?_
      rw [hu, ← ht]
      exact h
    -- the last token of the text before is the last before the white space
    have hb' : isLineBreak c' = true ∨
        ∀ t ∈ (scan v (textOf before)).getLast?, ¬ t.EndsAtBreak := by
      rw [hu]
      refine hb.imp_left ?_
      rintro ⟨d, hd, hd'⟩
      cases hd
      exact hd'
    have hr := (he'.scansApart_iff v (textOf before)).mp (hs.respaced hc hc' hb')
    rw [hu] at hr
    exact hr

/-- behind a lone quote a line separator may take the place of a line feed, and a space may not -/
theorem scan_spaced_anew_behind_quote :
    let v := Vocabulary.ofWords []
    let before : List Token := [⟨.error, ['\'']⟩]
    let after : List Token := [⟨.int, ['5']⟩]
    scan v ['\'', '\n', '5'] = before ++ ⟨.whitespace, ['\n']⟩ :: after ∧
      scan v ['\'', '\u2028', ' ', '5'] = before ++ ⟨.whitespace, ['\u2028', ' ']⟩ :: after ∧
      scan v ['\'', ' ', '5'] ≠ before ++ ⟨.whitespace, [' ']⟩ :: after := by
  intro v before after
  have h : scan v ['\'', '\n', '5'] = before ++ ⟨.whitespace, ['\n']⟩ :: after := by
    decide +kernel
  have hl := scan_spaced_anew v _ before after ['\n'] ['\u2028', ' '] h (by decide)
    (List.all_eq_true.mp (by decide))
  have hs := scan_spaced_anew v _ before after ['\n'] [' '] h (by decide)
    (List.all_eq_true.mp (by decide))
  refine ⟨h, hl.mpr (Or.inl ⟨_, rfl, by decide⟩), ?_⟩
  intro he
  rcases hs.mp he with ⟨c, hc, hb⟩ | hb
  · cases hc
    cases hb
  · exact hb _ rfl (Or.inr rfl)

end CurlyLex
