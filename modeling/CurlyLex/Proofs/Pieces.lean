import CurlyLex.Proofs.Sound

/-!
# Where a piece ends

A text is cut from the left: its first piece is found, and the rest is cut as a text of its own.

* `Piece.EndsBefore p rest`   the piece `p` may be the first one of `p.text ++ rest`: its last
                      character completes it, or the next one does not join it, or it is the first
                      of two points that a third does not follow;
* `EndsBefore.cut_append`   then it is the first one;
* `exists_endsBefore`       every text that is not empty begins with such a piece;
* `exists_of_cut_eq`        so a piece anywhere ends before the text behind it, and the pieces
                      behind it are those of that text;
* `EndsBefore.cut_text`     such a piece is cut into itself;
* `exists_of_scan_eq`, `scan_lexeme`   the same for tokens.
-/

namespace CurlyLex

/-! ## cutting behind an open text -/

section
variable {q : State} {b : Text} {c : Char} (hb : Open q b)
include hb

theorem Open.sound : (⟨q, b.reverse⟩ : Scanner).Sound := by
  rw [Scanner.Sound, Scanner.buffered, List.reverse_reverse]
  exact hb

theorem Open.cut_append (w : Text) : cut (b ++ w) = (⟨q, b.reverse⟩ : Scanner).cutFrom w := by
  have h := hb.sound.cut_buffered_append w
  rwa [Scanner.buffered, List.reverse_reverse] at h

theorem Open.cut_eq : cut b = Scanner.closing q b := by
  have h := hb.cut_append []
  rwa [List.append_nil, Scanner.cutFrom_nil, Scanner.close, Scanner.buffered,
    List.reverse_reverse] at h

theorem Open.cut_of_done {shape : Shape} (h : move q c = .done shape) (w : Text) :
    cut (b ++ c :: w) = ⟨shape, b ++ [c]⟩ :: cut w := by
  rw [hb.cut_append, Scanner.cutFrom_cons, Scanner.feed_of_join h, Scanner.settle,
    List.reverse_cons, List.reverse_reverse]
  rfl

theorem Open.cut_of_ends (h : (move q c).ends = true) (w : Text) :
    cut (b ++ c :: w) = Scanner.closing q b ++ cut (c :: w) := by
  rw [hb.cut_append, Scanner.cutFrom_cons, Scanner.feed_of_ends h, ← Scanner.feed_fresh,
    ← Scanner.cutFrom_fresh (c :: w), Scanner.cutFrom_cons, ← List.append_assoc, Scanner.close,
    Scanner.buffered, List.reverse_reverse]

end

theorem open_dot : Open .dot ['.'] := .wellFormed (List.mem_singleton_self _)

theorem open_dotDot : Open .dotDot ['.', '.'] := .wellFormed (List.mem_singleton_self _)

/-- two points that a third does not follow are cut apart, whatever becomes of the second -/
theorem cut_two_points {w : Text} (hw : w.head? ≠ some '.') :
    cut ('.' :: '.' :: w) = ⟨.separator, ['.']⟩ :: cut ('.' :: w) := by
  cases w with
  | nil => decide +kernel
  | cons c cs =>
    have hc : c ≠ '.' := fun e => hw (congrArg some e)
    by_cases hd : isDigit c = true
    · have hm : move .dotDot c = .split (.stay .fraction) := by
        rw [move, if_neg hc, afterPoint, if_pos hd]
      have hf : (⟨.dotDot, ['.', '.']⟩ : Scanner).feed c =
          ([⟨.separator, ['.']⟩], ⟨.fraction, [c, '.']⟩) :=
        open_dotDot.sound.feed_of_fraction rfl hm
      have h1 : cut ('.' :: '.' :: c :: cs) =
          ⟨.separator, ['.']⟩ :: (⟨.fraction, [c, '.']⟩ : Scanner).cutFrom cs := by
        refine (open_dotDot.cut_append (c :: cs)).trans ?_
        rw [show ['.', '.'].reverse = ['.', '.'] from rfl, Scanner.cutFrom_cons, hf]
        rfl
      have h2 : cut ('.' :: c :: cs) = (⟨.fraction, [c, '.']⟩ : Scanner).cutFrom cs :=
        (Scanner.open_fraction_of_isDigit hd).cut_append cs
      rw [h1, h2]
    · have h1 : (move .dot c).ends = true := by
        rw [move, afterPoint, if_neg hd, if_neg hc]
        rfl
      have h2 : (move .dotDot c).ends = true := by
        rw [move, if_neg hc]
        exact h1
      have h3 := open_dotDot.cut_of_ends h2 cs
      have h4 := open_dot.cut_of_ends h1 cs
      rw [List.singleton_append] at h4
      rw [h4]
      exact h3

/-! ## the first piece -/

/-- the piece `p` may be the first one of `p.text ++ rest` -/
inductive Piece.EndsBefore : Piece → Text → Prop where
  /-- its last character completes it -/
  | completed {q : State} {b : Text} {c : Char} {shape : Shape} {rest : Text} (hb : Open q b)
      (h : move q c = .done shape) : EndsBefore ⟨shape, b ++ [c]⟩ rest
  /-- the next character, if there is one, does not join it -/
  | closed {q : State} {b : Text} {shape : Shape} {rest : Text} (hb : Open q b)
      (h : q.pending = some shape) (hq : q ≠ .dotDot)
      (hc : ∀ c ∈ rest.head?, move q c = .close shape) : EndsBefore ⟨shape, b⟩ rest
  /-- it is the first of two points -/
  | point {rest : Text} (h : rest.head? ≠ some '.') :
      EndsBefore ⟨.separator, ['.']⟩ ('.' :: rest)

namespace Piece

variable {p : Piece} {rest : Text}

theorem EndsBefore.cut_append (h : p.EndsBefore rest) : cut (p.text ++ rest) = p :: cut rest := by
  cases h with
  | @completed q b c shape rest hb h =>
    rw [List.append_assoc]
    exact hb.cut_of_done h rest
  | @closed q b shape rest hb h hq hc =>
    cases rest with
    | nil =>
      rw [List.append_nil, hb.cut_eq, Scanner.closing_of_pending b h hq]
      rfl
    | cons c cs =>
      rw [hb.cut_of_ends (congrArg Move.ends (hc c rfl)) cs, Scanner.closing_of_pending b h hq]
      rfl
  | point h => exact cut_two_points h

/-- a piece that ends somewhere ends with the input too -/
theorem EndsBefore.nil (h : p.EndsBefore rest) : p.EndsBefore [] := by
  cases h with
  | completed hb h => exact .completed hb h
  | closed hb h hq _ => exact .closed hb h hq (by simp)
  | point _ => exact .closed (q := .dot) open_dot rfl (by decide) (by simp)

theorem EndsBefore.cut_text (h : p.EndsBefore rest) : cut p.text = [p] := by
  have hp := h.nil.cut_append
  rwa [List.append_nil] at hp

theorem EndsBefore.text_ne_nil (h : p.EndsBefore rest) : p.text ≠ [] := by
  intro e
  have hp := h.cut_text
  rw [e] at hp
  cases hp

end Piece

/-- an open text that nothing joins begins with a piece -/
theorem Open.exists_endsBefore_of_not_join {q : State} {b w : Text} (hb : Open q b)
    (hq : q ≠ .idle) (hw : ∀ c ∈ w.head?, ∀ next, move q c ≠ .join next) :
    ∃ (p : Piece) (rest : Text), b ++ w = p.text ++ rest ∧ p.EndsBefore rest := by
  by_cases hd : q = .dotDot
  · subst hd
    have e : (⟨.dotDot, b.reverse⟩ : Scanner).buffered = ['.', '.'] :=
      hb.sound.buffered_of_dotDot rfl
    rw [Scanner.buffered, List.reverse_reverse] at e
    subst e
    refine ⟨⟨.separator, ['.']⟩, '.' :: w, rfl, .point ?_⟩
    intro h
    exact hw '.' h (.done .separator) rfl
  · cases hp : q.pending with
    | none => exact absurd ((State.pending_eq_none_iff q).mp hp) hq
    | some shape =>
      refine ⟨⟨shape, b⟩, w, rfl, .closed hb hp hd ?_⟩
      intro c hc
      cases hm : move q c with
      | join next => exact absurd hm (hw c hc next)
      | close shape' => rw [Option.some.inj ((pending_of_close hm).symm.trans hp)]
      | split rest => exact absurd (dotDot_of_split hm).1 hd

/-- an open text and what follows it begin with a piece -/
theorem Open.exists_endsBefore {q : State} {b : Text} (hb : Open q b) (w : Text)
    (h : b ++ w ≠ []) :
    ∃ (p : Piece) (rest : Text), b ++ w = p.text ++ rest ∧ p.EndsBefore rest := by
  induction w generalizing q b with
  | nil =>
    rw [List.append_nil] at h
    exact hb.exists_endsBefore_of_not_join (fun e => h (hb.eq_nil_iff.mpr e)) (by simp)
  | cons c cs ih =>
    have hcs : b ++ [c] ++ cs = b ++ c :: cs := by simp
    by_cases hj : ∀ next, move q c ≠ .join next
    · refine hb.exists_endsBefore_of_not_join ?_ ?_
      · intro e
        subst e
        exact hj (start c) rfl
      · intro d hd
        cases hd
        exact hj
    · obtain ⟨next, hm⟩ := not_forall_not.mp hj
      cases next with
      | stay r =>
        obtain ⟨p, rest, e, hp⟩ := ih (hb.concat hm) (hcs ▸ h)
        exact ⟨p, rest, hcs.symm.trans e, hp⟩
      | done shape => exact ⟨⟨shape, b ++ [c]⟩, cs, hcs.symm, .completed hb hm⟩

theorem exists_endsBefore {text : Text} (h : text ≠ []) :
    ∃ (p : Piece) (rest : Text), text = p.text ++ rest ∧ p.EndsBefore rest :=
  open_idle.exists_endsBefore text h

/-! ## the later pieces -/

/-- a piece ends before the text behind it, which is cut into the pieces behind it -/
theorem exists_of_cut_eq {text : Text} {before after : List Piece} {p : Piece}
    (h : cut text = before ++ p :: after) :
    ∃ rest, text = cutText before ++ p.text ++ rest ∧ p.EndsBefore rest ∧ after = cut rest := by
  induction before generalizing text with
  | nil =>
    have ht : text ≠ [] := by
      intro e
      subst e
      cases h
    obtain ⟨p', rest, e, hp⟩ := exists_endsBefore ht
    rw [e, hp.cut_append] at h
    cases h
    exact ⟨rest, e, hp, rfl⟩
  | cons d before ih =>
    have ht : text ≠ [] := by
      intro e
      subst e
      cases h
    obtain ⟨p', rest', e, hp⟩ := exists_endsBefore ht
    rw [e, hp.cut_append, List.cons_append] at h
    obtain ⟨rfl, h'⟩ := List.cons_eq_cons.mp h
    obtain ⟨rest, e', hp', ha⟩ := ih h'
    refine ⟨rest, ?_, hp', ha⟩
    rw [e, e', cutText_cons, List.append_assoc, List.append_assoc, List.append_assoc]

theorem exists_endsBefore_of_mem_cut {text : Text} {p : Piece} (h : p ∈ cut text) :
    ∃ rest, p.EndsBefore rest := by
  obtain ⟨before, after, e⟩ := List.append_of_mem h
  obtain ⟨rest, _, hp, _⟩ := exists_of_cut_eq e
  exact ⟨rest, hp⟩

/-! ## tokens -/

theorem textOf_scan (v : Vocabulary) (text : Text) : textOf (scan v text) = text := by
  rw [scan, Vocabulary.textOf_tokens, cutText_cut]

section
variable {v : Vocabulary} {text : Text}

/-- a token is a piece that ends before the text behind it, and the tokens behind it are those of
that text -/
theorem exists_of_scan_eq {before after : List Token} {t : Token}
    (h : scan v text = before ++ t :: after) :
    ∃ (p : Piece) (rest : Text), v.token p = t ∧ p.EndsBefore rest ∧
      text = textOf before ++ p.text ++ rest ∧ after = scan v rest := by
  rw [scan_eq] at h
  obtain ⟨ps, qs, hc, rfl, hq⟩ := List.map_eq_append_iff.mp h
  obtain ⟨p, qs, rfl, rfl, rfl⟩ := List.map_eq_cons_iff.mp hq
  obtain ⟨rest, e, hp, rfl⟩ := exists_of_cut_eq hc
  refine ⟨p, rest, rfl, hp, ?_, rfl⟩
  show text = textOf (v.tokens ps) ++ p.text ++ rest
  rw [Vocabulary.textOf_tokens]
  exact e

/-- a token of any text, scanned alone, is itself -/
theorem scan_lexeme {t : Token} (h : t ∈ scan v text) : scan v t.lexeme = [t] := by
  obtain ⟨before, after, e⟩ := List.append_of_mem h
  obtain ⟨p, rest, rfl, hp, _, _⟩ := exists_of_scan_eq e
  exact congrArg (List.map v.token) hp.cut_text

end

end CurlyLex
