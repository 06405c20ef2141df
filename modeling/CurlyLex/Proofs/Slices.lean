import CurlyLex.Proofs.Pieces

/-!
# Token lists and their own texts

A text may be cut off behind any of its tokens: the tokens before the cut are those of the text
before it, and the tokens behind it are those of the text behind it.

* `EndsBefore.of_prefix`   a piece that ends before a text ends before every beginning of it;
* `cut_cutText_left`, `cut_cutText_right`   the two halves of a list of pieces are cut from their
                      own texts;
* `scan_slice`        so every stretch of a token list is scanned from its own text.

Behind a cut the end of input does what the next character did before: it closes the open text with
the same shape (`pending_of_close`), and it parts two points.
-/

namespace CurlyLex

/-! ## the end of input for a following character -/

/-- what follows a piece enters through its beginning only -/
theorem Piece.EndsBefore.of_prefix {p : Piece} {rest w : Text} (h : p.EndsBefore rest)
    (hw : w <+: rest) : p.EndsBefore w := by
  cases w with
  | nil => exact h.nil
  | cons c cs =>
    obtain ⟨x, rfl⟩ := hw
    cases h with
    | completed hb h => exact .completed hb h
    | closed hb h hq hc => exact .closed hb h hq hc
    | point h =>
      refine .point ?_
      intro e
      cases cs with
      | nil => cases e
      | cons d ds => exact h e

/-! ## pieces -/

section
variable {text : Text} {ps qs : List Piece} (h : cut text = ps ++ qs)
include h

theorem cut_cutText_left : cut (cutText ps) = ps := by
  induction ps generalizing text with
  | nil => rfl
  | cons p ps ih =>
    have hb : cut text = [] ++ p :: (ps ++ qs) := h
    obtain ⟨rest, _, hp, hr⟩ := exists_of_cut_eq hb
    have hc : cut rest = ps ++ qs := hr.symm
    have hps : cut (cutText ps) = ps := ih hc
    have hw : cutText ps <+: rest := by
      rw [← cutText_cut rest, hc, cutText_append]
      exact List.prefix_append _ _
    rw [cutText_cons, (hp.of_prefix hw).cut_append, hps]

theorem cut_cutText_right : cut (cutText qs) = qs := by
  cases qs with
  | nil => rfl
  | cons q qs =>
    obtain ⟨rest, _, hq, hr⟩ := exists_of_cut_eq h
    rw [cutText_cons, hr, cutText_cut, hq.cut_append]

end

/-! ## tokens -/

section
variable {v : Vocabulary} {text : Text} {before after : List Token}
  (h : scan v text = before ++ after)
include h

theorem scan_textOf_left : scan v (textOf before) = before := by
  rw [scan_eq] at h
  obtain ⟨ps, qs, hc, rfl, rfl⟩ := List.map_eq_append_iff.mp h
  rw [show textOf (ps.map v.token) = cutText ps from v.textOf_tokens ps, scan_eq,
    cut_cutText_left hc]

theorem scan_textOf_right : scan v (textOf after) = after := by
  rw [scan_eq] at h
  obtain ⟨ps, qs, hc, rfl, rfl⟩ := List.map_eq_append_iff.mp h
  rw [show textOf (qs.map v.token) = cutText qs from v.textOf_tokens qs, scan_eq,
    cut_cutText_right hc]

end

/-- every stretch of a token list is scanned from its own text, and so are the tokens before it,
the tokens behind it, and each token of it alone -/
theorem scan_slice (v : Vocabulary) (text : Text) (before slice after : List Token)
    (h : scan v text = before ++ slice ++ after) :
    scan v (textOf slice) = slice ∧ scan v (textOf before) = before ∧
      scan v (textOf after) = after ∧ ∀ t ∈ slice, scan v t.lexeme = [t] := by
  have hl : scan v (textOf (before ++ slice)) = before ++ slice := scan_textOf_left h
  have hs : scan v (textOf slice) = slice := scan_textOf_right hl
  refine ⟨hs, scan_textOf_left hl, scan_textOf_right h, ?_⟩
  intro t ht
  rw [← hs] at ht
  exact scan_lexeme ht

/-- a lone quote, a malformed number, and two points that the cut parts -/
theorem scan_slice_between_points :
    let v := Vocabulary.ofWords []
    let before : List Token := [⟨.error, ['\'']⟩, ⟨.whitespace, ['\n']⟩]
    let slice : List Token := [⟨.error, ['0', '9']⟩, ⟨.separator, ['.']⟩]
    let after : List Token := [⟨.float, ['.', '5']⟩]
    let text := ['\'', '\n', '0', '9', '.', '.', '5']
    scan v text = before ++ slice ++ after ∧
      scan v (textOf slice) = slice ∧ scan v (textOf before) = before ∧
      scan v (textOf after) = after ∧ ∀ t ∈ slice, scan v t.lexeme = [t] := by
  intro v before slice after text
  have h : scan v text = before ++ slice ++ after := by decide +kernel
  exact ⟨h, scan_slice v text before slice after h⟩

end CurlyLex
