import CurlyLex.Proofs.Slices
import CurlyLex.Proofs.Viability

/-!
# The longest match

Of the well-formed tokens that a text begins with, a scan takes the longest or makes an error of it.

* `LongestMatch v text w`   the text begins with the well-formed token `w`, and with none that is
                      longer;
* `EndsBefore.cut_of_longer`   a beginning of the text that goes beyond the first piece is cut into
                      that piece and what lies beyond it;
* `longest_match`     so each token that is no error is the longest match of the text from its place
                      on.

The scanner reads one character beyond a piece at most to know that it ends, and two beyond a point:
only the third character tells `..` from the beginning of `...`.
-/

namespace CurlyLex

structure LongestMatch (v : Vocabulary) (text w : Text) : Prop where
  begins : w <+: text
  complete : Complete v w
  longest : ∀ u, u <+: text → Complete v u → u.length ≤ w.length

section
variable {v : Vocabulary} {p : Piece} {rest u : Text} (h : p.EndsBefore rest)
  (hu : u <+: p.text ++ rest) (hl : p.text.length < u.length)
include h hu hl

theorem Piece.EndsBefore.cut_of_longer : ∃ x, x ≠ [] ∧ cut u = p :: cut x := by
  have hp : p.text <+: u :=
    List.prefix_of_prefix_length_le (List.prefix_append p.text rest) hu hl.le
  obtain ⟨x, rfl⟩ := hp
  have hx : x <+: rest := (List.prefix_append_right_inj p.text).mp hu
  refine ⟨x, ?_, (h.of_prefix hx).cut_append⟩
  intro e
  rw [e, List.append_nil] at hl
  exact lt_irrefl _ hl

-- the piece may be an error: no longer beginning would have been well-formed either
theorem Piece.EndsBefore.not_complete_of_longer : ¬ Complete v u := by
  intro hc
  obtain ⟨x, hx, hp⟩ := h.cut_of_longer hu hl
  obtain ⟨p', hp', -⟩ := exists_cut_of_complete hc
  rw [hp'] at hp
  have e : cut x = [] := (List.cons_eq_cons.mp hp).2.symm
  apply hx
  rw [← cutText_cut x, e, cutText_nil]

end

/-- maximal munch: a well-formed token is the longest one with which the text from its own place on
begins -/
theorem longest_match (v : Vocabulary) (text : Text) (before after : List Token) (t : Token)
    (h : scan v text = before ++ t :: after) (ht : t.kind ≠ .error) :
    LongestMatch v (text.drop (textOf before).length) t.lexeme := by
  have hm : t ∈ scan v text := by
    rw [h]
    exact List.mem_append_right before List.mem_cons_self
  have hs : scan v t.lexeme = [t] := scan_lexeme hm
  obtain ⟨p, rest, rfl, hp, e, -⟩ := exists_of_scan_eq h
  have hd : text.drop (textOf before).length = p.text ++ rest := by
    rw [e, List.append_assoc, List.drop_left]
  rw [hd]
  refine ⟨List.prefix_append p.text rest, ⟨v.token p, hs, ht⟩, ?_⟩
  intro u hu hc
  by_contra hl
  exact hp.not_complete_of_longer hu (not_le.mp hl) hc

/-- the first of two points, where neither both nor the number behind them are taken with it -/
theorem longest_match_point :
    let v := Vocabulary.ofWords []
    let text := ['a', '.', '.', '5']
    scan v text = [⟨.identifier, ['a']⟩] ++ ⟨.separator, ['.']⟩ :: [⟨.float, ['.', '5']⟩] ∧
      LongestMatch v ['.', '.', '5'] ['.'] := by
  intro v text
  have h : scan v text =
      [⟨.identifier, ['a']⟩] ++ ⟨.separator, ['.']⟩ :: [⟨.float, ['.', '5']⟩] := by
    decide +kernel
  exact ⟨h, longest_match v text [⟨.identifier, ['a']⟩] [⟨.float, ['.', '5']⟩] _ h (by decide)⟩

end CurlyLex
