import CurlyLex.Proofs.Spacing

/-!
# The end of input and the end of a line

At the end of input the open text is closed by a rule of its own.  A line break behind the text
would have closed it in the same way (`Scanner.feed_of_ends`), but for the texts that go on across a
line break or that it spoils.

* `State.spansBreaks`   the states of these texts: white space, literals that are not at their
                      beginning, and block comments;
* `idle_or_ends_iff_of_isLineBreak`   a line break closes the texts of all other states;
* `break_ends_like_input`   so a line break at the end of a text is a token behind those of the
                      text exactly if the text ends in none of these states.

A character literal of which nothing but the quote is there lacks its end too, but a line break
leaves the quote alone, and so does the end of input.
-/

namespace CurlyLex

/-- the states whose texts a line break does not close -/
def State.spansBreaks : List State :=
  [.blank, .charEscape, .charFull, .string, .stringEscape, .blockComment, .blockStar]

theorem scan_singleton_of_isWhitespace (v : Vocabulary) {c : Char} (hc : isWhitespace c = true) :
    scan v [c] = [⟨.whitespace, [c]⟩] := by
  have hb : Open .blank [c] := open_idle.concat (congrArg Move.join (start_of_isWhitespace hc))
  exact congrArg (List.map v.token) hb.cut_eq

theorem idle_or_ends_iff_of_isLineBreak {q : State} {c : Char} (hc : isLineBreak c = true) :
    q = .idle ∨ (move q c).ends = true ↔ q ∉ State.spansBreaks := by
  by_cases hq : q = .charOpen
  · subst hq
    exact iff_of_true (Or.inr (ends_charOpen_iff.mpr hc)) (by decide)
  by_cases hq' : q = .lineComment
  · subst hq'
    exact iff_of_true (Or.inr (ends_lineComment_iff.mpr hc)) (by decide)
  -- in all other states every line break is like a space
  rw [move_of_isWhitespace hq hq' (isWhitespace_of_isLineBreak c hc)]
  have h : ∀ q ∈ State.all, q ≠ .charOpen → q ≠ .lineComment →
      (q = .idle ∨ (move q ' ').ends = true ↔ q ∉ State.spansBreaks) := by decide +kernel
  exact h q q.mem_all hq hq'

/-- the end of input makes of a text what a line break behind it makes of it, exactly if the text
ends in no state that spans line breaks -/
theorem break_ends_like_input (v : Vocabulary) (u : Text) (c : Char) (hc : isLineBreak c = true) :
    scan v (u ++ [c]) = scan v u ++ [⟨.whitespace, [c]⟩] ↔
      (Session.fed v u).scanner.state ∉ State.spansBreaks := by
  have hw : isWhitespace c = true := isWhitespace_of_isLineBreak c hc
  calc scan v (u ++ [c]) = scan v u ++ [⟨.whitespace, [c]⟩]
      ↔ ScansApart v u [c] := by rw [ScansApart, scan_singleton_of_isWhitespace v hw]
    _ ↔ (Session.fed v u).scanner.state = .idle ∨
          (move (Session.fed v u).scanner.state c).ends = true :=
      scansApart_cons_iff_of_isWhitespace hw
    _ ↔ (Session.fed v u).scanner.state ∉ State.spansBreaks := idle_or_ends_iff_of_isLineBreak hc

/-- a line separator closes a lone quote as the end of input does, and two points; it goes into a
string -/
theorem break_ends_like_input_behind_quote :
    let v := Vocabulary.ofWords []
    isLineBreak '\u2028' = true ∧
      scan v ['a', '\'', '\u2028'] = scan v ['a', '\''] ++ [⟨.whitespace, ['\u2028']⟩] ∧
      scan v ['.', '.', '\u2028'] = scan v ['.', '.'] ++ [⟨.whitespace, ['\u2028']⟩] ∧
      scan v ['"', 'a', '\u2028'] ≠ scan v ['"', 'a'] ++ [⟨.whitespace, ['\u2028']⟩] := by
  intro v
  have hc : isLineBreak '\u2028' = true := by decide
  refine ⟨hc, (break_ends_like_input v ['a', '\''] _ hc).mpr (by decide +kernel),
    (break_ends_like_input v ['.', '.'] _ hc).mpr (by decide +kernel), ?_⟩
  intro h
  exact (break_ends_like_input v ['"', 'a'] _ hc).mp h (by decide +kernel)

end CurlyLex
