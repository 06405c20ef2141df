/-!
# Texts and bytes

Source text, lexemes, words, paths and command-line arguments are all lists of characters, where
a character is a Unicode scalar value; what is read and written is a list of bytes.

A line of a text ends at a line feed, which is not part of it.  What stands behind the last line
feed is one more line, if anything does.

* `textLines`   the lines of a text;
* `ofLines`     the text of some lines, `textLines_ofLines`.
-/

namespace CurlyLex

/-- a text, character by character -/
abbrev Text := List Char

/-- what a file, a stream or an output holds -/
abbrev Bytes := List UInt8

/-! ## lines -/

/-- the lines of a text, without their line feeds -/
def textLines (t : Text) : List Text :=
  let pieces := t.splitOn '\n'
  if pieces.getLast? = some [] then pieces.dropLast else pieces

/-- the text of some lines, each with its line feed -/
def ofLines (ls : List Text) : Text := ls.flatMap fun l => l ++ ['\n']

theorem ofLines_nil : ofLines [] = [] := rfl
theorem ofLines_cons (l : Text) (ls : List Text) :
    ofLines (l :: ls) = l ++ '\n' :: ofLines ls := by
  simp [ofLines]
theorem ofLines_append (a b : List Text) : ofLines (a ++ b) = ofLines a ++ ofLines b := by
  simp [ofLines, List.flatMap_append]

section
variable {ls : List Text}

theorem splitOn_ofLines (h : ∀ l ∈ ls, '\n' ∉ l) : (ofLines ls).splitOn '\n' = ls ++ [[]] := by
  induction ls with
  | nil => rfl
  | cons l ls ih =>
    obtain ⟨hl, hls⟩ := List.forall_mem_cons.mp h
    rw [ofLines_cons, List.splitOn_append_cons_self_of_not_mem hl, ih hls]
    rfl

theorem textLines_ofLines (h : ∀ l ∈ ls, '\n' ∉ l) : textLines (ofLines ls) = ls := by
  rw [textLines, splitOn_ofLines h, List.getLast?_concat, if_pos rfl, List.dropLast_concat]

end

end CurlyLex
