import CurlyLex.Scanner.Basic
import Mathlib.Tactic.SplitIfs

/-!
# What ends a text

An open text ends in one of two ways: by a character that does not join it, or by the end of input.
Each has its own account of what the text is.

* `Shape.EndedBy`      the characters that may end a text of a shape;
* `of_close`           the shape that a character gives the text it ends is the one that the end of
                       input gives it (`pending_of_close`), and the character may end a text of it;
* `dotDot_of_split`    only two points are split, and the second is left to the rule behind a point;
* `move_cases`         so a character joins the open text, or ends it, or is a digit behind two
                       points;
* `Scanner.feed_of_ends`   a character that ends the open text makes of it what the end of input
                       makes of it, and begins the next text like a first character.
-/

namespace CurlyLex

/-! ## the shape of what a character ends -/

/-- what holds of a character that ends a text of the shape -/
def Shape.EndedBy (shape : Shape) (c : Char) : Prop :=
  match shape with
  | .word => isWhitespace c = true ∨ isOperator c = true ∨ isSeparator c = true
  | .int | .float => isIdentContinue c = false
  | .operator => isOperator c = false
  | .whitespace => isWhitespace c = false
  | .comment => isLineBreak c = true
  | _ => True

section
variable {q : State} {c : Char} {shape shape' : Shape} {rest : Move}

theorem of_afterComplete {spoils : Char → Bool} (h : afterComplete spoils shape' c = .close shape) :
    shape = shape' ∧ spoils c = false := by
  unfold afterComplete at h
  split at h
  · cases h
  · next hc =>
    cases h
    exact ⟨rfl, Bool.eq_false_iff.mpr hc⟩

theorem of_afterWord (h : afterWord c = .close shape) :
    shape = .word ∧ (isWhitespace c = true ∨ isOperator c = true ∨ isSeparator c = true) := by
  unfold afterWord at h
  split at h
  · next hc =>
    cases h
    exact ⟨rfl, by simpa [or_assoc] using hc⟩
  · cases h

theorem shape_of_afterPoint (h : afterPoint c = .close shape) : shape = .separator := by
  unfold afterPoint at h
  split_ifs at h
  cases h
  rfl

theorem afterBackslash_ne_close : afterBackslash q c ≠ .close shape := by
  unfold afterBackslash
  split <;> exact nofun

/-- a character gives the text that it ends the shape that the end of input gives it, and it is one
that may end a text of that shape -/
theorem of_close (h : move q c = .close shape) : q.pending = some shape ∧ shape.EndedBy c := by
  cases q
  case idle => cases h
  case malformed =>
    cases h
    exact ⟨rfl, trivial⟩
  case dot =>
    obtain rfl := shape_of_afterPoint h
    exact ⟨rfl, trivial⟩
  case charEscape | stringEscape => exact absurd h afterBackslash_ne_close
  case longInt | suffixed =>
    obtain ⟨rfl, hc⟩ := of_afterComplete h
    exact ⟨rfl, hc⟩
  case assignment =>
    obtain ⟨rfl, hc⟩ := of_afterComplete h
    exact ⟨rfl, hc⟩
  -- in the other states the first conditions are those under which the character joins the text
  case zero | decimal | binary | hex | fraction =>
    simp only [move, radixDigit] at h
    split_ifs at h
    obtain ⟨rfl, hc⟩ := of_afterComplete h
    exact ⟨rfl, hc⟩
  case word =>
    rw [move] at h
    split_ifs at h
    obtain ⟨rfl, hc⟩ := of_afterWord h
    exact ⟨rfl, hc⟩
  case blank =>
    rw [move] at h
    split_ifs at h with hc
    cases h
    exact ⟨rfl, Bool.eq_false_iff.mpr hc⟩
  case lineComment =>
    rw [move] at h
    split_ifs at h with hc
    cases h
    exact ⟨rfl, hc⟩
  case charOpen =>
    rw [move] at h
    split_ifs at h
    cases h
    exact ⟨rfl, trivial⟩
  case charFull | string | dotDot | blockComment | blockStar =>
    rw [move] at h
    split_ifs at h
  -- the operators that something extends
  all_goals
    simp only [move, doubledOrAssign, increment] at h
    split_ifs at h
    obtain ⟨rfl, hc⟩ := of_afterComplete h
    exact ⟨rfl, hc⟩

theorem pending_of_close (h : move q c = .close shape) : q.pending = some shape := (of_close h).1

theorem endedBy_of_close (h : move q c = .close shape) : shape.EndedBy c := (of_close h).2

theorem ne_dotDot_of_close (h : move q c = .close shape) : q ≠ .dotDot := by
  intro e
  subst e
  rw [move] at h
  split at h <;> cases h

/-! ## two points -/

theorem dotDot_of_split (h : move q c = .split rest) :
    q = .dotDot ∧ c ≠ '.' ∧ rest = afterPoint c := by
  cases q
  case dotDot =>
    rw [move] at h
    split_ifs at h with hc
    cases h
    exact ⟨rfl, hc, rfl⟩
  case idle | malformed => cases h
  all_goals
    simp only [move, afterComplete, afterOperator, afterNumber, afterWord, afterBackslash,
      afterPoint, radixDigit, doubledOrAssign, increment] at h
    split_ifs at h

theorem afterPoint_ne_split : afterPoint c ≠ .split rest := by
  unfold afterPoint
  split_ifs <;> exact nofun

theorem move_cases (q : State) (c : Char) :
    (∃ next, move q c = .join next) ∨ (move q c).ends = true ∨
      q = .dotDot ∧ isDigit c = true ∧ move q c = .split (.stay .fraction) := by
  cases hm : move q c with
  | join next => exact Or.inl ⟨next, rfl⟩
  | close shape => exact Or.inr (Or.inl rfl)
  | split rest =>
    obtain ⟨hq, hc, rfl⟩ := dotDot_of_split hm
    right
    unfold afterPoint
    by_cases hd : isDigit c = true
    · exact Or.inr ⟨hq, hd, by rw [if_pos hd]⟩
    · left
      rw [if_neg hd, if_neg hc]
      rfl

end

namespace Scanner

variable {s : Scanner} {c : Char}

/-- a character that ends the open text closes it as the end of input does -/
theorem feed_of_ends (h : (move s.state c).ends = true) :
    s.feed c = (s.close ++ (settle [c] (start c)).1, (settle [c] (start c)).2) := by
  cases hm : move s.state c with
  | join next =>
    rw [hm] at h
    cases h
  | close shape =>
    rw [feed_of_close hm, close, closing_of_pending _ (pending_of_close hm) (ne_dotDot_of_close hm)]
    rfl
  | split rest =>
    obtain ⟨hq, hc, rfl⟩ := dotDot_of_split hm
    rw [hm] at h
    -- the second point is closed like a point that begins a text
    cases hr : afterPoint c with
    | join next =>
      rw [hr] at h
      cases h
    | split rest => exact absurd hr afterPoint_ne_split
    | close shape =>
      obtain rfl := shape_of_afterPoint hr
      rw [feed_of_split hm, hr, close, hq, closing_dotDot, perform, List.reverse_reverse]
      rfl

end Scanner

end CurlyLex
