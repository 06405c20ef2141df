import CurlyLex.Proofs.Endings
import CurlyLex.Proofs.OpenTexts

/-!
# What a scanner knows

A scanner remembers of the past only the text that is open.

* `Scanner.Sound s`   the text that `s` holds may be open in its state;
* `Sound.feed`, `Sound.run`   one character and a whole text keep a scanner sound, so every scanner
                      that was fresh once is sound (`sound_run_fresh`);
* `Sound.run_buffered`   a fresh scanner that is fed the open text of a sound one becomes that one;
* `Scanner.cutFrom`   the pieces from here to the end of input;
* `cut_append_eq`     so what follows a text is cut as if it followed the open text alone;
* `cutText_cut`       the pieces of a text cover it.

A character that ends the open text begins the next one as it would begin a source text.  Two
points and a digit are the one exception: there the second point stays open, with the digit.
-/

namespace CurlyLex

namespace Scanner

/-- the text that the scanner holds may be open in its state -/
def Sound (s : Scanner) : Prop := Open s.state s.buffered

theorem sound_fresh : fresh.Sound := open_idle

variable {s : Scanner} {c : Char}

/-! ## one character -/

theorem Sound.settle_of_join {next : Next} (hs : s.Sound) (h : move s.state c = .join next) :
    (settle (c :: s.held) next).2.Sound := by
  cases next with
  | stay r =>
    show Open r (c :: s.held).reverse
    rw [List.reverse_cons]
    exact Open.concat hs h
  | done shape => exact sound_fresh

theorem Sound.buffered_of_dotDot (hs : s.Sound) (h : s.state = .dotDot) :
    s.buffered = ['.', '.'] := by
  rw [Sound, h] at hs
  cases hs with
  | wellFormed hb => exact List.mem_singleton.mp hb

/-- behind two points a digit and the second point are a fraction -/
theorem open_fraction_of_isDigit (hc : isDigit c = true) : Open .fraction ['.', c] :=
  .wellFormed ((Grammar.concat_mem_fraction ['.'] c).mpr (Or.inr ⟨Or.inl rfl, hc⟩))

theorem Sound.feed_of_fraction (hs : s.Sound) (hq : s.state = .dotDot)
    (h : move s.state c = .split (.stay .fraction)) :
    s.feed c = ([⟨.separator, ['.']⟩], ⟨.fraction, [c, '.']⟩) := by
  rw [feed_of_split h, hs.buffered_of_dotDot hq]
  rfl

theorem Sound.feed (hs : s.Sound) (c : Char) : (s.feed c).2.Sound := by
  rcases move_cases s.state c with ⟨next, h⟩ | h | ⟨hq, hc, h⟩
  · rw [feed_of_join h]
    exact hs.settle_of_join h
  · rw [feed_of_ends h]
    exact sound_fresh.settle_of_join (rfl : move fresh.state c = .join (start c))
  · rw [hs.feed_of_fraction hq h]
    exact open_fraction_of_isDigit hc

/-! ## whole texts -/

theorem Sound.run (hs : s.Sound) (text : Text) : (s.run text).2.Sound := by
  induction text generalizing s with
  | nil => exact hs
  | cons c cs ih =>
    rw [run_cons]
    exact ih (hs.feed c)

theorem sound_run_fresh (text : Text) : (fresh.run text).2.Sound := sound_fresh.run text

/-- a fresh scanner that is fed the open text of a sound one becomes that one -/
theorem Sound.run_buffered (hs : s.Sound) : fresh.run s.buffered = ([], s) := by
  rw [Open.run hs, buffered, List.reverse_reverse]

/-- nothing is open only between pieces -/
theorem Sound.buffered_eq_nil_iff (hs : s.Sound) : s.buffered = [] ↔ s.state = .idle :=
  Open.eq_nil_iff hs

/-! ## to the end of input -/

/-- the pieces of the open text and of a text behind it, to the end of input -/
def cutFrom (s : Scanner) (text : Text) : List Piece := (s.run text).1 ++ (s.run text).2.close

theorem cutFrom_nil (s : Scanner) : s.cutFrom [] = s.close := rfl
theorem cutFrom_cons (s : Scanner) (c : Char) (cs : Text) :
    s.cutFrom (c :: cs) = (s.feed c).1 ++ (s.feed c).2.cutFrom cs := by
  rw [cutFrom, run_cons, List.append_assoc]
  rfl
theorem cutFrom_fresh (text : Text) : fresh.cutFrom text = cut text := rfl

/-- a sound scanner cuts on like a fresh one behind the open text -/
theorem Sound.cut_buffered_append (hs : s.Sound) (text : Text) :
    cut (s.buffered ++ text) = s.cutFrom text := by
  rw [cut_append, hs.run_buffered]
  rfl

end Scanner

/-- what follows a text is cut as if it followed the open text alone -/
theorem cut_append_eq (u w : Text) :
    cut (u ++ w) =
      (Scanner.fresh.run u).1 ++ cut ((Scanner.fresh.run u).2.buffered ++ w) := by
  rw [(Scanner.sound_run_fresh u).cut_buffered_append, cut_append]
  rfl

/-- cutting loses no text -/
theorem cutText_cut (text : Text) : cutText (cut text) = text := by
  rw [cut_eq, cutText_append]
  by_cases h : (Scanner.fresh.run text).2.state = .idle
  · have hb := (Scanner.sound_run_fresh text).buffered_eq_nil_iff.mpr h
    rw [Scanner.close, h, Scanner.closing_idle, cutText_nil, ← hb, Scanner.cutText_run]
    rfl
  · rw [Scanner.close, Scanner.cutText_closing _ _ h, Scanner.cutText_run]
    rfl

end CurlyLex
