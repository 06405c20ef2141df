import CurlyLex.Scanner.Move

/-!
# Scanner: feeding characters

A scanner is a state and the text that is open in it.  It is fed one character at a time and hands
out the pieces that the character completes; at the end of the input it closes the open text.

* `Scanner.buffered`   the open text;
* `Scanner.close`      the pieces that the open text makes if the input ends now;
* `Scanner.perform`    what a move does with the open text and the next character;
* `Scanner.feed`       one character: the pieces it completes (at most three) and the scanner
                       behind it;
* `Scanner.run`        a whole text, and `run_append`: two texts one after the other;
* `Scanner.cutText_run`   no text is lost: the pieces and the open text are what was fed;
* `cut`                the pieces of a source text, from the first character to the end of input.

The open text is kept with its latest character first, so that feeding takes constant time.
-/

namespace CurlyLex

structure Scanner where
  state : State
  /-- the open text, latest character first -/
  held : Text
  deriving DecidableEq, Repr

namespace Scanner

/-- a scanner between pieces -/
def fresh : Scanner := ⟨.idle, []⟩

/-- the open text -/
def buffered (s : Scanner) : Text := s.held.reverse

theorem buffered_fresh : fresh.buffered = [] := rfl

/-! ## closing -/

/-- the pieces of the text `b`, open in state `q`, when it ends: two points are two separators,
all else is one piece -/
def closing (q : State) (b : Text) : List Piece :=
  match q, q.pending with
  | .dotDot, _ => [⟨.separator, b.take 1⟩, ⟨.separator, b.drop 1⟩]
  | _, some shape => [⟨shape, b⟩]
  | _, none => []

/-- the pieces that the open text makes if the input ends now -/
def close (s : Scanner) : List Piece := closing s.state s.buffered

theorem closing_idle (b : Text) : closing .idle b = [] := rfl
theorem closing_dotDot (b : Text) :
    closing .dotDot b = [⟨.separator, b.take 1⟩, ⟨.separator, b.drop 1⟩] := rfl
theorem closing_of_pending {q : State} {shape : Shape} (b : Text) (h : q.pending = some shape)
    (hq : q ≠ .dotDot) : closing q b = [⟨shape, b⟩] := by
  revert h hq
  cases q <;> simp [closing, State.pending]

/-- closing loses no text -/
theorem cutText_closing (q : State) (b : Text) (h : q ≠ .idle) : cutText (closing q b) = b := by
  by_cases hd : q = .dotDot
  · subst hd
    rw [closing_dotDot, cutText_cons, cutText_cons, cutText_nil, List.append_nil]
    exact List.take_append_drop 1 b
  · cases hp : q.pending with
    | none => exact absurd ((State.pending_eq_none_iff q).mp hp) h
    | some shape => rw [closing_of_pending b hp hd, cutText_cons, cutText_nil, List.append_nil]

/-! ## one character -/

/-- the text `held` (latest character first) once its last character has joined it -/
def settle (held : Text) : Next → List Piece × Scanner
  | .stay q => ([], ⟨q, held⟩)
  | .done shape => ([⟨shape, held.reverse⟩], fresh)

/-- what a move does with the text `held` (latest character first) and the character `c` -/
def perform (c : Char) : Text → Move → List Piece × Scanner
  | held, .join next => settle (c :: held) next
  | held, .close shape =>
    let (ps, s) := settle [c] (start c)
    (⟨shape, held.reverse⟩ :: ps, s)
  | held, .split rest =>
    let b := held.reverse
    let (ps, s) := perform c (b.drop 1).reverse rest
    (⟨.separator, b.take 1⟩ :: ps, s)

/-- the pieces that `c` completes, and the scanner behind it -/
def feed (s : Scanner) (c : Char) : List Piece × Scanner := perform c s.held (move s.state c)

theorem feed_of_join {s : Scanner} {c : Char} {next : Next} (h : move s.state c = .join next) :
    s.feed c = settle (c :: s.held) next := by
  rw [feed, h]
  rfl

theorem feed_of_close {s : Scanner} {c : Char} {shape : Shape} (h : move s.state c = .close shape) :
    s.feed c =
      (⟨shape, s.buffered⟩ :: (settle [c] (start c)).1, (settle [c] (start c)).2) := by
  rw [feed, h]
  rfl

theorem feed_of_split {s : Scanner} {c : Char} {rest : Move} (h : move s.state c = .split rest) :
    s.feed c =
      (⟨.separator, s.buffered.take 1⟩ :: (perform c (s.buffered.drop 1).reverse rest).1,
        (perform c (s.buffered.drop 1).reverse rest).2) := by
  rw [feed, h]
  rfl

theorem feed_fresh (c : Char) : fresh.feed c = settle [c] (start c) := rfl

theorem cutText_settle (held : Text) (next : Next) :
    cutText (settle held next).1 ++ (settle held next).2.buffered = held.reverse := by
  cases next with
  | stay q => rfl
  | done shape => simp [settle, cutText_cons, cutText_nil, buffered_fresh]

theorem cutText_perform (c : Char) (held : Text) (m : Move) :
    cutText (perform c held m).1 ++ (perform c held m).2.buffered = held.reverse ++ [c] := by
  induction m generalizing held with
  | join next => exact (cutText_settle (c :: held) next).trans List.reverse_cons
  | close shape =>
    show held.reverse ++ cutText (settle [c] (start c)).1 ++ (settle [c] (start c)).2.buffered = _
    rw [List.append_assoc, cutText_settle]
    rfl
  | split rest ih =>
    show held.reverse.take 1 ++ cutText (perform c (held.reverse.drop 1).reverse rest).1 ++
      (perform c (held.reverse.drop 1).reverse rest).2.buffered = _
    rw [List.append_assoc, ih, List.reverse_reverse, ← List.append_assoc, List.take_append_drop]

/-- a character is either in a piece or still open -/
theorem cutText_feed (s : Scanner) (c : Char) :
    cutText (s.feed c).1 ++ (s.feed c).2.buffered = s.buffered ++ [c] :=
  cutText_perform c s.held (move s.state c)

/-! ## whole texts -/

/-- feeds the text to the scanner; `ready` holds the pieces so far, latest first -/
def runFrom (ready : List Piece) (s : Scanner) : Text → List Piece × Scanner
  | [] => (ready.reverse, s)
  | c :: cs => runFrom ((s.feed c).1.reverse ++ ready) (s.feed c).2 cs

/-- the pieces that a text completes, and the scanner behind it -/
def run (s : Scanner) (text : Text) : List Piece × Scanner := runFrom [] s text

theorem runFrom_eq (ready : List Piece) (s : Scanner) (text : Text) :
    runFrom ready s text = (ready.reverse ++ (s.run text).1, (s.run text).2) := by
  induction text generalizing ready s with
  | nil => simp [run, runFrom]
  | cons c cs ih => simp [run, runFrom, ih ((s.feed c).1.reverse ++ ready), ih (s.feed c).1.reverse]

theorem run_nil (s : Scanner) : s.run [] = ([], s) := rfl

theorem run_cons (s : Scanner) (c : Char) (cs : Text) :
    s.run (c :: cs) = ((s.feed c).1 ++ ((s.feed c).2.run cs).1, ((s.feed c).2.run cs).2) := by
  rw [run, runFrom, runFrom_eq]
  simp

theorem run_singleton (s : Scanner) (c : Char) : s.run [c] = s.feed c := by
  simp [run_cons, run_nil]

/-- a text in two parts: the second goes on where the first ends -/
theorem run_append (s : Scanner) (u v : Text) :
    s.run (u ++ v) = ((s.run u).1 ++ ((s.run u).2.run v).1, ((s.run u).2.run v).2) := by
  induction u generalizing s with
  | nil => simp [run_nil]
  | cons c cs ih => simp [run_cons, ih]

theorem cutText_run (s : Scanner) (text : Text) :
    cutText (s.run text).1 ++ (s.run text).2.buffered = s.buffered ++ text := by
  induction text generalizing s with
  | nil => simp [run_nil, cutText_nil]
  | cons c cs ih =>
    rw [run_cons, cutText_append, List.append_assoc, ih, ← List.append_assoc, cutText_feed,
      List.append_assoc]
    rfl

end Scanner

/-- the pieces of a source text -/
def cut (text : Text) : List Piece :=
  let (ps, s) := Scanner.fresh.run text
  ps ++ s.close

theorem cut_eq (text : Text) :
    cut text = (Scanner.fresh.run text).1 ++ (Scanner.fresh.run text).2.close := rfl

theorem cut_append (u v : Text) :
    cut (u ++ v) = (Scanner.fresh.run u).1 ++
      (((Scanner.fresh.run u).2.run v).1 ++ ((Scanner.fresh.run u).2.run v).2.close) := by
  rw [cut_eq, Scanner.run_append, List.append_assoc]

end CurlyLex
