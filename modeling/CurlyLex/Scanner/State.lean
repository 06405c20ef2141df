import CurlyLex.Token

/-!
# Scanner: shapes and states

The scanner cuts a text into pieces without knowing the vocabulary, so it tells words apart from
the other pieces but not from each other.

* `Shape`   what a piece is, before a vocabulary is consulted;
* `Piece`   a shape and a stretch of text;
* `State`   what is known about the text that is still open;
* `State.pending`        the shape of the open text if the input ended now;
* `State.unterminated`   the states that only a closing quote or a closing `*/` ends well;
* `cutText`  the text that a list of pieces covers.
-/

namespace CurlyLex

inductive Shape where
  | word
  | comment
  | whitespace
  | operator
  | separator
  | int
  | float
  | char
  | string
  | error
  deriving DecidableEq, Repr

namespace Shape

/-- the kind of a piece whose text matters no further; a word without a vocabulary is an
identifier -/
def kind : Shape → Kind
  | .word => .identifier
  | .comment => .comment
  | .whitespace => .whitespace
  | .operator => .operator
  | .separator => .separator
  | .int => .int
  | .float => .float
  | .char => .char
  | .string => .string
  | .error => .error

end Shape

structure Piece where
  shape : Shape
  text : Text
  deriving DecidableEq, Repr

/-- the text of a list of pieces -/
def cutText (ps : List Piece) : Text := ps.flatMap Piece.text

theorem cutText_nil : cutText [] = [] := rfl
theorem cutText_cons (p : Piece) (ps : List Piece) : cutText (p :: ps) = p.text ++ cutText ps := rfl
theorem cutText_append (a b : List Piece) : cutText (a ++ b) = cutText a ++ cutText b := by
  simp [cutText, List.flatMap_append]

/-! ## states -/

inductive State where
  /-- between pieces; nothing is open -/
  | idle
  /-- a malformed piece, its offending character included -/
  | malformed
  | blank
  | slash
  | word
  /-- the single digit `0` -/
  | zero
  /-- digits that begin with another than `0` -/
  | decimal
  /-- the opening quote of a character literal -/
  | charOpen
  /-- the opening quote and a backslash -/
  | charEscape
  /-- all of a character literal but its closing quote -/
  | charFull
  | string
  /-- a string literal up to a backslash that begins an escape -/
  | stringEscape
  | dot
  | dotDot
  | greater
  | greaterGreater
  | less
  | ampersand
  | bar
  | colon
  /-- an operator that only `=` extends: one of `^ ! * = %`, or `++`, `--`, `<<`, `>>>` -/
  | extensible
  | plus
  | minus
  /-- an operator that ends in `=` and that nothing extends -/
  | assignment
  | lineComment
  | blockComment
  /-- a block comment whose last character is a star that may begin its end -/
  | blockStar
  | binary
  | hex
  /-- an integer with its suffix -/
  | longInt
  /-- a number with the suffix of a float -/
  | suffixed
  /-- a number with a point, up to some digit behind it -/
  | fraction
  deriving DecidableEq, Repr

namespace State

/-- all states, in the order of their declaration -/
def all : List State :=
  [.idle, .malformed, .blank, .slash, .word, .zero, .decimal, .charOpen, .charEscape, .charFull,
   .string, .stringEscape, .dot, .dotDot, .greater, .greaterGreater, .less, .ampersand, .bar,
   .colon, .extensible, .plus, .minus, .assignment, .lineComment, .blockComment, .blockStar,
   .binary, .hex, .longInt, .suffixed, .fraction]

theorem mem_all (q : State) : q ∈ all := by cases q <;> decide

/-- the shape that the open text has if the input ends now; what lacks its closing delimiter is
an error -/
def pending : State → Option Shape
  | .idle => none
  | .blank => some .whitespace
  | .word => some .word
  | .zero | .decimal | .binary | .hex | .longInt => some .int
  | .fraction | .suffixed => some .float
  | .slash | .greater | .greaterGreater | .less | .ampersand | .bar | .colon | .extensible
  | .plus | .minus | .assignment => some .operator
  | .dot | .dotDot => some .separator
  | .lineComment => some .comment
  | .malformed | .charOpen | .charEscape | .charFull | .string | .stringEscape | .blockComment
  | .blockStar => some .error

/-- is a closing delimiter still missing? -/
def unterminated : State → Bool
  | .charOpen | .charEscape | .charFull | .string | .stringEscape | .blockComment
  | .blockStar => true
  | _ => false

theorem pending_eq_none_iff (q : State) : q.pending = none ↔ q = .idle := by cases q <;> decide

theorem pending_of_unterminated (q : State) (h : q.unterminated = true) :
    q.pending = some .error := by
  revert h
  cases q <;> decide

end State

end CurlyLex
