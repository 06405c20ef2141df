import CurlyLex.CharClass.Basic
import CurlyLex.Scanner.State

/-!
# Scanner: the table of moves

What one more character does, as a function of the state and the character alone.

* `Next`    what becomes of a text that the character joins: it stays open in some state, or it
            is complete and has a shape;
* `start`   the character begins a text of its own;
* `Move`    the character joins the open text (`join`), or ends it as a piece of some shape and
            begins the next one (`close`), or, behind two points, the first point is a separator and
            the rest is dealt with like one point (`split`);
* `move`    the table;
* `Move.ends`   the character ends all that is open and begins the next text.

One rule recurs: behind a complete text the characters of some class make it malformed, and any
other ends it and begins the next (`afterComplete`).  Behind an operator these are the operator
symbols, and behind a number the characters that continue identifiers.

The shape that a `close` carries is that of the rule that ends the text.  It is written down apart
from the shape that the end of input gives a text (`State.pending`).
-/

namespace CurlyLex

inductive Next where
  /-- the text stays open -/
  | stay (state : State)
  /-- the text is complete -/
  | done (shape : Shape)
  deriving DecidableEq, Repr

inductive Move where
  /-- the character joins the open text -/
  | join (next : Next)
  /-- the open text is a piece of the shape, and the character begins the next text -/
  | close (shape : Shape)
  /-- the first character of the open text is a separator, and `rest` is what the character does to
  the text behind it -/
  | split (rest : Move)
  deriving DecidableEq, Repr

/-- the character joins the open text, which stays open in state `q` -/
abbrev Move.stay (q : State) : Move := .join (.stay q)

/-- the character completes the open text -/
abbrev Move.done (shape : Shape) : Move := .join (.done shape)

/-- does the character end all that is open and begin the next text? -/
def Move.ends : Move → Bool
  | .join _ => false
  | .close _ => true
  | .split rest => rest.ends

/-! ## the first character -/

/-- what a text becomes that begins with `c` -/
def start (c : Char) : Next :=
  if c = '/' then .stay .slash
  else if isWhitespace c then .stay .blank
  else if isIdentStart c then .stay .word
  else if c = '0' then .stay .zero
  else if isDigit c then .stay .decimal
  else match c with
    | '\'' => .stay .charOpen
    | '"' => .stay .string
    | '.' => .stay .dot
    | '>' => .stay .greater
    | '<' => .stay .less
    | '&' => .stay .ampersand
    | '^' | '!' | '*' | '=' | '%' => .stay .extensible
    | ':' => .stay .colon
    | '+' => .stay .plus
    | '-' => .stay .minus
    | '|' => .stay .bar
    | '?' | '~' => .done .operator
    | c => if isSeparator c then .done .separator else .stay .malformed

/-! ## the later characters -/

/-- behind a complete text of the given shape: the characters of a class spoil it -/
def afterComplete (spoils : Char → Bool) (shape : Shape) (c : Char) : Move :=
  if spoils c then .stay .malformed else .close shape

/-- behind an operator that `c` does not extend -/
def afterOperator (c : Char) : Move := afterComplete isOperator .operator c

/-- behind a number of the given shape that `c` does not extend -/
def afterNumber (shape : Shape) (c : Char) : Move := afterComplete isIdentContinue shape c

/-- behind a word that `c` does not continue: only white space, operators and separators end a
word well -/
def afterWord (c : Char) : Move :=
  if isWhitespace c || isOperator c || isSeparator c then .close .word else .stay .malformed

/-- behind a backslash: a valid escape leads to `q` -/
def afterBackslash (q : State) (c : Char) : Move :=
  if isEscape c then .stay q else .stay .malformed

/-- the digits of a number in base two or sixteen, with underscores anywhere -/
def radixDigit (isRadixDigit : Char → Bool) (q : State) (c : Char) : Move :=
  if isRadixDigit c || c == '_' then .stay q
  else if isLongSuffix c then .stay .longInt
  else if c = 'f' ∨ c = 'F' then .stay .suffixed
  else afterNumber .int c

/-- behind a point that begins a text -/
def afterPoint (c : Char) : Move :=
  if isDigit c then .stay .fraction
  else if c = '.' then .stay .dotDot
  else .close .separator

/-- behind a symbol that is complete when it is doubled -/
def doubledOrAssign (symbol c : Char) : Move :=
  if c = symbol then .done .operator
  else if c = '=' then .stay .assignment
  else afterOperator c

/-- behind a symbol that may still be extended when it is doubled -/
def increment (symbol c : Char) : Move :=
  if c = symbol then .stay .extensible
  else if c = '=' then .stay .assignment
  else afterOperator c

/-- what the character `c` does to a text that is open in the given state -/
def move : State → Char → Move
  | .idle, c => .join (start c)
  | .malformed, _ => .close .error
  | .blank, c => if isWhitespace c then .stay .blank else .close .whitespace
  | .word, c => if isIdentContinue c then .stay .word else afterWord c
  -- numbers
  | .zero, c =>
    if c = 'b' ∨ c = 'B' then .stay .binary
    else if c = 'x' ∨ c = 'X' then .stay .hex
    else if c = '.' then .stay .fraction
    else if isLongSuffix c then .stay .longInt
    else afterNumber .int c
  | .decimal, c =>
    if isDigit c then .stay .decimal
    else if c = '.' then .stay .fraction
    else if isLongSuffix c then .stay .longInt
    else if c = 'f' ∨ c = 'F' then .stay .suffixed
    else afterNumber .int c
  | .binary, c => radixDigit isBinaryDigit .binary c
  | .hex, c => radixDigit isHexDigit .hex c
  | .longInt, c => afterNumber .int c
  | .suffixed, c => afterNumber .float c
  | .fraction, c =>
    if isDigit c then .stay .fraction
    else if isFloatSuffix c then .stay .suffixed
    else if c = '.' then .stay .malformed
    else afterNumber .float c
  -- character and string literals
  | .charOpen, c =>
    if c = '\\' then .stay .charEscape
    else if isLineBreak c then .close .error
    else .stay .charFull
  | .charEscape, c => afterBackslash .charFull c
  | .charFull, c => if c = '\'' then .done .char else .stay .malformed
  | .string, c =>
    if c = '"' then .done .string
    else if c = '\\' then .stay .stringEscape
    else .stay .string
  | .stringEscape, c => afterBackslash .string c
  -- points
  | .dot, c => afterPoint c
  | .dotDot, c => if c = '.' then .done .separator else .split (afterPoint c)
  -- operators
  | .slash, c =>
    if c = '/' then .stay .lineComment
    else if c = '*' then .stay .blockComment
    else if c = '=' then .stay .assignment
    else afterOperator c
  | .greater, c =>
    if c = '=' then .done .operator
    else if c = '>' then .stay .greaterGreater
    else afterOperator c
  | .greaterGreater, c =>
    if c = '>' then .stay .extensible
    else if c = '=' then .stay .assignment
    else afterOperator c
  | .less, c =>
    if c = '=' ∨ c = '>' then .done .operator
    else if c = '<' then .stay .extensible
    else afterOperator c
  | .ampersand, c => doubledOrAssign '&' c
  | .bar, c => doubledOrAssign '|' c
  | .plus, c => increment '+' c
  | .minus, c => increment '-' c
  | .colon, c => if c = ':' then .done .separator else afterOperator c
  | .extensible, c => if c = '=' then .stay .assignment else afterOperator c
  | .assignment, c => afterOperator c
  -- comments
  | .lineComment, c => if isLineBreak c then .close .comment else .stay .lineComment
  | .blockComment, c => if c = '*' then .stay .blockStar else .stay .blockComment
  | .blockStar, c =>
    if c = '/' then .done .comment
    else if c = '*' then .stay .blockStar
    else .stay .blockComment

end CurlyLex
