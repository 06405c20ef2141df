import CurlyLex.Token

/-!
# Listings

## Tokens as lines

A token is listed on one line of its own, `(KIND lexeme)`.  Line feeds and carriage returns of the
lexeme are written as `\n` and `\r`, in two characters each; all else stands as it is, also a
backslash.

* `escapeEach`         the characters of a text, one after the other, as they are written;
* `escapeLineBreaks`   the lexeme as it is written; `escapeLineBreaks_eq_escapeEach`: one that has
                       nothing to be escaped may be left alone;
* `Token.line`         the line of a token, without its line feed, and `Token.pieces`, the pieces in
                       which it is written;
* `listing`            the lines of a list of tokens.

## Counts

* `countOf`     how many tokens of a list have a given kind;
* `tallyLine`   a name and a number in two columns;
* `tally`       one line for each kind that occurs, in the order of the kinds;
* `summaryOf`   the tally, and a last line with the number of all tokens; `summaryPieces`, the
                pieces in which they are written.
-/

namespace CurlyLex

/-- a character as it is written in a listing -/
def escapeChar (c : Char) : Text :=
  if c = '\r' then ['\\', 'r'] else if c = '\n' then ['\\', 'n'] else [c]

def escapeEach (t : Text) : Text := t.flatMap escapeChar

/-- is the character written in another way than it is? -/
def isEscaped (c : Char) : Bool := c == '\r' || c == '\n'

def escapeLineBreaks (t : Text) : Text := if t.any isEscaped then escapeEach t else t

theorem escapeChar_of_isEscaped_eq_false {c : Char} (h : isEscaped c = false) :
    escapeChar c = [c] := by
  rw [isEscaped, Bool.or_eq_false_iff, beq_eq_false_iff_ne, beq_eq_false_iff_ne] at h
  rw [escapeChar, if_neg h.1, if_neg h.2]

theorem escapeEach_eq_self {t : Text} (h : t.any isEscaped = false) : escapeEach t = t := by
  induction t with
  | nil => rfl
  | cons c t ih =>
    rw [List.any_cons, Bool.or_eq_false_iff] at h
    show escapeChar c ++ escapeEach t = c :: t
    rw [escapeChar_of_isEscaped_eq_false h.1, ih h.2]
    rfl

theorem escapeLineBreaks_eq_escapeEach (t : Text) : escapeLineBreaks t = escapeEach t := by
  rw [escapeLineBreaks]
  split
  · rfl
  · next h => exact (escapeEach_eq_self (Bool.eq_false_iff.mpr h)).symm

theorem escapeLineBreaks_cons (c : Char) (t : Text) :
    escapeLineBreaks (c :: t) = escapeChar c ++ escapeLineBreaks t := by
  rw [escapeLineBreaks_eq_escapeEach, escapeLineBreaks_eq_escapeEach]
  rfl
theorem escapeLineBreaks_append (t u : Text) :
    escapeLineBreaks (t ++ u) = escapeLineBreaks t ++ escapeLineBreaks u := by
  simp [escapeLineBreaks_eq_escapeEach, escapeEach, List.flatMap_append]

namespace Token

/-- the line of a token, without its line feed -/
def line (t : Token) : Text :=
  ['('] ++ t.kind.name.toList ++ [' '] ++ escapeLineBreaks t.lexeme ++ [')']

/-- the line of a token and its line feed, in the pieces in which they are written -/
def pieces (t : Token) : List Text :=
  [['('], t.kind.name.toList, [' '], escapeLineBreaks t.lexeme, [')'], ['\n']]

theorem flatten_pieces (t : Token) : t.pieces.flatten = t.line ++ ['\n'] := by
  simp [pieces, line]

end Token

/-- the lines of a list of tokens, each with its line feed -/
def listing (ts : List Token) : Text := ts.flatMap fun t => t.line ++ ['\n']

theorem listing_nil : listing [] = [] := rfl
theorem listing_cons (t : Token) (ts : List Token) :
    listing (t :: ts) = t.line ++ ['\n'] ++ listing ts := rfl

/-! ## counts -/

def countOf (ts : List Token) (k : Kind) : Nat := ts.countP fun t => t.kind == k

/-- the width of the first column -/
def nameWidth : Nat := 12

/-- a name, filled up with spaces, and a number in decimal -/
def tallyLine (name : String) (n : Nat) : Text :=
  name.toList ++ List.replicate (nameWidth - name.length) ' ' ++ Nat.toDigits 10 n

/-- one line for each kind that occurs -/
def tally (ts : List Token) : Text :=
  Kind.all.flatMap fun k =>
    let n := countOf ts k
    if n = 0 then [] else tallyLine k.name n ++ ['\n']

/-- the tally, and the number of all tokens -/
def summaryOf (ts : List Token) : Text := tally ts ++ tallyLine "TOTAL" ts.length ++ ['\n']

/-- a row and its line feed, in the pieces in which they are written -/
def rowPieces (name : String) (n : Nat) : List Text :=
  name.toList :: List.replicate (nameWidth - name.length) [' '] ++ [Nat.toDigits 10 n, ['\n']]

theorem flatten_rowPieces (name : String) (n : Nat) :
    (rowPieces name n).flatten = tallyLine name n ++ ['\n'] := by
  simp [rowPieces, tallyLine]

def summaryPieces (ts : List Token) : List Text :=
  (Kind.all.flatMap fun k =>
    let n := countOf ts k
    if n = 0 then [] else rowPieces k.name n) ++ rowPieces "TOTAL" ts.length

theorem flatten_summaryPieces (ts : List Token) : (summaryPieces ts).flatten = summaryOf ts := by
  rw [summaryPieces, List.flatten_append, flatten_rowPieces, ← List.flatMap_id, List.flatMap_assoc,
    summaryOf, List.append_assoc, tally]
  congr 2
  funext k
  show List.flatMap id (if _ then _ else _) = if _ then _ else _
  split
  · rfl
  · rw [List.flatMap_id, flatten_rowPieces]

end CurlyLex
