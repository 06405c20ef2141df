import CurlyLex.Scanner.Basic
import CurlyLex.Vocabulary.Basic

/-!
# Scanning with a vocabulary

A vocabulary makes tokens of pieces; only the kind of a word depends on it.

* `Vocabulary.token`    a piece as a token, `Vocabulary.tokens` a list of pieces;
* `scan`                the tokens of a source text, `textOf_tokens`: they cover what the pieces
                        cover.

A session is a scanner in use: it has a vocabulary, and it keeps the tokens that it has emitted
until they are drained.  Whoever drives it feeds it text, looks at it, drains it, and finishes the
input, in any order and any number of times.

* `Session`   scanner, vocabulary, tokens not yet drained;
* `Session.Operation`, `Session.Reply`   what can be asked of a session, and the answers;
* `Session.perform`   one operation, `performAll` a list of them.

To finish closes the open token and hands out all that is left; what follows is a new input.
-/

namespace CurlyLex

namespace Vocabulary

/-- the kind of a piece -/
def kindOfPiece (v : Vocabulary) (p : Piece) : Kind :=
  match p.shape with
  | .word => v.kindOf p.text
  | shape => shape.kind

/-- a piece as a token of the same text -/
def token (v : Vocabulary) (p : Piece) : Token := ⟨v.kindOfPiece p, p.text⟩

def tokens (v : Vocabulary) (ps : List Piece) : List Token := ps.map v.token

theorem tokens_append (v : Vocabulary) (a b : List Piece) :
    v.tokens (a ++ b) = v.tokens a ++ v.tokens b := List.map_append

theorem textOf_tokens (v : Vocabulary) (ps : List Piece) : textOf (v.tokens ps) = cutText ps := by
  induction ps with
  | nil => rfl
  | cons p ps ih =>
    show p.text ++ textOf (v.tokens ps) = p.text ++ cutText ps
    rw [ih]

end Vocabulary

/-- the tokens of a source text -/
def scan (v : Vocabulary) (text : Text) : List Token := v.tokens (cut text)

theorem scan_eq (v : Vocabulary) (text : Text) : scan v text = (cut text).map v.token := rfl

/-! ## sessions -/

structure Session where
  vocabulary : Vocabulary
  scanner : Scanner
  /-- the tokens not yet drained, latest first -/
  ready : List Token

namespace Session

/-- a session at the start of its input -/
def new (v : Vocabulary) : Session := ⟨v, .fresh, []⟩

/-- the tokens not yet drained -/
def tokens (s : Session) : List Token := s.ready.reverse

/-- the session behind one more character, and the tokens that the character completes -/
def feed (s : Session) (c : Char) : List Token × Session :=
  let (ps, scanner) := s.scanner.feed c
  let ts := s.vocabulary.tokens ps
  (ts, { s with scanner, ready := ts.reverse ++ s.ready })

/-- hands out the tokens not yet drained; the open text stays -/
def drain (s : Session) : List Token × Session := (s.tokens, { s with ready := [] })

/-- the tokens not yet drained, with the open one closed -/
def finish (s : Session) : List Token := s.tokens ++ s.vocabulary.tokens s.scanner.close

/-! ## operations as data -/

inductive Operation where
  | feed (text : Text)
  | drain
  | tokens
  | peek
  | finish
  deriving Repr

/-- what one character does to a session: the state and the open text behind it, and the tokens
that it completes -/
structure Effect where
  state : State
  buffered : Text
  emitted : List Token
  deriving DecidableEq, Repr

inductive Reply where
  | fed (effects : List Effect)
  | drained (tokens : List Token)
  | tokens (tokens : List Token)
  | peeked (state : State) (buffered : Text)
  | finished (tokens : List Token)
  deriving DecidableEq, Repr

/-- feeds a text; `done` holds the effects so far, latest first -/
def feedFrom (done : List Effect) (s : Session) : Text → List Effect × Session
  | [] => (done.reverse, s)
  | c :: cs =>
    let (ts, s') := s.feed c
    feedFrom (⟨s'.scanner.state, s'.scanner.buffered, ts⟩ :: done) s' cs

def perform (s : Session) : Operation → Reply × Session
  | .feed text =>
    let (effects, s') := feedFrom [] s text
    (.fed effects, s')
  | .drain =>
    let (ts, s') := s.drain
    (.drained ts, s')
  | .tokens => (.tokens s.tokens, s)
  | .peek => (.peeked s.scanner.state s.scanner.buffered, s)
  | .finish => (.finished s.finish, new s.vocabulary)

/-- the replies to a list of operations -/
def performAll (s : Session) : List Operation → List Reply
  | [] => []
  | o :: os =>
    let (r, s') := s.perform o
    r :: performAll s' os

end Session

end CurlyLex
