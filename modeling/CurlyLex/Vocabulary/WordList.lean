import CurlyLex.CharClass.Basic
import CurlyLex.Vocabulary.Basic

/-!
# Word lists

The text form of a set of reserved words: words apart by white space, on any number of lines,
where two slashes begin a comment that runs to the end of its line.  A line ends at a line feed.
A carriage return is white space like any other, so a line may also end in both.

* `beforeComment`   a line up to its first two slashes;
* `lineWords`       the words of one line;
* `wordsOf`         the words of a text, in the order in which they stand; `wordsOf_append`: those
                    of the lines above a line feed, then those of the lines below it;
* `Vocabulary.parse`   the vocabulary of a word list;
* `Vocabulary.print`   a vocabulary as a word list: first the literals, in comments, then the
                       reserved words in rising order, one on each line.
-/

namespace CurlyLex

/-- the part of a line before the first two slashes -/
def beforeComment : Text → Text
  | [] => []
  | [c] => [c]
  | c :: d :: r => if c = '/' ∧ d = '/' then [] else c :: beforeComment (d :: r)

/-- the words of a line: what is left between white space, as far as it is not empty -/
def lineWords (line : Text) : List Text :=
  ((beforeComment line).splitOnP isWhitespace).filter fun w => !w.isEmpty

def wordsOf (text : Text) : List Text := (text.splitOn '\n').flatMap lineWords

theorem wordsOf_append (a b : Text) : wordsOf (a ++ '\n' :: b) = wordsOf a ++ wordsOf b := by
  have h : (a ++ '\n' :: b).splitOn '\n' = a.splitOn '\n' ++ b.splitOn '\n' :=
    List.splitOnP_append_cons a b (by decide)
  rw [wordsOf, h, List.flatMap_append]
  rfl

namespace Vocabulary

/-- the vocabulary of a word list, with the usual literals -/
def parse (text : Text) : Vocabulary := ofWords (wordsOf text)

/-- the literals in two comment lines, then the reserved words in rising order -/
def print (v : Vocabulary) : Text :=
  "// null: ".toList ++ v.null ++ ['\n'] ++
  "// booleans: ".toList ++ v.booleans.1 ++ [' '] ++ v.booleans.2 ++ ['\n'] ++
  v.words.toList.flatMap fun w => w ++ ['\n']

end Vocabulary

end CurlyLex
