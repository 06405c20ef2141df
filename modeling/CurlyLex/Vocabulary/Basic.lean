import CurlyLex.Token
import CurlyLex.Vocabulary.WordSet

/-!
# Vocabularies

A vocabulary says which words of the source are reserved and how the null literal and the two
boolean literals are spelled.  It decides the kind of a word, and nothing else: where a word
begins and ends does not depend on it.

* `Vocabulary.kindOf`   the kind of a word: the null spelling comes first, then the boolean
                        spellings, then the reserved words; all comparisons are exact;
* `withNull`, `withBooleans`   the same words with other spellings of the literals;
* `Vocabulary.builtIn`  the vocabulary when no word list is given.
-/

namespace CurlyLex

structure Vocabulary where
  /-- the reserved words -/
  words : WordSet
  null : Text
  /-- the spellings of true and of false -/
  booleans : Text × Text
  deriving DecidableEq

namespace Vocabulary

/-- the usual spelling of the null literal -/
def usualNull : Text := "null".toList

/-- the usual spellings of the boolean literals -/
def usualBooleans : Text × Text := ("true".toList, "false".toList)

/-- the vocabulary with the given reserved words and the usual literals -/
def ofWords (ws : List Text) : Vocabulary := ⟨WordSet.ofList ws, usualNull, usualBooleans⟩

def withNull (v : Vocabulary) (spelling : Text) : Vocabulary := { v with null := spelling }

def withBooleans (v : Vocabulary) (truthy falsy : Text) : Vocabulary :=
  { v with booleans := (truthy, falsy) }

def isReserved (v : Vocabulary) (word : Text) : Bool := v.words.contains word

/-- the kind of a word -/
def kindOf (v : Vocabulary) (word : Text) : Kind :=
  if word = v.null then .null
  else if word = v.booleans.1 ∨ word = v.booleans.2 then .boolean
  else if v.isReserved word then .keyword
  else .identifier

/-- the kinds that a vocabulary chooses from -/
def wordKinds : List Kind := [.identifier, .boolean, .null, .keyword]

theorem kindOf_mem_wordKinds (v : Vocabulary) (word : Text) : v.kindOf word ∈ wordKinds := by
  rw [kindOf]
  split
  · decide
  · split
    · decide
    · split <;> decide

theorem kindOf_null (v : Vocabulary) : v.kindOf v.null = .null := by rw [kindOf, if_pos rfl]

/-! ## the built-in vocabulary -/

/-- the reserved words when no word list is given, in alphabetical order; the literals are none of
them -/
def reservedWords : List String :=
  ["abstract", "as", "base", "bool", "break", "byte", "case", "catch", "char", "checked", "class",
   "const", "continue", "decimal", "default", "delegate", "do", "double", "else", "enum", "event",
   "explicit", "extern", "finally", "fixed", "float", "for", "foreach", "goto", "if", "implicit",
   "in", "int", "interface", "internal", "is", "lock", "long", "namespace", "new", "object",
   "operator", "out", "override", "params", "private", "protected", "public", "readonly", "ref",
   "return", "sbyte", "sealed", "short", "sizeof", "stackalloc", "static", "string", "struct",
   "switch", "this", "throw", "try", "typeof", "uint", "ulong", "unchecked", "unsafe", "ushort",
   "using", "virtual", "void", "volatile", "while"]

theorem pairwise_reservedWords : (reservedWords.map String.toList).Pairwise (· < ·) := by
  decide +kernel

/-- the reserved words above, with the usual literals -/
def builtIn : Vocabulary :=
  ⟨⟨reservedWords.map String.toList, pairwise_reservedWords⟩, usualNull, usualBooleans⟩

end Vocabulary

end CurlyLex
