import CurlyLex.Proofs.Languages
import CurlyLex.Scanner.Session

/-!
# The token grammar

The languages of the language: what a token of each kind may be, said without the scanner.

* `spelled`                            texts that are spelled out one by one;
* `whitespace`, `word`                 white space and words;
* `zero`, `decimal`, `binary`, `hex`   integers without a suffix, together `digits`; `int` all
                                       integers;
* `fraction`                           numbers with a point and no suffix, `float` all floats;
* `charContent`, `stringContent`       literals up to their closing quote, `char` and `string` with
                                       it;
* `lineComment`, `blockComment`        the two forms of a `comment`;
* `separator`, `operator`              the eleven separators and the forty operators, one by one;
* `Shape.language`                     the language of a shape; no text is an error by rule;
* `Vocabulary.language`                the language of a kind: of the words, those of that kind.

Each language has a lemma `concat_mem_…` that tells which texts stand in it before a last
character.  A block comment that is still open is a text of `opened blockText`, or of
`opened blockStarred` if a star comes last.
-/

open scoped Computability

namespace CurlyLex

namespace Grammar

/-- the texts that are spelled out -/
def spelled (spellings : List String) : Language Char := {t | t ∈ spellings.map String.toList}

theorem mem_spelled (spellings : List String) (t : Text) :
    t ∈ spelled spellings ↔ t ∈ spellings.map String.toList := Iff.rfl

instance (spellings : List String) (t : Text) : Decidable (t ∈ spelled spellings) :=
  inferInstanceAs (Decidable (t ∈ spellings.map String.toList))

/-! ## white space and words -/

def whitespace : Language Char := oneOf isWhitespace * many isWhitespace

def word : Language Char := oneOf isIdentStart * many isIdentContinue

/-! ## numbers -/

def zero : Language Char := spelled ["0"]

/-- digits that begin with another than `0` -/
def decimal : Language Char := oneOf (fun c => isDigit c && c != '0') * many isDigit

/-- digits of base two, with underscores anywhere -/
def binary : Language Char :=
  zero * oneOf (['b', 'B'].contains ·) * many (fun c => isBinaryDigit c || c == '_')

/-- digits of base sixteen, with underscores anywhere -/
def hex : Language Char :=
  zero * oneOf (['x', 'X'].contains ·) * many (fun c => isHexDigit c || c == '_')

/-- an integer without a suffix -/
def digits : Language Char := zero + decimal + binary + hex

def int : Language Char := digits * (1 + oneOf isLongSuffix)

/-- a number with a point: digits before it, or behind it, or on both sides -/
def fraction : Language Char :=
  (zero + decimal) * just '.' * many isDigit + just '.' * oneOf isDigit * many isDigit

/-- the suffixes that make a float of a number without a point -/
def isShortSuffix (c : Char) : Bool := ['f', 'F'].contains c

/-- a number without a point is a float if it has the suffix of one; in base sixteen that suffix
would be a digit -/
def float : Language Char :=
  fraction * (1 + oneOf isFloatSuffix) + (decimal + binary) * oneOf isShortSuffix

/-! ## literals -/

/-- all but the closing quote of a character literal: a character that ends no line, which may be
a quote, or an escape -/
def charContent : Language Char :=
  just '\'' * oneOf (fun c => c != '\\' && !isLineBreak c) + just '\'' * just '\\' * oneOf isEscape

def char : Language Char := charContent * just '\''

/-- all but the closing quote of a string literal -/
def stringContent : Language Char :=
  just '"' * (oneOf (fun c => c != '"' && c != '\\') + just '\\' * oneOf isEscape)∗

def string : Language Char := stringContent * just '"'

/-! ## comments -/

def lineComment : Language Char := just '/' * just '/' * many (fun c => !isLineBreak c)

/-- the end of a block comment -/
def blockEnd : Text := ['*', '/']

/-- what follows the opening of a block comment: it ends at the first end of one -/
def blockBody : Language Char := {t | blockEnd <:+ t ∧ ¬ blockEnd <:+: t.dropLast}

/-- the opening of a block comment and what follows it -/
def opened (m : Language Char) : Language Char := just '/' * just '*' * m

def blockComment : Language Char := opened blockBody

def comment : Language Char := lineComment + blockComment

/-! ## separators and operators -/

def separators : List String :=
  ["(", ")", .ofList ['{'], .ofList ['}'], "[", "]", ";", ",", ".", "...", "::"]

def separator : Language Char := spelled separators

def operators : List String :=
  ["+", "-", "*", "/", "%", "^", "!", "=", "<", ">", "&", "|", "?", "~", ":", "++", "--", "++=",
   "--=", "+=", "-=", "*=", "/=", "%=", "^=", "!=", "==", "<=", "<>", "<<", "<<=", ">=", ">>",
   ">>=", ">>>", ">>>=", "&&", "&=", "||", "|="]

def operator : Language Char := spelled operators

/-! ## the last character -/

section
variable (b : Text) (c : Char)

theorem concat_mem_whitespace :
    b ++ [c] ∈ whitespace ↔ (b = [] ∨ b ∈ whitespace) ∧ isWhitespace c = true := by
  rw [whitespace, concat_mem_mul_many, concat_mem_oneOf, ← or_and_right]

theorem concat_mem_word :
    b ++ [c] ∈ word ↔ b = [] ∧ isIdentStart c = true ∨ b ∈ word ∧ isIdentContinue c = true := by
  rw [word, concat_mem_mul_many, concat_mem_oneOf]

theorem concat_mem_decimal :
    b ++ [c] ∈ decimal ↔ (b = [] ∧ c ≠ '0' ∨ b ∈ decimal) ∧ isDigit c = true := by
  rw [decimal, concat_mem_mul_many, concat_mem_oneOf, Bool.and_eq_true, bne_iff_ne]
  tauto

theorem concat_mem_binary :
    b ++ [c] ∈ binary ↔
      b ∈ zero ∧ (c = 'b' ∨ c = 'B') ∨ b ∈ binary ∧ (isBinaryDigit c || c == '_') = true := by
  rw [binary, concat_mem_mul_many, concat_mem_mul_oneOf]
  simp

theorem concat_mem_hex :
    b ++ [c] ∈ hex ↔
      b ∈ zero ∧ (c = 'x' ∨ c = 'X') ∨ b ∈ hex ∧ (isHexDigit c || c == '_') = true := by
  rw [hex, concat_mem_mul_many, concat_mem_mul_oneOf]
  simp

theorem concat_mem_fraction :
    b ++ [c] ∈ fraction ↔
      (b ∈ zero ∨ b ∈ decimal) ∧ c = '.' ∨ (b = ['.'] ∨ b ∈ fraction) ∧ isDigit c = true := by
  rw [fraction, concat_mem_add, concat_mem_mul_many, concat_mem_mul_many, concat_mem_mul_just,
    concat_mem_mul_oneOf, Language.mem_add, Language.mem_add, mem_just]
  tauto

theorem concat_mem_charContent :
    b ++ [c] ∈ charContent ↔
      b = ['\''] ∧ c ≠ '\\' ∧ isLineBreak c = false ∨ b = ['\'', '\\'] ∧ isEscape c = true := by
  rw [charContent, concat_mem_add, concat_mem_mul_oneOf, concat_mem_mul_oneOf, mem_just,
    mem_just_mul_just]
  simp

theorem stringContent_eq :
    stringContent = just '"' + stringContent * oneOf (fun c => c != '"' && c != '\\') +
      stringContent * just '\\' * oneOf isEscape := by
  have h := mul_kstar_eq (just '"')
    (oneOf (fun c => c != '"' && c != '\\') + just '\\' * oneOf isEscape)
  rw [mul_add, ← mul_assoc, ← add_assoc] at h
  exact h

theorem concat_mem_stringContent :
    b ++ [c] ∈ stringContent ↔ b = [] ∧ c = '"' ∨ b ∈ stringContent ∧ c ≠ '"' ∧ c ≠ '\\' ∨
      b ∈ stringContent * just '\\' ∧ isEscape c = true := by
  rw [stringContent_eq, concat_mem_add, concat_mem_add, concat_mem_just, concat_mem_mul_oneOf,
    concat_mem_mul_oneOf, ← stringContent_eq]
  simp [or_assoc]

theorem concat_mem_lineComment :
    b ++ [c] ∈ lineComment ↔ b = ['/'] ∧ c = '/' ∨ b ∈ lineComment ∧ isLineBreak c = false := by
  rw [lineComment, concat_mem_mul_many, concat_mem_mul_just, mem_just, Bool.not_eq_true']

end

/-! ## block comments, character by character -/

/-- what follows the opening of a block comment, without its end and without a star at last -/
def blockText : Language Char := {t | ¬ blockEnd <:+: t ∧ t.getLast? ≠ some '*'}

/-- what follows the opening of a block comment, without its end but with a star at last -/
def blockStarred : Language Char := {t | ¬ blockEnd <:+: t ∧ t.getLast? = some '*'}

theorem mem_opened (m : Language Char) (t : Text) :
    t ∈ opened m ↔ ∃ y ∈ m, ['/', '*'] ++ y = t := by
  rw [opened, Language.mem_mul]
  simp only [mem_just_mul_just, exists_eq_left]

section
variable (b : Text) (c : Char)

theorem concat_mem_opened (m : Language Char) :
    b ++ [c] ∈ opened m ↔
      b = ['/'] ∧ c = '*' ∧ [] ∈ m ∨ ∃ y, y ++ [c] ∈ m ∧ ['/', '*'] ++ y = b := by
  rw [opened, concat_mem_mul, concat_mem_mul_just, mem_just, and_assoc]
  simp only [mem_just_mul_just, exists_eq_left]

theorem blockEnd_suffix_concat : blockEnd <:+ b ++ [c] ↔ b.getLast? = some '*' ∧ c = '/' := by
  rw [← List.singleton_suffix_iff_getLast?_eq_some]
  refine ⟨?_, ?_⟩
  · intro ht
    obtain ⟨x, hx⟩ := ht
    have he : x ++ ['*'] ++ ['/'] = b ++ [c] := by simpa [blockEnd] using hx
    obtain ⟨rfl, hc⟩ := List.append_inj' he rfl
    exact ⟨List.suffix_append x ['*'], by simpa using hc.symm⟩
  · intro hx
    obtain ⟨⟨x, rfl⟩, rfl⟩ := hx
    exact ⟨x, by simp [blockEnd]⟩

theorem blockEnd_infix_concat :
    blockEnd <:+: b ++ [c] ↔ (b.getLast? = some '*' ∧ c = '/') ∨ blockEnd <:+: b := by
  rw [List.infix_concat_iff, blockEnd_suffix_concat]

theorem concat_mem_blockText :
    b ++ [c] ∈ blockText ↔ (b ∈ blockText ∨ b ∈ blockStarred ∧ c ≠ '/') ∧ c ≠ '*' := by
  show ¬ blockEnd <:+: b ++ [c] ∧ (b ++ [c]).getLast? ≠ some '*' ↔
    ((¬ blockEnd <:+: b ∧ b.getLast? ≠ some '*') ∨
      (¬ blockEnd <:+: b ∧ b.getLast? = some '*') ∧ c ≠ '/') ∧ c ≠ '*'
  rw [blockEnd_infix_concat, List.getLast?_concat, Ne, Option.some_inj]
  tauto

theorem concat_mem_blockStarred :
    b ++ [c] ∈ blockStarred ↔ (b ∈ blockText ∨ b ∈ blockStarred) ∧ c = '*' := by
  show ¬ blockEnd <:+: b ++ [c] ∧ (b ++ [c]).getLast? = some '*' ↔
    ((¬ blockEnd <:+: b ∧ b.getLast? ≠ some '*') ∨
      (¬ blockEnd <:+: b ∧ b.getLast? = some '*')) ∧ c = '*'
  rw [blockEnd_infix_concat, List.getLast?_concat, Option.some_inj]
  refine ⟨?_, ?_⟩
  · tauto
  · intro hx
    obtain ⟨h, rfl⟩ := hx
    have hc : ('*' : Char) ≠ '/' := by decide
    tauto

theorem concat_mem_blockBody : b ++ [c] ∈ blockBody ↔ b ∈ blockStarred ∧ c = '/' := by
  show blockEnd <:+ b ++ [c] ∧ ¬ blockEnd <:+: (b ++ [c]).dropLast ↔
    (¬ blockEnd <:+: b ∧ b.getLast? = some '*') ∧ c = '/'
  rw [blockEnd_suffix_concat, List.dropLast_concat]
  tauto

theorem concat_mem_opened_blockText :
    b ++ [c] ∈ opened blockText ↔ b = ['/'] ∧ c = '*' ∨
      (b ∈ opened blockText ∨ b ∈ opened blockStarred ∧ c ≠ '/') ∧ c ≠ '*' := by
  have hn : [] ∈ blockText := ⟨by simp [blockEnd], by simp⟩
  rw [concat_mem_opened, mem_opened, mem_opened]
  simp only [concat_mem_blockText]
  refine ⟨?_, ?_⟩
  · intro hx
    rcases hx with ⟨hb, hc, _⟩ | ⟨y, ⟨hy | ⟨hy, hs⟩, hc⟩, rfl⟩
    · exact Or.inl ⟨hb, hc⟩
    · exact Or.inr ⟨Or.inl ⟨y, hy, rfl⟩, hc⟩
    · exact Or.inr ⟨Or.inr ⟨⟨y, hy, rfl⟩, hs⟩, hc⟩
  · intro hx
    rcases hx with ⟨hb, hc⟩ | ⟨⟨y, hy, rfl⟩ | ⟨⟨y, hy, rfl⟩, hs⟩, hc⟩
    · exact Or.inl ⟨hb, hc, hn⟩
    · exact Or.inr ⟨y, ⟨Or.inl hy, hc⟩, rfl⟩
    · exact Or.inr ⟨y, ⟨Or.inr ⟨hy, hs⟩, hc⟩, rfl⟩

theorem concat_mem_opened_blockStarred :
    b ++ [c] ∈ opened blockStarred ↔
      (b ∈ opened blockText ∨ b ∈ opened blockStarred) ∧ c = '*' := by
  rw [concat_mem_opened, mem_opened, mem_opened]
  simp only [concat_mem_blockStarred]
  refine ⟨?_, ?_⟩
  · intro hx
    rcases hx with ⟨_, _, h⟩ | ⟨y, ⟨hy | hy, hc⟩, rfl⟩
    · exact absurd h.2 (by simp)
    · exact ⟨Or.inl ⟨y, hy, rfl⟩, hc⟩
    · exact ⟨Or.inr ⟨y, hy, rfl⟩, hc⟩
  · intro hx
    obtain ⟨⟨y, hy, rfl⟩ | ⟨y, hy, rfl⟩, hc⟩ := hx
    · exact Or.inr ⟨y, ⟨Or.inl hy, hc⟩, rfl⟩
    · exact Or.inr ⟨y, ⟨Or.inr hy, hc⟩, rfl⟩

theorem concat_mem_blockComment :
    b ++ [c] ∈ blockComment ↔ b ∈ opened blockStarred ∧ c = '/' := by
  rw [blockComment, concat_mem_opened, mem_opened]
  simp only [concat_mem_blockBody]
  refine ⟨?_, ?_⟩
  · intro hx
    rcases hx with ⟨_, _, h⟩ | ⟨y, ⟨hy, hc⟩, rfl⟩
    · exact absurd h.1 (by simp [blockEnd])
    · exact ⟨⟨y, hy, rfl⟩, hc⟩
  · intro hx
    obtain ⟨⟨y, hy, rfl⟩, hc⟩ := hx
    exact Or.inr ⟨y, ⟨hy, hc⟩, rfl⟩

end

end Grammar

/-- the texts of a shape -/
def Shape.language : Shape → Language Char
  | .word => Grammar.word
  | .comment => Grammar.comment
  | .whitespace => Grammar.whitespace
  | .operator => Grammar.operator
  | .separator => Grammar.separator
  | .int => Grammar.int
  | .float => Grammar.float
  | .char => Grammar.char
  | .string => Grammar.string
  | .error => 0

/-- the texts of a kind -/
def Vocabulary.language (v : Vocabulary) : Kind → Language Char
  | .comment => Grammar.comment
  | .whitespace => Grammar.whitespace
  | .operator => Grammar.operator
  | .separator => Grammar.separator
  | .int => Grammar.int
  | .float => Grammar.float
  | .char => Grammar.char
  | .string => Grammar.string
  | .error => 0
  | k => {t | t ∈ Grammar.word ∧ v.kindOf t = k}

end CurlyLex
