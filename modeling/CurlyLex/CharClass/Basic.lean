import CurlyLex.Unicode.IdentifierContinue

/-!
# Classes of characters

All that the scanner ever asks of a character, apart from comparing it with a fixed one.

* `isSeparator`, `isOperator`    punctuation;
* `isBinaryDigit`, `isHexDigit`, `isDigit`, `isFloatSuffix`, `isLongSuffix`   parts of numbers,
                                 ASCII only;
* `isWhitespace`, `isLineBreak`  white space, and that part of it which ends a line comment;
* `isIdentStart`, `isIdentContinue`   identifiers: Unicode's, with the underscore and the currency
                                 symbols added at the start;
* `isEscape`                     what may follow a backslash in a literal.
-/

namespace CurlyLex

/-! ## punctuation -/

def isSeparator (c : Char) : Bool :=
  ['(', ')', '{', '}', '[', ']', ';', ',', '.'].contains c

/-- the symbols that operators are made of -/
def isOperator (c : Char) : Bool :=
  ['=', '>', '<', '!', '~', ':', '?', '&', '|', '+', '-', '*', '/', '^', '%'].contains c

/-! ## numbers -/

def isBinaryDigit (c : Char) : Bool := ['0', '1'].contains c

def isDigit (c : Char) : Bool := decide ('0' ≤ c) && decide (c ≤ '9')

def isHexDigit (c : Char) : Bool :=
  isDigit c || (decide ('a' ≤ c) && decide (c ≤ 'f')) || (decide ('A' ≤ c) && decide (c ≤ 'F'))

/-- the suffixes of a number with a point -/
def isFloatSuffix (c : Char) : Bool := ['f', 'F', 'd', 'D'].contains c

/-- the suffixes of a long integer -/
def isLongSuffix (c : Char) : Bool := ['l', 'L'].contains c

/-! ## white space -/

def isWhitespace (c : Char) : Bool := Unicode.whiteSpace c

/-- white space other than the space and the tab -/
def isLineBreak (c : Char) : Bool := c != ' ' && c != '\t' && isWhitespace c

theorem isWhitespace_of_isLineBreak (c : Char) (h : isLineBreak c = true) :
    isWhitespace c = true := by
  rw [isLineBreak, Bool.and_eq_true] at h
  exact h.2

/-! ## identifiers and escapes -/

def isIdentStart (c : Char) : Bool := c == '_' || Unicode.currency c || Unicode.xidStart c

def isIdentContinue (c : Char) : Bool := Unicode.currency c || Unicode.xidContinue c

theorem isIdentContinue_of_isIdentStart (c : Char) (h : isIdentStart c = true) :
    isIdentContinue c = true := by
  simp only [isIdentStart, Bool.or_eq_true, beq_iff_eq] at h
  rcases h with (rfl | h) | h
  · decide +kernel
  · rw [isIdentContinue, h, Bool.true_or]
  · rw [isIdentContinue, Unicode.xidContinue_of_xidStart c h, Bool.or_true]

/-- may `c` follow a backslash in a character or string literal? -/
def isEscape (c : Char) : Bool := ['b', 't', 'n', 'f', 'r', '\\', '\'', '"'].contains c

end CurlyLex
