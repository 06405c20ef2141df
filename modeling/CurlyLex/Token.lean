import CurlyLex.Text.Basic

/-!
# Tokens

A token is a stretch of the source text together with its kind.  Every stretch that follows no
rule of the language is a token too, of kind `error`.

* `Kind`    the thirteen kinds, with the names under which they are printed;
* `Token`   kind and lexeme; the lexeme is the source text itself, line breaks included;
* `textOf`  the text that a list of tokens covers.
-/

namespace CurlyLex

inductive Kind where
  | comment
  | whitespace
  | identifier
  | operator
  | separator
  | int
  | float
  | char
  | string
  | boolean
  | null
  | keyword
  | error
  deriving DecidableEq, Repr

namespace Kind

/-- all kinds, in the order in which they are counted and listed -/
def all : List Kind :=
  [.comment, .whitespace, .identifier, .operator, .separator, .int, .float, .char, .string,
   .boolean, .null, .keyword, .error]

theorem mem_all (k : Kind) : k ∈ all := by cases k <;> decide

def name : Kind → String
  | .comment => "COMMENT"
  | .whitespace => "WHITESPACE"
  | .identifier => "IDENTIFIER"
  | .operator => "OPERATOR"
  | .separator => "SEPARATOR"
  | .int => "INT"
  | .float => "FLOAT"
  | .char => "CHAR"
  | .string => "STRING"
  | .boolean => "BOOLEAN"
  | .null => "NULL"
  | .keyword => "KEYWORD"
  | .error => "ERROR"

/-- the kind with a given name -/
def ofName? (s : String) : Option Kind := all.find? fun k => k.name == s

theorem ofName?_name (k : Kind) : ofName? k.name = some k := by cases k <;> decide

/-- comments and white space mean nothing to a parser -/
def isTrivia : Kind → Bool
  | .comment | .whitespace => true
  | _ => false

end Kind

structure Token where
  kind : Kind
  lexeme : Text
  deriving DecidableEq, Repr

namespace Token

def isEmpty (t : Token) : Bool := t.lexeme.isEmpty

def isTrivia (t : Token) : Bool := t.kind.isTrivia

end Token

/-! ## the text of a token list -/

def textOf (ts : List Token) : Text := ts.flatMap Token.lexeme

theorem textOf_nil : textOf [] = [] := rfl
theorem textOf_append (a b : List Token) : textOf (a ++ b) = textOf a ++ textOf b := by
  simp [textOf, List.flatMap_append]

end CurlyLex
