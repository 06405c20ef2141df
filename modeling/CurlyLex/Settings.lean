import CurlyLex.Files.Basic
import CurlyLex.Text.Utf8
import CurlyLex.Vocabulary.WordList

/-!
# Settings

The vocabulary of a run is an input to it.  Each part has a default, and may be set on its own.

* `Settings`            a word list in a file, the spelling of the null literal, those of the
                        booleans;
* `SettingsError`       what may be wrong with them, with the wording of each cause;
* `isIdentifier`        does a spelling have the form of a word?  No other is ever looked up;
* `Settings.vocabulary` the vocabulary that the settings describe.  The word list is read first,
                        then the spellings are checked: null, true, false.
-/

namespace CurlyLex

structure Settings where
  /-- the path of a word list, instead of the built-in reserved words -/
  wordList : Option Text
  null : Option Text
  /-- the spellings of true and of false -/
  booleans : Option (Text × Text)
  deriving DecidableEq, Repr

namespace Settings

/-- nothing is set -/
def default : Settings := ⟨none, none, none⟩

end Settings

/-- the literals whose spelling can be set -/
inductive Literal where
  | null
  | boolean
  deriving DecidableEq, Repr

inductive SettingsError where
  | unreadable (path : Text) (fault : Fault)
  /-- the word list is no text -/
  | encoding (path : Text)
  | noWords (path : Text)
  | badSpelling (literal : Literal) (spelling : Text)
  deriving DecidableEq, Repr

namespace Literal

def name : Literal → String
  | .null => "null"
  | .boolean => "boolean"

end Literal

namespace SettingsError

def message : SettingsError → String
  | .unreadable path fault =>
    s!"cannot read keyword list '{String.ofList path}': {fault.message}"
  | .encoding path =>
    s!"cannot read keyword list '{String.ofList path}': stream did not contain valid UTF-8"
  | .noWords path => s!"keyword list '{String.ofList path}' contains no words"
  | .badSpelling literal spelling =>
    s!"invalid {literal.name} spelling '{String.ofList spelling}': expected a single identifier"

end SettingsError

/-- has the text the form of a word? -/
def isIdentifier : Text → Bool
  | [] => false
  | c :: cs => isIdentStart c && cs.all isIdentContinue

namespace Settings

/-- the text of a word list -/
def readWordList (files : Files) (path : Text) : Except SettingsError Text :=
  match files path with
  | .unopened fault => .error (.unreadable path fault)
  | .unread fault => .error (.unreadable path fault)
  | .bytes bytes =>
    match Utf8.decode bytes with
    | some text => .ok text
    | none => .error (.encoding path)

/-- the reserved words, still with the usual literals -/
def baseVocabulary (s : Settings) (files : Files) : Except SettingsError Vocabulary :=
  match s.wordList with
  | none => .ok .builtIn
  | some path => do
    let text ← readWordList files path
    let v := Vocabulary.parse text
    if v.words.isEmpty then .error (.noWords path) else .ok v

def checkSpelling (literal : Literal) (spelling : Text) : Except SettingsError Unit :=
  if isIdentifier spelling then .ok () else .error (.badSpelling literal spelling)

/-- sets the null literal, if its spelling is given and fit -/
def setNull (s : Settings) (v : Vocabulary) : Except SettingsError Vocabulary :=
  match s.null with
  | none => .ok v
  | some spelling => do
    checkSpelling .null spelling
    return v.withNull spelling

/-- sets the booleans, if their spellings are given and fit -/
def setBooleans (s : Settings) (v : Vocabulary) : Except SettingsError Vocabulary :=
  match s.booleans with
  | none => .ok v
  | some (truthy, falsy) => do
    checkSpelling .boolean truthy
    checkSpelling .boolean falsy
    return v.withBooleans truthy falsy

/-- the vocabulary that the settings describe -/
def vocabulary (s : Settings) (files : Files) : Except SettingsError Vocabulary := do
  let v ← s.baseVocabulary files
  let v ← s.setNull v
  s.setBooleans v

theorem vocabulary_default (files : Files) : default.vocabulary files = .ok .builtIn := rfl

end Settings

end CurlyLex
