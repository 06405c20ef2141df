import CurlyLex.Text.Basic

/-!
# Files

What the program sees of the files around it: for every path, whether it opens, whether it can be
read, and its bytes.

* `Fault`    why a path cannot be opened or read, with the wording of each cause;
* `Access`   the outcome of opening and reading a path;
* `Files`    the outcome for every path.
-/

namespace CurlyLex

inductive Fault where
  | notFound
  | permissionDenied
  | notDirectory
  | isDirectory
  | nameTooLong
  /-- the path contains the character with the number zero -/
  | zeroInPath
  | other (message : String)
  deriving DecidableEq, Repr

namespace Fault

def message : Fault → String
  | .notFound => "No such file or directory (os error 2)"
  | .permissionDenied => "Permission denied (os error 13)"
  | .notDirectory => "Not a directory (os error 20)"
  | .isDirectory => "Is a directory (os error 21)"
  | .nameTooLong => "File name too long (os error 36)"
  | .zeroInPath => "file name contained an unexpected NUL byte"
  | .other message => message

end Fault

inductive Access where
  /-- the path does not open -/
  | unopened (fault : Fault)
  /-- the path opens, as that of a directory does, but nothing can be read from it -/
  | unread (fault : Fault)
  | bytes (bytes : Bytes)
  deriving DecidableEq, Repr

abbrev Files := Text → Access

end CurlyLex
