import CurlyLex.Unicode.RangeTree

/-!
# Unicode: tables of properties

Most source text is ASCII.  A table therefore answers for ASCII from the few ranges that begin
there, and asks the search tree only for the code points beyond.

* `RangeTable`                 the ranges that begin in ASCII, and the tree of all ranges;
* `RangeTable.ofList`, `contains`   the table of a list, and the look-up;
* `RangeTable.contains_ofList` on a rising list the look-up is membership;
* `whiteSpace`, `currency`     the property `White_Space` and the category `Sc` need no table: they
                               are small, and their ranges are tried one after the other.
-/

namespace CurlyLex.Unicode

structure RangeTable where
  ascii : List (Nat × Nat)
  tree : RangeTree

namespace RangeTable

/-- the first code point beyond ASCII -/
def asciiEnd : Nat := 0x80

def ofList (rs : List (Nat × Nat)) : RangeTable :=
  ⟨rs.takeWhile fun r => decide (r.1 < asciiEnd), .ofList rs⟩

def contains (t : RangeTable) (n : Nat) : Bool :=
  if n < asciiEnd then inRanges t.ascii n else t.tree.contains n

/-- below a bound, the ranges that begin there are all that matter -/
theorem inRanges_takeWhile {floor bound n : Nat} {rs : List (Nat × Nat)}
    (h : rising floor rs = true) (hn : n < bound) :
    inRanges (rs.takeWhile fun r => decide (r.1 < bound)) n = inRanges rs n := by
  induction rs generalizing floor with
  | nil => rfl
  | cons r rs ih =>
    have hr := le_of_rising h
    have hp := List.pairwise_cons.mp (pairwise_of_rising h)
    obtain ⟨low, high⟩ := r
    simp only [rising, Bool.and_eq_true, decide_eq_true_eq] at h
    by_cases hb : low < bound
    · rw [List.takeWhile_cons_of_pos (by simpa using hb), inRanges_cons, inRanges_cons, ih h.2]
    · rw [List.takeWhile_cons_of_neg (by simpa using hb), inRanges_nil]
      symm
      rw [Bool.eq_false_iff, Ne, inRanges_eq_true_iff]
      rintro ⟨x, hx, hx1, _⟩
      rcases List.mem_cons.mp hx with rfl | hx
      · simp only at hx1
        omega
      · have := hp.1 x hx
        simp only at this
        omega

theorem contains_ofList {floor : Nat} {rs : List (Nat × Nat)} (h : rising floor rs = true)
    (n : Nat) : (ofList rs).contains n = inRanges rs n := by
  rw [contains, ofList]
  split
  · next hn => exact inRanges_takeWhile h hn
  · exact RangeTree.contains_ofList h n

end RangeTable

/-! ## properties of few ranges -/

/-- the ranges of `White_Space`: the controls from tab to carriage return, the space, next line, the
no-break space, and the spaces and separators outside Latin-1 -/
def whiteSpaceRanges : List (Nat × Nat) :=
  [(0x20, 0x20), (0x9, 0xD), (0x85, 0x85), (0xA0, 0xA0), (0x1680, 0x1680), (0x2000, 0x200A),
   (0x2028, 0x2029), (0x202F, 0x202F), (0x205F, 0x205F), (0x3000, 0x3000)]

/-- has `c` the property `White_Space`? -/
def whiteSpace (c : Char) : Bool := inRanges whiteSpaceRanges c.toNat

/-- blanks in the sense of the core library are white space -/
theorem whiteSpace_of_isWhitespace (c : Char) (h : c.isWhitespace = true) :
    whiteSpace c = true := by
  simp only [Char.isWhitespace, Bool.or_eq_true, decide_eq_true_eq] at h
  rcases h with ((rfl | rfl) | rfl) | rfl <;> decide

/-- the ranges of the category `Sc`, in rising order -/
def currencyRanges : List (Nat × Nat) :=
  [(0x24, 0x24), (0xA2, 0xA5), (0x58F, 0x58F), (0x60B, 0x60B), (0x7FE, 0x7FF), (0x9F2, 0x9F3),
   (0x9FB, 0x9FB), (0xAF1, 0xAF1), (0xBF9, 0xBF9), (0xE3F, 0xE3F), (0x17DB, 0x17DB),
   (0x20A0, 0x20C0), (0xA838, 0xA838), (0xFDFC, 0xFDFC), (0xFE69, 0xFE69), (0xFF04, 0xFF04),
   (0xFFE0, 0xFFE1), (0xFFE5, 0xFFE6)]

/-- is `c` a currency symbol? -/
def currency (c : Char) : Bool := inRanges currencyRanges c.toNat

end CurlyLex.Unicode
