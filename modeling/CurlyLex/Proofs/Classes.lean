import CurlyLex.Scanner.Move

/-!
# Classes of characters: what excludes what

A first character is tried against one class after the other.  The order of the trials does not
matter where the classes exclude each other, and then the class alone decides where it leads.

* `eq_true_of_inRanges`   a property of all code points of some ranges, tried point by point;
* `isIdentContinue_eq_false_of_isWhitespace`   no white space continues an identifier;
* `start_of_…`            where the characters of a class lead.
-/

namespace CurlyLex

/-! ## ranges, point by point -/

/-- what holds of all code points of the ranges holds of every character in them -/
theorem eq_true_of_inRanges {ranges : List (Nat × Nat)} {p : Char → Bool}
    (h : (ranges.all fun r => (List.range' r.1 (r.2 + 1 - r.1)).all fun n => p (Char.ofNat n))
      = true) {c : Char} (hc : Unicode.inRanges ranges c.toNat = true) : p c = true := by
  obtain ⟨r, hr, h1, h2⟩ := (Unicode.inRanges_eq_true_iff ranges c.toNat).mp hc
  have hp := List.all_eq_true.mp (List.all_eq_true.mp h r hr) c.toNat
    (List.mem_range'_1.mpr ⟨h1, by omega⟩)
  rwa [Char.ofNat_toNat] at hp

theorem inRanges_of_isDigit {c : Char} (h : isDigit c = true) :
    Unicode.inRanges [(48, 57)] c.toNat = true := by
  rw [isDigit, Bool.and_eq_true, decide_eq_true_eq, decide_eq_true_eq] at h
  have h1 : 48 ≤ c.toNat := h.1
  have h2 : c.toNat ≤ 57 := h.2
  exact (Unicode.inRanges_eq_true_iff _ _).mpr ⟨(48, 57), by simp, h1, h2⟩

theorem isIdentContinue_of_isDigit {c : Char} (h : isDigit c = true) :
    isIdentContinue c = true :=
  eq_true_of_inRanges (p := isIdentContinue) (by decide +kernel) (inRanges_of_isDigit h)

theorem isIdentContinue_eq_false_of_isWhitespace {c : Char} (h : isWhitespace c = true) :
    isIdentContinue c = false := by
  have hr : (Unicode.whiteSpaceRanges.all fun r => (List.range' r.1 (r.2 + 1 - r.1)).all fun n =>
      !isIdentContinue (Char.ofNat n)) = true := by decide +kernel
  have hc : (!isIdentContinue c) = true :=
    eq_true_of_inRanges (p := fun c => !isIdentContinue c) hr h
  rwa [Bool.not_eq_true'] at hc

theorem isWhitespace_eq_false_of_isIdentStart {c : Char} (h : isIdentStart c = true) :
    isWhitespace c = false := by
  rw [Bool.eq_false_iff]
  intro hw
  have hc := isIdentContinue_eq_false_of_isWhitespace hw
  rw [isIdentContinue_of_isIdentStart c h] at hc
  exact absurd hc (by simp)

/-! ## the first character -/

theorem start_of_isWhitespace {c : Char} (h : isWhitespace c = true) :
    start c = .stay .blank := by
  have hc : c ≠ '/' := by
    intro e
    subst e
    exact absurd h (by decide)
  unfold start
  rw [if_neg hc, if_pos h]

theorem start_of_isIdentStart {c : Char} (h : isIdentStart c = true) :
    start c = .stay .word := by
  have hc : c ≠ '/' := by
    intro e
    subst e
    exact absurd h (by decide +kernel)
  unfold start
  rw [if_neg hc, isWhitespace_eq_false_of_isIdentStart h, if_neg Bool.false_ne_true, if_pos h]

theorem start_of_isDigit {c : Char} (h : isDigit c = true) (hc : c ≠ '0') :
    start c = .stay .decimal := by
  have hs : (c == '0' || start c == .stay .decimal) = true :=
    eq_true_of_inRanges (p := fun c => c == '0' || start c == .stay .decimal) (by decide +kernel)
      (inRanges_of_isDigit h)
  rw [Bool.or_eq_true, beq_iff_eq, beq_iff_eq] at hs
  exact hs.resolve_left hc

end CurlyLex
