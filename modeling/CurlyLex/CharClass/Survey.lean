import CurlyLex.CharClass.Basic

/-!
# The classes over a stretch of code points

* `CharClass`   the twelve classes as data, `CharClass.of` those of a character;
* `classesAt`   the classes of a code point; surrogates and numbers beyond the last code point
                have none;
* `Run`         consecutive code points with the same classes;
* `survey`      the longest runs between two code points, in rising order, leaving out the code
                points without a class; `covers_survey_iff`: it tells the classes of all of them.

The stretch is walked from its upper end, so that each code point is put in front of the runs
above it (`addPoint`).
-/

namespace CurlyLex

inductive CharClass where
  | separator
  | operator
  | binaryDigit
  | hexDigit
  | digit
  | floatSuffix
  | longSuffix
  | whitespace
  | lineBreak
  | identStart
  | identContinue
  | escape
  deriving DecidableEq, Repr

namespace CharClass

/-- all classes, in the order of their declaration -/
def all : List CharClass :=
  [.separator, .operator, .binaryDigit, .hexDigit, .digit, .floatSuffix, .longSuffix, .whitespace,
   .lineBreak, .identStart, .identContinue, .escape]

theorem mem_all (k : CharClass) : k ∈ all := by cases k <;> decide

/-- does `c` belong to the class? -/
def holds : CharClass → Char → Bool
  | .separator => isSeparator
  | .operator => isOperator
  | .binaryDigit => isBinaryDigit
  | .hexDigit => isHexDigit
  | .digit => isDigit
  | .floatSuffix => isFloatSuffix
  | .longSuffix => isLongSuffix
  | .whitespace => isWhitespace
  | .lineBreak => isLineBreak
  | .identStart => isIdentStart
  | .identContinue => isIdentContinue
  | .escape => isEscape

/-- the classes of a character, in the order of `all` -/
def of (c : Char) : List CharClass := all.filter fun k => k.holds c

theorem mem_of (k : CharClass) (c : Char) : k ∈ of c ↔ k.holds c = true := by
  simp [of, mem_all]

/-! ## runs of code points -/

def classesAt (n : Nat) : List CharClass := if n.isValidChar then of (Char.ofNat n) else []

structure Run where
  first : Nat
  last : Nat
  classes : List CharClass
  deriving DecidableEq, Repr

/-- puts the code point `n` in front of the runs above it -/
def addPoint (n : Nat) (runs : List Run) : List Run :=
  match classesAt n, runs with
  | [], runs => runs
  | ks, [] => [⟨n, n, ks⟩]
  | ks, r :: rs =>
    if r.first = n + 1 ∧ r.classes = ks then { r with first := n } :: rs else ⟨n, n, ks⟩ :: r :: rs

/-- the runs of the `count` code points from `first` on, in front of `runs` -/
def surveyFrom (first : Nat) : Nat → List Run → List Run
  | 0, runs => runs
  | count + 1, runs => surveyFrom first count (addPoint (first + count) runs)

/-- the runs from `first` to `last`, ends included -/
def survey (first last : Nat) : List Run := surveyFrom first (last + 1 - first) []

/-! ## what a survey tells -/

/-- some run holds the code point `n` and has the class -/
def Covers (runs : List Run) (n : Nat) (k : CharClass) : Prop :=
  ∃ r ∈ runs, r.first ≤ n ∧ n ≤ r.last ∧ k ∈ r.classes

theorem covers_cons (r : Run) (rs : List Run) (n : Nat) (k : CharClass) :
    Covers (r :: rs) n k ↔ (r.first ≤ n ∧ n ≤ r.last ∧ k ∈ r.classes) ∨ Covers rs n k := by
  simp [Covers]

theorem mem_classesAt_iff (n : Nat) (k : CharClass) :
    k ∈ classesAt n ↔ n.isValidChar ∧ k.holds (Char.ofNat n) = true := by
  unfold classesAt
  split
  · next h => simp [mem_of, h]
  · next h => simp [h]

/-- a code point without a class leaves the runs alone; any other is a run of its own or is joined
to the run above it -/
theorem addPoint_cases (m : Nat) (runs : List Run) :
    (classesAt m = [] ∧ addPoint m runs = runs) ∨
      addPoint m runs = ⟨m, m, classesAt m⟩ :: runs ∨
      ∃ last rs, runs = ⟨m + 1, last, classesAt m⟩ :: rs ∧
        addPoint m runs = ⟨m, last, classesAt m⟩ :: rs := by
  unfold addPoint
  split
  · next h => exact Or.inl ⟨h, rfl⟩
  · exact Or.inr (Or.inl rfl)
  · next r rs _ =>
    split
    · next h =>
      obtain ⟨first, last, classes⟩ := r
      obtain ⟨rfl, rfl⟩ := h
      exact Or.inr (Or.inr ⟨last, rs, rfl, rfl⟩)
    · exact Or.inr (Or.inl rfl)

section
variable {m : Nat} {runs : List Run} (h : ∀ r ∈ runs, r.first ≤ r.last)
include h

theorem first_le_last_of_addPoint : ∀ r ∈ addPoint m runs, r.first ≤ r.last := by
  rcases addPoint_cases m runs with ⟨-, e⟩ | e | ⟨last, rs, rfl, e⟩
  · rw [e]
    exact h
  · rw [e]
    exact List.forall_mem_cons.mpr ⟨Nat.le_refl m, h⟩
  · obtain ⟨hl, hr⟩ := List.forall_mem_cons.mp h
    rw [e]
    exact List.forall_mem_cons.mpr ⟨Nat.le_of_succ_le hl, hr⟩

theorem covers_addPoint_iff (n : Nat) (k : CharClass) :
    Covers (addPoint m runs) n k ↔ (n = m ∧ k ∈ classesAt n) ∨ Covers runs n k := by
  rcases addPoint_cases m runs with ⟨hm, e⟩ | e | ⟨last, rs, rfl, e⟩
  · rw [e]
    refine ⟨Or.inr, ?_⟩
    intro hx
    rcases hx with ⟨rfl, hk⟩ | hc
    · rw [hm] at hk
      cases hk
    · exact hc
  · rw [e, covers_cons]
    refine or_congr_left ⟨?_, ?_⟩
    · intro hx
      obtain ⟨h1, h2, hk⟩ := hx
      obtain rfl : n = m := Nat.le_antisymm h2 h1
      exact ⟨rfl, hk⟩
    · intro hx
      obtain ⟨rfl, hk⟩ := hx
      exact ⟨Nat.le_refl n, Nat.le_refl n, hk⟩
  · have hl : m + 1 ≤ last := h _ List.mem_cons_self
    rw [e, covers_cons, covers_cons, ← or_assoc]
    refine or_congr_left ⟨?_, ?_⟩
    · intro hx
      obtain ⟨h1, h2, hk⟩ := hx
      by_cases hn : n = m
      · exact Or.inl ⟨hn, hn ▸ hk⟩
      · exact Or.inr ⟨Nat.lt_of_le_of_ne h1 (Ne.symm hn), h2, hk⟩
    · intro hx
      rcases hx with ⟨rfl, hk⟩ | ⟨h1, h2, hk⟩
      · exact ⟨Nat.le_refl n, Nat.le_of_succ_le hl, hk⟩
      · exact ⟨Nat.le_of_succ_le h1, h2, hk⟩

end

theorem covers_surveyFrom_iff (first count n : Nat) (runs : List Run) (k : CharClass)
    (h : ∀ r ∈ runs, r.first ≤ r.last) :
    Covers (surveyFrom first count runs) n k ↔
      (first ≤ n ∧ n < first + count ∧ k ∈ classesAt n) ∨ Covers runs n k := by
  induction count generalizing runs with
  | zero =>
    refine ⟨Or.inr, ?_⟩
    intro hx
    rcases hx with ⟨h1, h2, -⟩ | hc
    · omega
    · exact hc
  | succ count ih =>
    rw [surveyFrom, ih _ (first_le_last_of_addPoint h), covers_addPoint_iff h, ← or_assoc]
    refine or_congr_left ⟨?_, ?_⟩
    · intro hx
      rcases hx with ⟨h1, h2, hk⟩ | ⟨rfl, hk⟩
      · exact ⟨h1, by omega, hk⟩
      · exact ⟨by omega, by omega, hk⟩
    · intro hx
      obtain ⟨h1, h2, hk⟩ := hx
      by_cases hn : n = first + count
      · exact Or.inr ⟨hn, hk⟩
      · exact Or.inl ⟨h1, by omega, hk⟩

/-- the runs of a survey hold the code points between its ends, each with its classes -/
theorem covers_survey_iff (first last n : Nat) (k : CharClass) :
    Covers (survey first last) n k ↔
      (first ≤ n ∧ n ≤ last) ∧ n.isValidChar ∧ k.holds (Char.ofNat n) = true := by
  rw [survey, covers_surveyFrom_iff _ _ _ _ _ (List.forall_mem_nil _), ← mem_classesAt_iff]
  refine ⟨?_, ?_⟩
  · intro hx
    rcases hx with ⟨h1, h2, hk⟩ | ⟨r, hr, -⟩
    · exact ⟨⟨h1, by omega⟩, hk⟩
    · cases hr
  · intro hx
    obtain ⟨⟨h1, h2⟩, hk⟩ := hx
    exact Or.inl ⟨h1, by omega, hk⟩

end CharClass

end CurlyLex
