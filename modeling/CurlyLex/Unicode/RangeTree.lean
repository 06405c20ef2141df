/-!
# Unicode: sets of code points as search trees of ranges

A property of characters is published as a long rising list of ranges.  Here such a list becomes
a balanced search tree, so that asking for one character takes about ten comparisons.

* `inRanges`            membership in a list of ranges, one range after the other;
* `RangeTree`           a binary tree with a range at every inner node;
* `RangeTree.ofList`    the balanced tree with the given ranges, from left to right;
* `RangeTree.contains`  the look-up;
* `RangeTree.toList_ofList`   the tree holds the ranges of the list, in their order;
* `rising`              the ranges of a list are in order and apart: one pass over the list;
* `RangeTree.contains_ofList` on a rising list the look-up is membership.
-/

namespace CurlyLex.Unicode

/-- does `n` lie in one of the ranges (ends included)? -/
def inRanges (ranges : List (Nat × Nat)) (n : Nat) : Bool :=
  ranges.any fun r => decide (r.1 ≤ n) && decide (n ≤ r.2)

theorem inRanges_nil (n : Nat) : inRanges [] n = false := rfl
theorem inRanges_cons (r : Nat × Nat) (rs : List (Nat × Nat)) (n : Nat) :
    inRanges (r :: rs) n = ((decide (r.1 ≤ n) && decide (n ≤ r.2)) || inRanges rs n) := rfl
theorem inRanges_append (a b : List (Nat × Nat)) (n : Nat) :
    inRanges (a ++ b) n = (inRanges a n || inRanges b n) := by
  simp [inRanges, List.any_append]

theorem inRanges_eq_true_iff (rs : List (Nat × Nat)) (n : Nat) :
    inRanges rs n = true ↔ ∃ r ∈ rs, r.1 ≤ n ∧ n ≤ r.2 := by
  simp [inRanges, List.any_eq_true]

/-- every range begins at `floor` or later, ends no earlier than it begins, and lies below the
ranges after it -/
def rising (floor : Nat) : List (Nat × Nat) → Bool
  | [] => true
  | (low, high) :: rs => decide (floor ≤ low) && decide (low ≤ high) && rising (high + 1) rs

theorem le_of_rising {floor : Nat} {rs : List (Nat × Nat)} (h : rising floor rs = true) :
    ∀ r ∈ rs, floor ≤ r.1 ∧ r.1 ≤ r.2 := by
  induction rs generalizing floor with
  | nil => simp
  | cons r rs ih =>
    obtain ⟨low, high⟩ := r
    simp only [rising, Bool.and_eq_true, decide_eq_true_eq] at h
    intro x hx
    rcases List.mem_cons.mp hx with rfl | hx
    · exact h.1
    · have := ih h.2 x hx
      omega

theorem pairwise_of_rising {floor : Nat} {rs : List (Nat × Nat)} (h : rising floor rs = true) :
    rs.Pairwise fun a b => a.2 < b.1 := by
  induction rs generalizing floor with
  | nil => exact List.Pairwise.nil
  | cons r rs ih =>
    obtain ⟨low, high⟩ := r
    simp only [rising, Bool.and_eq_true, decide_eq_true_eq] at h
    refine List.Pairwise.cons (fun x hx => ?_) (ih h.2)
    have := le_of_rising h.2 x hx
    omega

inductive RangeTree where
  | leaf
  | node (left : RangeTree) (low high : Nat) (right : RangeTree)

namespace RangeTree

/-- the ranges of a tree, from left to right -/
def toList : RangeTree → List (Nat × Nat)
  | .leaf => []
  | .node l low high r => l.toList ++ (low, high) :: r.toList

/-- goes left below a range, right above it, and stops inside it -/
def contains : RangeTree → Nat → Bool
  | .leaf, _ => false
  | .node l low high r, n =>
    if n < low then l.contains n else if n ≤ high then true else r.contains n

/-- a tree of depth at most `depth` with the first ranges of the list, and the ranges that did
not fit -/
def fill : Nat → List (Nat × Nat) → RangeTree × List (Nat × Nat)
  | 0, rs => (.leaf, rs)
  | depth + 1, rs =>
    match fill depth rs with
    | (l, []) => (l, [])
    | (l, (low, high) :: rest) =>
      let (r, rest') := fill depth rest
      (.node l low high r, rest')

/-- the balanced tree of a list of ranges -/
def ofList (rs : List (Nat × Nat)) : RangeTree := (fill (rs.length.log2 + 1) rs).1

/-! ## what the tree holds -/

theorem toList_fill (depth : Nat) (rs : List (Nat × Nat)) :
    (fill depth rs).1.toList ++ (fill depth rs).2 = rs := by
  induction depth generalizing rs with
  | zero => rfl
  | succ d ih =>
    have hl := ih rs
    rw [fill]
    split
    · next l hf => rw [hf] at hl; exact hl
    · next l low high rest hf =>
      rw [hf] at hl
      have hr := ih rest
      simp only [toList, List.append_assoc, List.cons_append, hr]
      exact hl

/-- how many ranges a tree of the given depth takes -/
def capacity : Nat → Nat
  | 0 => 0
  | depth + 1 => capacity depth + (capacity depth + 1)

theorem length_fill (depth : Nat) (rs : List (Nat × Nat)) :
    (fill depth rs).2.length = rs.length - capacity depth := by
  induction depth generalizing rs with
  | zero => rfl
  | succ d ih =>
    have hl := ih rs
    rw [fill, capacity]
    split
    · next l hf =>
      rw [hf, List.length_nil] at hl
      show 0 = _
      omega
    · next l low high rest hf =>
      rw [hf, List.length_cons] at hl
      have hr := ih rest
      show (fill d rest).2.length = _
      omega

theorem le_capacity_log2 (n : Nat) : n ≤ capacity (n.log2 + 1) := by
  have hc : ∀ d, capacity d + 1 = 2 ^ d := by
    intro d
    induction d with
    | zero => rfl
    | succ d ih => rw [capacity, Nat.pow_succ]; omega
  have hn : n < 2 ^ (n.log2 + 1) := Nat.lt_log2_self
  have := hc (n.log2 + 1)
  omega

theorem toList_ofList (rs : List (Nat × Nat)) : (ofList rs).toList = rs := by
  have hc := le_capacity_log2 rs.length
  have hnil : (fill (rs.length.log2 + 1) rs).2 = [] := by
    rw [← List.length_eq_zero_iff, length_fill]; omega
  have h := toList_fill (rs.length.log2 + 1) rs
  rw [hnil, List.append_nil] at h
  exact h

/-! ## the look-up -/

theorem contains_eq_inRanges (t : RangeTree)
    (h : t.toList.Pairwise fun a b => a.2 < b.1) (hr : ∀ r ∈ t.toList, r.1 ≤ r.2)
    (n : Nat) : t.contains n = inRanges t.toList n := by
  induction t with
  | leaf => rfl
  | node l low high r ihl ihr =>
    have hp := List.pairwise_append.mp h
    have hq := List.pairwise_cons.mp hp.2.1
    have hlh : low ≤ high := hr (low, high) (by simp [toList])
    have hl := ihl hp.1 fun x hx => hr x (by simp [toList, hx])
    have hrt := ihr hq.2 fun x hx => hr x (by simp [toList, hx])
    rw [contains, toList, inRanges_append, inRanges_cons]
    have hL : low ≤ n → inRanges l.toList n = false := by
      intro hn
      rw [Bool.eq_false_iff, Ne, inRanges_eq_true_iff]
      rintro ⟨x, hx, _, hx2⟩
      have := hp.2.2 x hx (low, high) (by simp)
      simp only at this
      omega
    have hR : n ≤ high → inRanges r.toList n = false := by
      intro hn
      rw [Bool.eq_false_iff, Ne, inRanges_eq_true_iff]
      rintro ⟨x, hx, hx1, _⟩
      have := hq.1 x hx
      simp only at this
      omega
    by_cases h1 : n < low
    · rw [if_pos h1, hl, hR (by omega)]
      simp [show ¬ low ≤ n by omega]
    · rw [if_neg h1, hL (by omega)]
      by_cases h2 : n ≤ high
      · simp [h2, show low ≤ n by omega]
      · simp [h2, hrt]

theorem contains_ofList {floor : Nat} {rs : List (Nat × Nat)} (h : rising floor rs = true)
    (n : Nat) : (ofList rs).contains n = inRanges rs n := by
  have e := toList_ofList rs
  rw [contains_eq_inRanges _ (e.symm ▸ pairwise_of_rising h)
    (by rw [e]; exact fun r hr => (le_of_rising h r hr).2), e]

end RangeTree

end CurlyLex.Unicode
