import CurlyLex.Text.Basic

/-!
# Sets of words

A set of words is kept as the list of its members in rising order, each once.  Texts are ordered
by code points, character by character.  The order is a field of the type, so two sets with the
same members are the same value (`WordSet.ext_mem`).

* `insertWord`   puts a word at its place in a rising list, unless it is there already;
* `WordSet.ofList`, `insert`, `contains`, `size`, `isEmpty`   the operations;
* `WordSet.mem_insert`, `mem_ofList`   what they do to membership.
-/

namespace CurlyLex

/-- puts `w` at its place in a rising list, unless it is there already -/
def insertWord (w : Text) : List Text → List Text
  | [] => [w]
  | v :: vs => if w < v then w :: v :: vs else if w = v then v :: vs else v :: insertWord w vs

theorem lt_of_not_lt_of_ne {v w : Text} (h : ¬ w < v) (hne : ¬ w = v) : v < w := by
  apply Classical.byContradiction
  intro h'
  exact hne (List.le_antisymm h' h)

theorem mem_insertWord (w x : Text) (vs : List Text) :
    x ∈ insertWord w vs ↔ x = w ∨ x ∈ vs := by
  induction vs with
  | nil => simp [insertWord]
  | cons v vs ih =>
    rw [insertWord]
    split
    · simp
    · split
      · next h => subst h; simp
      · simp only [List.mem_cons, ih]
        constructor
        · rintro (h | h | h) <;> simp [h]
        · rintro (h | h | h) <;> simp [h]

theorem pairwise_insertWord (w : Text) {vs : List Text} (h : vs.Pairwise (· < ·)) :
    (insertWord w vs).Pairwise (· < ·) := by
  induction vs with
  | nil => exact List.pairwise_singleton _ _
  | cons v vs ih =>
    have hv := List.pairwise_cons.mp h
    rw [insertWord]
    split
    · next hlt =>
      refine List.Pairwise.cons (fun x hx => ?_) h
      rcases List.mem_cons.mp hx with rfl | hx
      · exact hlt
      · exact List.lt_trans hlt (hv.1 x hx)
    · split
      · exact h
      · next hge hne =>
        refine List.Pairwise.cons (fun x hx => ?_) (ih hv.2)
        rcases (mem_insertWord w x vs).mp hx with rfl | hx
        · exact lt_of_not_lt_of_ne hge hne
        · exact hv.1 x hx

/-- two rising lists with the same members are equal -/
theorem eq_of_mem_iff_of_pairwise {us vs : List Text} (hu : us.Pairwise (· < ·))
    (hv : vs.Pairwise (· < ·)) (h : ∀ x, x ∈ us ↔ x ∈ vs) : us = vs := by
  induction us generalizing vs with
  | nil =>
    cases vs with
    | nil => rfl
    | cons v vs => exact absurd ((h v).mpr List.mem_cons_self) (by simp)
  | cons u us ih =>
    cases vs with
    | nil => exact absurd ((h u).mp List.mem_cons_self) (by simp)
    | cons v vs =>
      have hu' := List.pairwise_cons.mp hu
      have hv' := List.pairwise_cons.mp hv
      have huv : u = v := by
        rcases List.mem_cons.mp ((h u).mp List.mem_cons_self) with e | hu1
        · exact e
        · rcases List.mem_cons.mp ((h v).mpr List.mem_cons_self) with e | hv1
          · exact e.symm
          · exact absurd (List.lt_trans (hv'.1 u hu1) (hu'.1 v hv1)) (List.lt_irrefl v)
      subst huv
      congr 1
      refine ih hu'.2 hv'.2 fun x => ?_
      have hx := h x
      simp only [List.mem_cons] at hx
      constructor
      · intro hm
        rcases hx.mp (Or.inr hm) with rfl | h'
        · exact absurd (hu'.1 x hm) (List.lt_irrefl x)
        · exact h'
      · intro hm
        rcases hx.mpr (Or.inr hm) with rfl | h'
        · exact absurd (hv'.1 x hm) (List.lt_irrefl x)
        · exact h'

/-- a finite set of words, listed in rising order -/
structure WordSet where
  toList : List Text
  increasing : toList.Pairwise (· < ·)
  deriving DecidableEq

namespace WordSet

instance : Membership Text WordSet := ⟨fun s w => w ∈ s.toList⟩

instance (w : Text) (s : WordSet) : Decidable (w ∈ s) := inferInstanceAs (Decidable (w ∈ s.toList))

theorem mem_def (w : Text) (s : WordSet) : w ∈ s ↔ w ∈ s.toList := Iff.rfl

theorem ext_mem {s t : WordSet} (h : ∀ w, w ∈ s ↔ w ∈ t) : s = t := by
  obtain ⟨us, hu⟩ := s
  obtain ⟨vs, hv⟩ := t
  have e : us = vs := eq_of_mem_iff_of_pairwise hu hv h
  subst e
  rfl

/-- the set without a word -/
def empty : WordSet := ⟨[], List.Pairwise.nil⟩

def insert (s : WordSet) (w : Text) : WordSet :=
  ⟨insertWord w s.toList, pairwise_insertWord w s.increasing⟩

/-- the words of a list, in any order and number -/
def ofList (ws : List Text) : WordSet := ws.foldr (fun w s => s.insert w) empty

def contains (s : WordSet) (w : Text) : Bool := s.toList.contains w

def size (s : WordSet) : Nat := s.toList.length

def isEmpty (s : WordSet) : Bool := s.toList.isEmpty

/-! ## membership -/

theorem not_mem_empty (x : Text) : ¬ x ∈ empty := by simp [mem_def, empty]

theorem mem_insert (s : WordSet) (w x : Text) : x ∈ s.insert w ↔ x = w ∨ x ∈ s :=
  mem_insertWord w x s.toList

theorem mem_ofList (ws : List Text) (x : Text) : x ∈ ofList ws ↔ x ∈ ws := by
  induction ws with
  | nil => simp [ofList, not_mem_empty]
  | cons w ws ih =>
    show x ∈ (ofList ws).insert w ↔ _
    rw [mem_insert, ih, List.mem_cons]

theorem contains_eq_true_iff (s : WordSet) (w : Text) : s.contains w = true ↔ w ∈ s := by
  simp [contains, mem_def]

theorem isEmpty_eq_true_iff (s : WordSet) : s.isEmpty = true ↔ ∀ w, ¬ w ∈ s := by
  simp [isEmpty, mem_def, List.isEmpty_iff, List.eq_nil_iff_forall_not_mem]

/-- a set is the set of its own list -/
theorem ofList_toList (s : WordSet) : ofList s.toList = s := ext_mem (mem_ofList s.toList)

end WordSet

end CurlyLex
