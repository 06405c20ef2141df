import Mathlib.Computability.Language
import CurlyLex.Text.Basic

/-!
# Languages of texts

The token grammar is built from single characters with the operations on languages: sum, product
and star.

* `oneOf p`   the texts of a single character of the class `p`;
* `just c`    the text of the single character `c`;
* `many p`    the texts of any number of characters of the class `p`.

A scanner reads a text from its first character to its last.  What matters of a language is
therefore which texts can stand before a given last character: the lemmas `concat_mem_…` say it for
every operation.
-/

open scoped Computability

namespace CurlyLex.Grammar

/-- one character of the class `p` -/
def oneOf (p : Char → Bool) : Language Char := {t | ∃ c, p c = true ∧ t = [c]}

/-- the character `c` -/
def just (c : Char) : Language Char := oneOf (· == c)

/-- any number of characters of the class `p` -/
def many (p : Char → Bool) : Language Char := (oneOf p)∗

theorem mem_just (c : Char) (t : Text) : t ∈ just c ↔ t = [c] := by
  refine ⟨?_, ?_⟩
  · intro hx
    obtain ⟨d, hd, rfl⟩ := hx
    rw [beq_iff_eq] at hd
    rw [hd]
  · intro e
    subst e
    exact ⟨c, beq_self_eq_true c, rfl⟩

theorem mem_just_mul_just (c d : Char) (t : Text) : t ∈ just c * just d ↔ t = [c, d] := by
  rw [Language.mem_mul]
  simp only [mem_just]
  refine ⟨?_, ?_⟩
  · intro hx
    obtain ⟨_, rfl, _, rfl, rfl⟩ := hx
    rfl
  · intro e
    subst e
    exact ⟨[c], rfl, [d], rfl, rfl⟩

/-! ## the empty text -/

theorem nil_mem_mul (l m : Language Char) : [] ∈ l * m ↔ [] ∈ l ∧ [] ∈ m := by
  rw [Language.mem_mul]
  refine ⟨?_, ?_⟩
  · intro ht
    obtain ⟨x, hx, y, hy, h⟩ := ht
    obtain ⟨rfl, rfl⟩ := List.append_eq_nil_iff.mp h
    exact ⟨hx, hy⟩
  · intro hx
    obtain ⟨hl, hm⟩ := hx
    exact ⟨[], hl, [], hm, rfl⟩

theorem not_nil_mem_oneOf (p : Char → Bool) : [] ∉ oneOf p := by
  intro hx
  obtain ⟨c, _, h⟩ := hx
  simp at h

theorem not_nil_mem_just (c : Char) : [] ∉ just c := not_nil_mem_oneOf _

/-! ## the first character -/

theorem of_cons_mem_oneOf_mul {p : Char → Bool} {l : Language Char} {c : Char} {t : Text}
    (h : c :: t ∈ oneOf p * l) : p c = true := by
  obtain ⟨_, ⟨d, hd, rfl⟩, y, _, e⟩ := Language.mem_mul.mp h
  cases e
  exact hd

theorem mem_many (p : Char → Bool) (t : Text) : t ∈ many p ↔ ∀ c ∈ t, p c = true := by
  rw [many, Language.mem_kstar]
  refine ⟨?_, ?_⟩
  · rintro ⟨ts, rfl, h⟩ c hc
    obtain ⟨x, hx, hc⟩ := List.mem_flatten.mp hc
    obtain ⟨d, hd, rfl⟩ := h x hx
    rw [List.mem_singleton.mp hc]
    exact hd
  · intro h
    refine ⟨t.map fun c => [c], ?_, ?_⟩
    · rw [← List.flatMap_def, List.flatMap_singleton']
    · intro x hx
      obtain ⟨c, hc, rfl⟩ := List.mem_map.mp hx
      exact ⟨c, h c hc, rfl⟩

theorem cons_mem_oneOf_mul_many (p p' : Char → Bool) (c : Char) (t : Text) :
    c :: t ∈ oneOf p * many p' ↔ p c = true ∧ ∀ d ∈ t, p' d = true := by
  rw [Language.mem_mul]
  refine ⟨?_, ?_⟩
  · rintro ⟨_, ⟨d, hd, rfl⟩, y, hy, e⟩
    cases e
    exact ⟨hd, (mem_many p' y).mp hy⟩
  · rintro ⟨hc, ht⟩
    exact ⟨[c], ⟨c, hc, rfl⟩, t, (mem_many p' t).mpr ht, rfl⟩

/-! ## the last character -/

section
variable (l m : Language Char) (p : Char → Bool) (b : Text) (c : Char)

theorem concat_mem_add : b ++ [c] ∈ l + m ↔ b ++ [c] ∈ l ∨ b ++ [c] ∈ m := Language.mem_add l m _

theorem concat_mem_oneOf : b ++ [c] ∈ oneOf p ↔ b = [] ∧ p c = true := by
  refine ⟨?_, ?_⟩
  · intro hx
    obtain ⟨d, hd, h⟩ := hx
    obtain ⟨rfl, h⟩ := List.append_inj' (show b ++ [c] = [] ++ [d] from h) rfl
    cases h
    exact ⟨rfl, hd⟩
  · intro hx
    obtain ⟨rfl, hc⟩ := hx
    exact ⟨c, hc, rfl⟩

theorem concat_mem_just (d : Char) : b ++ [c] ∈ just d ↔ b = [] ∧ c = d := by
  rw [just, concat_mem_oneOf, beq_iff_eq]

theorem concat_mem_mul :
    b ++ [c] ∈ l * m ↔ (b ++ [c] ∈ l ∧ [] ∈ m) ∨ ∃ x ∈ l, ∃ y, y ++ [c] ∈ m ∧ x ++ y = b := by
  rw [Language.mem_mul]
  refine ⟨?_, ?_⟩
  · intro ht
    obtain ⟨x, hx, y, hy, h⟩ := ht
    rcases List.eq_nil_or_concat y with rfl | ⟨y, d, rfl⟩
    · rw [List.append_nil] at h
      exact Or.inl ⟨h ▸ hx, hy⟩
    · rw [List.concat_eq_append] at h hy
      rw [← List.append_assoc] at h
      obtain ⟨e, hd⟩ := List.append_inj' h rfl
      cases hd
      exact Or.inr ⟨x, hx, y, hy, e⟩
  · intro ht
    rcases ht with ⟨hb, hm⟩ | ⟨x, hx, y, hy, rfl⟩
    · exact ⟨b ++ [c], hb, [], hm, List.append_nil _⟩
    · exact ⟨x, hx, y ++ [c], hy, (List.append_assoc x y [c]).symm⟩

theorem concat_mem_mul_oneOf : b ++ [c] ∈ l * oneOf p ↔ b ∈ l ∧ p c = true := by
  rw [concat_mem_mul]
  refine ⟨?_, ?_⟩
  · intro ht
    rcases ht with ⟨_, h⟩ | ⟨x, hx, y, hy, rfl⟩
    · exact absurd h (not_nil_mem_oneOf p)
    · obtain ⟨rfl, hc⟩ := (concat_mem_oneOf p y c).mp hy
      exact ⟨by rwa [List.append_nil], hc⟩
  · intro hx
    obtain ⟨hb, hc⟩ := hx
    exact Or.inr ⟨b, hb, [], (concat_mem_oneOf p [] c).mpr ⟨rfl, hc⟩, List.append_nil b⟩

theorem concat_mem_mul_just (d : Char) : b ++ [c] ∈ l * just d ↔ b ∈ l ∧ c = d := by
  rw [just, concat_mem_mul_oneOf, beq_iff_eq]

/-- a product with a star, with the last factor of the star brought out -/
theorem mul_kstar_eq : l * m∗ = l + l * m∗ * m := by
  rw [mul_assoc, ← mul_one_add, Language.one_add_kstar_mul_self_eq_kstar]

theorem concat_mem_mul_many :
    b ++ [c] ∈ l * many p ↔ b ++ [c] ∈ l ∨ b ∈ l * many p ∧ p c = true := by
  rw [many, mul_kstar_eq, concat_mem_add, concat_mem_mul_oneOf]
  rw [← mul_kstar_eq]

end

end CurlyLex.Grammar
