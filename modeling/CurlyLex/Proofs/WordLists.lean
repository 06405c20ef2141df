import CurlyLex.Proofs.Classes
import CurlyLex.Settings

/-!
# Word lists

* `ListWord w`   the text `w` can stand in a word list as a word: it is not empty, and has neither
                      white space nor two slashes in a row;
* `listWord_of_mem_wordsOf`   all words of a word list are such;
* `ListWord.lineWords_eq`   and each of them, alone on a line, is the one word of the line;
* `wordsOf_ofLines`   the words of some lines are read line by line.
-/

namespace CurlyLex

/-- two slashes in a row -/
def slashes : Text := ['/', '/']

/-- the text can stand in a word list as a word -/
structure ListWord (w : Text) : Prop where
  ne_nil : w ≠ []
  solid : ∀ c ∈ w, isWhitespace c = false
  uncommented : ¬ slashes <:+: w

/-! ## comments -/

section
variable (line : Text)

theorem beforeComment_prefix_line : beforeComment line <+: line := by
  fun_induction beforeComment line with
  | case1 => exact List.nil_prefix
  | case2 c => exact List.prefix_refl _
  | case3 => exact List.nil_prefix
  | case4 c d r h ih => exact List.prefix_cons_inj c |>.mpr ih

theorem slashes_not_infix_beforeComment : ¬ slashes <:+: beforeComment line := by
  fun_induction beforeComment line with
  | case1 => decide
  | case2 c => exact fun h => Nat.not_lt_of_le h.length_le (Nat.lt_succ_self 1)
  | case3 => decide
  | case4 c d r hcd ih =>
    intro h
    rcases List.infix_cons_iff.mp h with h | h
    -- two slashes at the beginning of what is kept are two at the beginning of the line
    · obtain ⟨rfl, hd⟩ := List.cons_prefix_cons.mp h
      have hd' := List.cons_prefix_cons.mp (hd.trans (beforeComment_prefix_line (d :: r)))
      exact hcd ⟨rfl, hd'.1.symm⟩
    · exact ih h

end

theorem beforeComment_eq_self {line : Text} (h : ¬ slashes <:+: line) :
    beforeComment line = line := by
  fun_induction beforeComment line with
  | case1 => rfl
  | case2 c => rfl
  | case3 c d r hcd =>
    obtain ⟨rfl, rfl⟩ := hcd
    exact absurd (List.prefix_append slashes r).isInfix h
  | case4 c d r hcd ih => rw [ih fun h' => h (List.infix_cons h')]

theorem lineWords_slashes (t : Text) : lineWords (slashes ++ t) = [] := rfl

/-! ## words -/

theorem eq_false_of_mem_splitOnP {p : Char → Bool} {t w : Text} (h : w ∈ t.splitOnP p) :
    ∀ c ∈ w, p c = false := by
  induction t generalizing w with
  | nil =>
    obtain rfl := List.mem_singleton.mp h
    exact List.forall_mem_nil _
  | cons c t ih =>
    rw [List.splitOnP_cons_eq_if_modifyHead] at h
    split at h
    · rcases List.mem_cons.mp h with rfl | h
      · exact List.forall_mem_nil _
      · exact ih h
    · next hc =>
      obtain ⟨u, us, hu⟩ := List.exists_cons_of_ne_nil (List.splitOnP_ne_nil p t)
      rw [hu] at h ih
      rcases List.mem_cons.mp h with rfl | h
      · exact List.forall_mem_cons.mpr ⟨Bool.eq_false_iff.mpr hc, ih List.mem_cons_self⟩
      · exact ih (List.mem_cons_of_mem u h)

theorem prefix_and_infix_of_splitOnP {p : Char → Bool} {t u : Text} {us : List Text}
    (h : t.splitOnP p = u :: us) : u <+: t ∧ ∀ w ∈ us, w <:+: t := by
  induction t generalizing u us with
  | nil =>
    cases h
    exact ⟨List.prefix_refl _, List.forall_mem_nil _⟩
  | cons c t ih =>
    obtain ⟨v, vs, hv⟩ := List.exists_cons_of_ne_nil (List.splitOnP_ne_nil p t)
    obtain ⟨hp, hi⟩ := ih hv
    rw [List.splitOnP_cons_eq_if_modifyHead, hv] at h
    split at h
    · cases h
      exact ⟨List.nil_prefix, List.forall_mem_cons.mpr
        ⟨List.infix_cons hp.isInfix, fun w hw => List.infix_cons (hi w hw)⟩⟩
    · cases h
      exact ⟨(List.prefix_cons_inj c).mpr hp, fun w hw => List.infix_cons (hi w hw)⟩

theorem infix_of_mem_splitOnP {p : Char → Bool} {t w : Text} (h : w ∈ t.splitOnP p) :
    w <:+: t := by
  obtain ⟨u, us, hu⟩ := List.exists_cons_of_ne_nil (List.splitOnP_ne_nil p t)
  obtain ⟨hp, hi⟩ := prefix_and_infix_of_splitOnP hu
  rw [hu] at h
  rcases List.mem_cons.mp h with rfl | h
  · exact hp.isInfix
  · exact hi w h

theorem listWord_of_mem_lineWords {line w : Text} (h : w ∈ lineWords line) : ListWord w := by
  obtain ⟨hw, hne⟩ := List.mem_filter.mp h
  refine ⟨?_, eq_false_of_mem_splitOnP hw, ?_⟩
  · rintro rfl
    cases hne
  · intro hs
    exact slashes_not_infix_beforeComment line (hs.trans (infix_of_mem_splitOnP hw))

theorem listWord_of_mem_wordsOf {text w : Text} (h : w ∈ wordsOf text) : ListWord w := by
  obtain ⟨line, _, hw⟩ := List.mem_flatMap.mp h
  exact listWord_of_mem_lineWords hw

theorem isIdentContinue_of_mem_of_isIdentifier {w : Text} (h : isIdentifier w = true) :
    ∀ c ∈ w, isIdentContinue c = true := by
  cases w with
  | nil => cases h
  | cons c cs =>
    obtain ⟨hc, hcs⟩ := Bool.and_eq_true_iff.mp h
    exact List.forall_mem_cons.mpr
      ⟨isIdentContinue_of_isIdentStart c hc, List.all_eq_true.mp hcs⟩

theorem listWord_of_isIdentifier {w : Text} (h : isIdentifier w = true) : ListWord w := by
  have hw := isIdentContinue_of_mem_of_isIdentifier h
  refine ⟨?_, ?_, ?_⟩
  · rintro rfl
    cases h
  · intro c hc
    refine Bool.eq_false_iff.mpr fun hs => ?_
    have hf := isIdentContinue_eq_false_of_isWhitespace hs
    rw [hw c hc] at hf
    cases hf
  · intro hs
    exact absurd (hw '/' (hs.subset List.mem_cons_self)) (by decide +kernel)

theorem wordsOf_ofLines {ls : List Text} (h : ∀ l ∈ ls, '\n' ∉ l) :
    wordsOf (ofLines ls) = ls.flatMap lineWords := by
  rw [wordsOf, splitOn_ofLines h, List.flatMap_append]
  exact List.append_nil _

namespace ListWord

variable {w : Text} (h : ListWord w)
include h

theorem not_mem_of_isWhitespace {c : Char} (hc : isWhitespace c = true) : c ∉ w := by
  intro hm
  rw [h.solid c hm] at hc
  cases hc

theorem lineFeed_not_mem : '\n' ∉ w := h.not_mem_of_isWhitespace (by decide)

theorem lineWords_eq : lineWords w = [w] := by
  rw [lineWords, beforeComment_eq_self h.uncommented, List.splitOnP_eq_singleton h.solid]
  exact List.filter_cons_of_pos (by simpa using h.ne_nil)

end ListWord

end CurlyLex
