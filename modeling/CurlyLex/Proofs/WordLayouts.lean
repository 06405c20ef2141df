import CurlyLex.Proofs.WordLists

/-!
# Word lists and their lines

A word list is read line by line, and of a line only the words count, not how they are set.

* `Layout line ws`    the words `ws` are set on the line, apart from each other by white space, with
                      white space and a comment around them or not;
* `Layout.lineWords_eq`   then they are the words that are read from the line;
* `wordsOf_intercalate`   the words of a text of lines are those of its lines;
* `word_list_read_by_lines`   so the order of the lines and their number do not matter, and all
                      words that can stand in a word list are read from it as they were set.

White space of any kind sets words apart, but only a line feed ends a line and its comment.
-/

namespace CurlyLex

/-! ## lines as they are read -/

theorem beforeComment_cons {c : Char} (hc : c ≠ '/') (t : Text) :
    beforeComment (c :: t) = c :: beforeComment t := by
  cases t with
  | nil => rfl
  | cons d r => exact if_neg fun h => hc h.1

/-- a word and what is no slash behind it stand before the comment -/
theorem beforeComment_append {w : Text} {c : Char} (hw : ¬ slashes <:+: w) (hc : c ≠ '/')
    (t : Text) : beforeComment (w ++ c :: t) = w ++ c :: beforeComment t := by
  fun_induction beforeComment w with
  | case1 => exact beforeComment_cons hc t
  | case2 a =>
    show (if a = '/' ∧ c = '/' then [] else a :: beforeComment (c :: t)) = _
    rw [if_neg fun h => hc h.2, beforeComment_cons hc]
    rfl
  | case3 a d r had =>
    obtain ⟨rfl, rfl⟩ := had
    exact absurd (List.prefix_append slashes r).isInfix hw
  | case4 a d r had ih =>
    show (if a = '/' ∧ d = '/' then [] else a :: beforeComment (d :: r ++ c :: t)) = _
    rw [if_neg had, ih fun h => hw (List.infix_cons h)]
    rfl

section
variable {c : Char} (hc : isWhitespace c = true)
include hc

theorem ne_slash_of_isWhitespace : c ≠ '/' := by
  rintro rfl
  exact absurd hc (by decide)

theorem lineWords_cons (t : Text) : lineWords (c :: t) = lineWords t := by
  rw [lineWords, beforeComment_cons (ne_slash_of_isWhitespace hc),
    List.splitOnP_cons_eq_if_modifyHead, if_pos hc]
  rfl

theorem ListWord.lineWords_append {w : Text} (hw : ListWord w) (t : Text) :
    lineWords (w ++ c :: t) = w :: lineWords t := by
  rw [lineWords, beforeComment_append hw.uncommented (ne_slash_of_isWhitespace hc),
    List.splitOnP_append_cons_of_forall_mem hw.solid c hc]
  exact List.filter_cons_of_pos (by simpa using hw.ne_nil)

end

/-! ## lines as they are set -/

/-- white space on one line -/
def IsGap (t : Text) : Prop := ∀ c ∈ t, isWhitespace c = true ∧ c ≠ '\n'

/-- the words are set on the line -/
inductive Layout : Text → List Text → Prop where
  | gap {g : Text} (hg : IsGap g) : Layout g []
  | comment {g t : Text} (hg : IsGap g) (ht : '\n' ∉ t) : Layout (g ++ (slashes ++ t)) []
  /-- a word at the end of the line -/
  | word {g w : Text} (hg : IsGap g) (hw : ListWord w) : Layout (g ++ w) [w]
  /-- a word and white space, and then the rest of the line -/
  | words {g w line : Text} {c : Char} {ws : List Text} (hg : IsGap g) (hw : ListWord w)
      (hc : IsGap [c]) (h : Layout line ws) : Layout (g ++ (w ++ c :: line)) (w :: ws)

section
variable {g line : Text} {ws : List Text}

theorem IsGap.lineWords_append (hg : IsGap g) (t : Text) : lineWords (g ++ t) = lineWords t := by
  induction g with
  | nil => rfl
  | cons c g ih =>
    obtain ⟨hc, hg⟩ := List.forall_mem_cons.mp hg
    rw [List.cons_append, lineWords_cons hc.1, ih hg]

theorem IsGap.lineFeed_not_mem (hg : IsGap g) : '\n' ∉ g := fun h => (hg _ h).2 rfl

theorem Layout.lineWords_eq (h : Layout line ws) : lineWords line = ws := by
  induction h with
  | @gap g hg =>
    have h := hg.lineWords_append []
    rwa [List.append_nil] at h
  | comment hg ht => rw [hg.lineWords_append, lineWords_slashes]
  | word hg hw => rw [hg.lineWords_append, hw.lineWords_eq]
  | words hg hw hc h ih =>
    rw [hg.lineWords_append, hw.lineWords_append (hc _ List.mem_cons_self).1, ih]

theorem Layout.lineFeed_not_mem (h : Layout line ws) : '\n' ∉ line := by
  induction h with
  | gap hg => exact hg.lineFeed_not_mem
  | comment hg ht =>
    simp only [List.mem_append, not_or]
    exact ⟨hg.lineFeed_not_mem, by decide, ht⟩
  | word hg hw =>
    simp only [List.mem_append, not_or]
    exact ⟨hg.lineFeed_not_mem, hw.lineFeed_not_mem⟩
  | words hg hw hc h ih =>
    simp only [List.mem_append, List.mem_cons, not_or]
    exact ⟨hg.lineFeed_not_mem, hw.lineFeed_not_mem, (hc _ List.mem_cons_self).2.symm, ih⟩

/-- a single line is read as a whole word list -/
theorem Layout.wordsOf_eq (h : Layout line ws) : wordsOf line = ws := by
  rw [wordsOf, List.splitOn_eq_singleton h.lineFeed_not_mem, List.flatMap_singleton,
    h.lineWords_eq]

end

/-! ## word lists -/

theorem wordsOf_intercalate (ls : List Text) :
    wordsOf (['\n'].intercalate ls) = ls.flatMap wordsOf := by
  induction ls with
  | nil => rfl
  | cons l ls ih =>
    cases ls with
    | nil =>
      show wordsOf (l ++ []) = wordsOf l ++ []
      rw [List.append_nil, List.append_nil]
    | cons l' ls =>
      rw [List.intercalate_cons_cons, List.flatMap_cons, ← ih, ← wordsOf_append]
      simp

namespace Vocabulary

theorem mem_words_parse (text w : Text) : w ∈ (parse text).words ↔ w ∈ wordsOf text :=
  WordSet.mem_ofList (wordsOf text) w

theorem mem_words_parse_intercalate (ls : List Text) (w : Text) :
    w ∈ (parse (['\n'].intercalate ls)).words ↔ ∃ l ∈ ls, w ∈ (parse l).words := by
  simp only [mem_words_parse, wordsOf_intercalate, List.mem_flatMap]

end Vocabulary

/-- the words of a word list can all stand in one; those of two texts with a line feed between them
are those of the one and of the other, so of the lines of a word list neither the order matters nor
how often one stands there; and from lines that were set with words, with white space and with
comments just these words are read -/
theorem word_list_read_by_lines :
    (∀ text, ∀ w ∈ (Vocabulary.parse text).words, ListWord w) ∧
      (∀ a b w, w ∈ (Vocabulary.parse (a ++ '\n' :: b)).words ↔
        w ∈ (Vocabulary.parse a).words ∨ w ∈ (Vocabulary.parse b).words) ∧
      (∀ ls ls' : List Text, (∀ l, l ∈ ls ↔ l ∈ ls') →
        Vocabulary.parse (['\n'].intercalate ls) = Vocabulary.parse (['\n'].intercalate ls')) ∧
      ∀ rows : List (Text × List Text), (∀ row ∈ rows, Layout row.1 row.2) →
        ∀ w, w ∈ (Vocabulary.parse (['\n'].intercalate (rows.map Prod.fst))).words ↔
          ∃ row ∈ rows, w ∈ row.2 := by
  refine ⟨?_, ?_, ?_, ?_⟩
  · intro text w hw
    exact listWord_of_mem_wordsOf ((Vocabulary.mem_words_parse text w).mp hw)
  · intro a b w
    rw [Vocabulary.mem_words_parse, wordsOf_append, List.mem_append, Vocabulary.mem_words_parse,
      Vocabulary.mem_words_parse]
  · intro ls ls' h
    have hw : (Vocabulary.parse (['\n'].intercalate ls)).words =
        (Vocabulary.parse (['\n'].intercalate ls')).words := by
      refine WordSet.ext_mem fun w => ?_
      simp only [Vocabulary.mem_words_parse_intercalate, h]
    exact congrArg (fun words => (⟨words, Vocabulary.usualNull, Vocabulary.usualBooleans⟩ :
      Vocabulary)) hw
  · intro rows h w
    rw [Vocabulary.mem_words_parse_intercalate]
    simp only [Vocabulary.mem_words_parse]
    constructor
    · rintro ⟨l, hl, hw⟩
      obtain ⟨row, hr, rfl⟩ := List.mem_map.mp hl
      exact ⟨row, hr, (h row hr).wordsOf_eq ▸ hw⟩
    · rintro ⟨row, hr, hw⟩
      exact ⟨row.1, List.mem_map_of_mem hr, (h row hr).wordsOf_eq.symm ▸ hw⟩

/-- a word that ends in a slash, with a comment behind it, and a line that ends in a carriage
return -/
theorem word_list_read_by_lines_slash :
    let rows : List (Text × List Text) :=
      [([' ', 'a', '/', ' ', '/', '/', 'x'], [['a', '/']]), (['b', '\r'], [['b']])]
    (∀ row ∈ rows, Layout row.1 row.2) ∧
      ∀ w, w ∈ (Vocabulary.parse (['\n'].intercalate (rows.map Prod.fst))).words ↔
        ∃ row ∈ rows, w ∈ row.2 := by
  intro rows
  have hs : IsGap [' '] := by simp [IsGap, show isWhitespace ' ' = true by decide]
  have hr : IsGap ['\r'] := by simp [IsGap, show isWhitespace '\r' = true by decide]
  have hn : IsGap [] := List.forall_mem_nil _
  have ha : ListWord ['a', '/'] :=
    ⟨by decide, List.forall_mem_cons.mpr ⟨by decide, List.forall_mem_singleton.mpr (by decide)⟩,
      by decide⟩
  have hb : ListWord ['b'] := listWord_of_isIdentifier (by decide +kernel)
  have h : ∀ row ∈ rows, Layout row.1 row.2 :=
    List.forall_mem_cons.mpr ⟨.words hs ha hs (.comment hn (t := ['x']) (by decide)),
      List.forall_mem_singleton.mpr (.words hn hb hr (.gap hn))⟩
  exact ⟨h, word_list_read_by_lines.2.2.2 rows h⟩

end CurlyLex
