import CurlyLex.Proofs.Classes
import CurlyLex.Proofs.Grammar

/-!
# The texts of a state

Every state is open for texts of one language.

* `State.spellings`   the texts of a state that is open for a few texts only;
* `State.language`    the language of a state;
* `Open q b`          the text `b` may be open in the state `q`: it belongs to the language of the
                      state, or it is malformed, that is a text of another state and a character
                      that spoils it.

The table of moves leads from language to language (`Open.concat`), and every text of a language
leads a fresh scanner to its state, without a piece on the way (`Open.run`).
-/

open scoped Computability

namespace CurlyLex

open Grammar

/-- the texts of a state that is open for a few texts only -/
def State.spellings : State → List String
  | .idle => [""]
  | .zero => ["0"]
  | .charOpen => ["'"]
  | .charEscape => ["'\\"]
  | .dot => ["."]
  | .dotDot => [".."]
  | .slash => ["/"]
  | .greater => [">"]
  | .greaterGreater => [">>"]
  | .less => ["<"]
  | .ampersand => ["&"]
  | .bar => ["|"]
  | .colon => [":"]
  | .plus => ["+"]
  | .minus => ["-"]
  | .extensible => ["^", "!", "*", "=", "%", "++", "--", "<<", ">>>"]
  | .assignment =>
    ["/=", ">>=", "&=", "|=", "+=", "-=", "^=", "!=", "*=", "==", "%=", "++=", "--=", "<<=",
     ">>>="]
  | _ => []

/-- the texts that are open in a state and well-formed so far -/
def State.language : State → Language Char
  | .blank => Grammar.whitespace
  | .word => Grammar.word
  -- numbers
  | .decimal => Grammar.decimal
  | .binary => Grammar.binary
  | .hex => Grammar.hex
  | .longInt => digits * oneOf isLongSuffix
  | .fraction => Grammar.fraction
  | .suffixed =>
    Grammar.fraction * oneOf isFloatSuffix +
      (Grammar.decimal + Grammar.binary) * oneOf isShortSuffix
  -- literals
  | .charFull => charContent
  | .string => stringContent
  | .stringEscape => stringContent * just '\\'
  -- comments
  | .lineComment => Grammar.lineComment
  | .blockComment => opened blockText
  | .blockStar => opened blockStarred
  | q => spelled q.spellings

/-- the text `b` may be open in the state `q` -/
inductive Open : State → Text → Prop where
  | wellFormed {q : State} {b : Text} (h : b ∈ q.language) : Open q b
  | spoiled {q : State} {b : Text} {c : Char} (h : b ∈ q.language)
      (hc : move q c = .stay .malformed) : Open .malformed (b ++ [c])

/-! ## the rules of the table -/

section
variable {q r : State} {c : Char}

theorem eq_malformed_of_afterComplete {spoils : Char → Bool} {shape : Shape}
    (h : afterComplete spoils shape c = .stay r) : r = .malformed := by
  unfold afterComplete at h
  split at h <;> cases h
  rfl

theorem eq_malformed_of_afterWord (h : afterWord c = .stay r) : r = .malformed := by
  unfold afterWord at h
  split at h <;> cases h
  rfl

theorem eq_of_afterBackslash (h : afterBackslash q c = .stay r) (hr : r ≠ .malformed) :
    r = q ∧ isEscape c = true := by
  unfold afterBackslash at h
  split at h <;> cases h
  · next hc => exact ⟨rfl, hc⟩
  · exact absurd rfl hr

theorem eq_of_radixDigit {p : Char → Bool} (h : radixDigit p q c = .stay r)
    (hr : r ≠ .malformed) :
    (r = q ∧ (p c || c == '_') = true) ∨ (r = .longInt ∧ isLongSuffix c = true) ∨
      (r = .suffixed ∧ p c = false ∧ isShortSuffix c = true) := by
  unfold radixDigit at h
  split at h
  · next hc =>
    cases h
    exact Or.inl ⟨rfl, hc⟩
  · next hp =>
    split at h
    · next hc =>
      cases h
      exact Or.inr (Or.inl ⟨rfl, hc⟩)
    · split at h
      · next hc =>
        cases h
        rw [Bool.not_eq_true, Bool.or_eq_false_iff] at hp
        exact Or.inr (Or.inr ⟨rfl, hp.1, by simpa [isShortSuffix] using hc⟩)
      · exact absurd (eq_malformed_of_afterComplete h) hr

end

theorem isHexDigit_of_isShortSuffix {c : Char} (h : isShortSuffix c = true) :
    isHexDigit c = true := by
  simp only [isShortSuffix, List.contains_eq_mem, List.mem_cons, List.not_mem_nil, or_false,
    decide_eq_true_eq] at h
  rcases h with rfl | rfl <;> decide

theorem mem_language_of_mem_spelled {q : State} {b : Text} (h : b ∈ spelled q.spellings) :
    b ∈ q.language := by
  cases q <;> try exact h
  all_goals exact absurd h List.not_mem_nil

/-! ## a first character -/

theorem singleton_mem_language_of_start {r : State} {c : Char} (h : start c = .stay r)
    (hr : r ≠ .malformed) : [] ++ [c] ∈ r.language := by
  unfold start at h
  split_ifs at h with h1 h2 h3 h4 h5
  · cases h
    rw [h1]
    exact mem_language_of_mem_spelled (by decide)
  · cases h
    exact (concat_mem_whitespace [] c).mpr ⟨Or.inl rfl, h2⟩
  · cases h
    exact (concat_mem_word [] c).mpr (Or.inl ⟨rfl, h3⟩)
  · cases h
    rw [h4]
    exact mem_language_of_mem_spelled (by decide)
  · cases h
    exact (concat_mem_decimal [] c).mpr ⟨Or.inl ⟨rfl, h4⟩, h5⟩
  · split at h
    case h_2 =>
      cases h
      exact (concat_mem_stringContent [] '"').mpr (Or.inl ⟨rfl, rfl⟩)
    case h_18 =>
      split at h <;> cases h
      exact absurd rfl hr
    all_goals cases h
    all_goals exact mem_language_of_mem_spelled (by decide)

/-! ## a later character -/

section
variable {q r : State} {b : Text} {c : Char} (hb : b ∈ q.language) (h : move q c = .stay r)
  (hr : r ≠ .malformed)
include hb h hr

theorem concat_mem_language_of_operator (hq : q.pending = some .operator) :
    b ++ [c] ∈ r.language := by
  cases q <;> cases hq
  case slash =>
    obtain rfl := List.mem_singleton.mp hb
    rw [move] at h
    split_ifs at h with h1 h2 h3
    · cases h
      exact (concat_mem_lineComment ['/'] c).mpr (Or.inl ⟨rfl, h1⟩)
    · cases h
      exact (concat_mem_opened_blockText ['/'] c).mpr (Or.inl ⟨rfl, h2⟩)
    · cases h
      rw [h3]
      exact mem_language_of_mem_spelled (by decide)
    · exact absurd (eq_malformed_of_afterComplete h) hr
  case extensible =>
    rw [move] at h
    split_ifs at h with h1
    · cases h
      rw [h1]
      have he : ∀ t ∈ State.extensible.spellings.map String.toList,
          t ++ ['='] ∈ spelled State.assignment.spellings := by decide
      exact he b hb
    · exact absurd (eq_malformed_of_afterComplete h) hr
  case assignment => exact absurd (eq_malformed_of_afterComplete h) hr
  -- the others hold one text, and two characters at most extend it
  all_goals
    obtain rfl := List.mem_singleton.mp hb
    simp only [move, afterComplete, afterOperator, doubledOrAssign, increment] at h
    split_ifs at h <;> cases h
  all_goals try exact absurd rfl hr
  all_goals
    subst c
    exact mem_language_of_mem_spelled (by decide)

theorem concat_mem_language_of_int (hq : q.pending = some .int) : b ++ [c] ∈ r.language := by
  cases q <;> cases hq
  case zero =>
    rw [move] at h
    split_ifs at h with h1 h2 h3 h4
    · cases h
      exact (concat_mem_binary b c).mpr (Or.inl ⟨hb, h1⟩)
    · cases h
      exact (concat_mem_hex b c).mpr (Or.inl ⟨hb, h2⟩)
    · cases h
      exact (concat_mem_fraction b c).mpr (Or.inl ⟨Or.inl hb, h3⟩)
    · cases h
      exact (concat_mem_mul_oneOf _ _ b c).mpr ⟨Or.inl (Or.inl (Or.inl hb)), h4⟩
    · exact absurd (eq_malformed_of_afterComplete h) hr
  case decimal =>
    rw [move] at h
    split_ifs at h with h1 h2 h3 h4
    · cases h
      exact (concat_mem_decimal b c).mpr ⟨Or.inr hb, h1⟩
    · cases h
      exact (concat_mem_fraction b c).mpr (Or.inl ⟨Or.inr hb, h2⟩)
    · cases h
      exact (concat_mem_mul_oneOf _ _ b c).mpr ⟨Or.inl (Or.inl (Or.inr hb)), h3⟩
    · cases h
      exact Or.inr ((concat_mem_mul_oneOf _ _ b c).mpr
        ⟨Or.inl hb, by simpa [isShortSuffix] using h4⟩)
    · exact absurd (eq_malformed_of_afterComplete h) hr
  case binary =>
    rcases eq_of_radixDigit h hr with ⟨rfl, hc⟩ | ⟨rfl, hc⟩ | ⟨rfl, _, hc⟩
    · exact (concat_mem_binary b c).mpr (Or.inr ⟨hb, hc⟩)
    · exact (concat_mem_mul_oneOf _ _ b c).mpr ⟨Or.inl (Or.inr hb), hc⟩
    · exact Or.inr ((concat_mem_mul_oneOf _ _ b c).mpr ⟨Or.inr hb, hc⟩)
  case hex =>
    rcases eq_of_radixDigit h hr with ⟨rfl, hc⟩ | ⟨rfl, hc⟩ | ⟨rfl, hn, hc⟩
    · exact (concat_mem_hex b c).mpr (Or.inr ⟨hb, hc⟩)
    · exact (concat_mem_mul_oneOf _ _ b c).mpr ⟨Or.inr hb, hc⟩
    · rw [isHexDigit_of_isShortSuffix hc] at hn
      cases hn
  case longInt => exact absurd (eq_malformed_of_afterComplete h) hr

theorem concat_mem_language_of_float (hq : q.pending = some .float) : b ++ [c] ∈ r.language := by
  cases q <;> cases hq
  case suffixed => exact absurd (eq_malformed_of_afterComplete h) hr
  case fraction =>
    rw [move] at h
    split_ifs at h with h1 h2 h3
    · cases h
      exact (concat_mem_fraction b c).mpr (Or.inr ⟨Or.inr hb, h1⟩)
    · cases h
      exact Or.inl ((concat_mem_mul_oneOf _ _ b c).mpr ⟨hb, h2⟩)
    · cases h
      exact absurd rfl hr
    · exact absurd (eq_malformed_of_afterComplete h) hr

theorem concat_mem_language_of_error (hq : q.pending = some .error) : b ++ [c] ∈ r.language := by
  cases q <;> cases hq
  case malformed => cases h
  case charOpen =>
    obtain rfl := List.mem_singleton.mp hb
    rw [move] at h
    split_ifs at h with h1 h2
    · cases h
      rw [h1]
      exact mem_language_of_mem_spelled (by decide)
    · cases h
      exact (concat_mem_charContent _ c).mpr (Or.inl ⟨rfl, h1, by simpa using h2⟩)
  case charEscape =>
    obtain rfl := List.mem_singleton.mp hb
    obtain ⟨rfl, hc⟩ := eq_of_afterBackslash h hr
    exact (concat_mem_charContent _ c).mpr (Or.inr ⟨rfl, hc⟩)
  case charFull =>
    rw [move] at h
    split_ifs at h
    · cases h
    · cases h
      exact absurd rfl hr
  case string =>
    rw [move] at h
    split_ifs at h with h1 h2
    · cases h
    · cases h
      exact (concat_mem_mul_just _ b c '\\').mpr ⟨hb, h2⟩
    · cases h
      exact (concat_mem_stringContent b c).mpr (Or.inr (Or.inl ⟨hb, h1, h2⟩))
  case stringEscape =>
    obtain ⟨rfl, hc⟩ := eq_of_afterBackslash h hr
    exact (concat_mem_stringContent b c).mpr (Or.inr (Or.inr ⟨hb, hc⟩))
  case blockComment =>
    rw [move] at h
    split_ifs at h with h1
    · cases h
      exact (concat_mem_opened_blockStarred b c).mpr ⟨Or.inl hb, h1⟩
    · cases h
      exact (concat_mem_opened_blockText b c).mpr (Or.inr ⟨Or.inl hb, h1⟩)
  case blockStar =>
    rw [move] at h
    split_ifs at h with h1 h2
    · cases h
    · cases h
      exact (concat_mem_opened_blockStarred b c).mpr ⟨Or.inr hb, h2⟩
    · cases h
      exact (concat_mem_opened_blockText b c).mpr (Or.inr ⟨Or.inr ⟨hb, h1⟩, h2⟩)

theorem concat_mem_language_of_separator (hq : q.pending = some .separator) :
    b ++ [c] ∈ r.language := by
  cases q <;> cases hq
  case dot =>
    obtain rfl := List.mem_singleton.mp hb
    rw [move, afterPoint] at h
    split_ifs at h with h1 h2
    · cases h
      exact (concat_mem_fraction _ c).mpr (Or.inr ⟨Or.inl rfl, h1⟩)
    · cases h
      rw [h2]
      exact mem_language_of_mem_spelled (by decide)
  case dotDot =>
    rw [move] at h
    split_ifs at h
    cases h

/-- what the table makes of a well-formed text and one more character is well-formed in the new
state -/
theorem concat_mem_language : b ++ [c] ∈ r.language := by
  cases hq : q.pending with
  | none =>
    obtain rfl := (State.pending_eq_none_iff q).mp hq
    obtain rfl := List.mem_singleton.mp hb
    exact singleton_mem_language_of_start (Move.join.inj h) hr
  | some shape =>
    cases shape with
    | operator => exact concat_mem_language_of_operator hb h hr hq
    | int => exact concat_mem_language_of_int hb h hr hq
    | float => exact concat_mem_language_of_float hb h hr hq
    | error => exact concat_mem_language_of_error hb h hr hq
    | whitespace =>
      cases q <;> cases hq
      rw [move] at h
      split_ifs at h with h1
      cases h
      exact (concat_mem_whitespace b c).mpr ⟨Or.inr hb, h1⟩
    | word =>
      cases q <;> cases hq
      rw [move] at h
      split_ifs at h with h1
      · cases h
        exact (concat_mem_word b c).mpr (Or.inr ⟨hb, h1⟩)
      · exact absurd (eq_malformed_of_afterWord h) hr
    | comment =>
      cases q <;> cases hq
      rw [move] at h
      split_ifs at h with h1
      cases h
      exact (concat_mem_lineComment b c).mpr (Or.inr ⟨hb, by simpa using h1⟩)
    | separator => exact concat_mem_language_of_separator hb h hr hq
    | char => cases q <;> cases hq
    | string => cases q <;> cases hq

end

/-! ## a fresh scanner on a text of a language -/

theorem run_of_mem_spelled (q : State) :
    ∀ t ∈ q.spellings.map String.toList, Scanner.fresh.run t = ([], ⟨q, t.reverse⟩) := by
  cases q <;> decide +kernel

theorem move_of_isLongSuffix {q : State} {c : Char}
    (hq : q ∈ [State.zero, .decimal, .binary, .hex]) (hc : isLongSuffix c = true) :
    move q c = .stay .longInt := by
  have hm : ∀ q ∈ [State.zero, .decimal, .binary, .hex],
      move q 'l' = .stay .longInt ∧ move q 'L' = .stay .longInt := by decide
  have hl : c = 'l' ∨ c = 'L' := by simpa [isLongSuffix] using hc
  rcases hl with rfl | rfl
  · exact (hm q hq).1
  · exact (hm q hq).2

theorem move_of_isShortSuffix {q : State} {c : Char} (hq : q ∈ [State.decimal, .binary])
    (hc : isShortSuffix c = true) : move q c = .stay .suffixed := by
  have hm : ∀ q ∈ [State.decimal, .binary],
      move q 'f' = .stay .suffixed ∧ move q 'F' = .stay .suffixed := by decide
  have hf : c = 'f' ∨ c = 'F' := by simpa [isShortSuffix] using hc
  rcases hf with rfl | rfl
  · exact (hm q hq).1
  · exact (hm q hq).2

theorem move_of_isFloatSuffix {c : Char} (hc : isFloatSuffix c = true) :
    move .fraction c = .stay .suffixed := by
  have hf : c = 'f' ∨ c = 'F' ∨ c = 'd' ∨ c = 'D' := by simpa [isFloatSuffix] using hc
  have hd : isDigit c = false := by rcases hf with rfl | rfl | rfl | rfl <;> decide
  rw [move, hd, if_neg Bool.false_ne_true, if_pos hc]

section
variable {q : State} {b : Text} {c : Char} (h : b ++ [c] ∈ q.language) (hq : q.spellings = [])
include h hq

theorem exists_move_of_int (hp : q.pending = some .int) :
    ∃ p : State, b ∈ p.language ∧ move p c = .stay q := by
  cases q <;> cases hp <;> try cases hq
  case decimal =>
    rcases (concat_mem_decimal b c).mp h with ⟨⟨rfl, h0⟩ | hb, hc⟩
    · have hm : move .idle c = .stay .decimal := congrArg Move.join (start_of_isDigit hc h0)
      exact ⟨.idle, List.mem_singleton_self _, hm⟩
    · have hm : move .decimal c = .stay .decimal := if_pos hc
      exact ⟨.decimal, hb, hm⟩
  case binary =>
    rcases (concat_mem_binary b c).mp h with ⟨hb, hc⟩ | ⟨hb, hc⟩
    · have hm : move .zero c = .stay .binary := if_pos hc
      exact ⟨.zero, hb, hm⟩
    · have hm : move .binary c = .stay .binary := if_pos hc
      exact ⟨.binary, hb, hm⟩
  case hex =>
    rcases (concat_mem_hex b c).mp h with ⟨hb, hc⟩ | ⟨hb, hc⟩
    · have hm : move .zero c = .stay .hex := by rcases hc with rfl | rfl <;> decide
      exact ⟨.zero, hb, hm⟩
    · have hm : move .hex c = .stay .hex := if_pos hc
      exact ⟨.hex, hb, hm⟩
  case longInt =>
    obtain ⟨hb, hc⟩ := (concat_mem_mul_oneOf _ _ b c).mp h
    rcases hb with ((hb | hb) | hb) | hb
    · exact ⟨.zero, hb, move_of_isLongSuffix (by decide) hc⟩
    · exact ⟨.decimal, hb, move_of_isLongSuffix (by decide) hc⟩
    · exact ⟨.binary, hb, move_of_isLongSuffix (by decide) hc⟩
    · exact ⟨.hex, hb, move_of_isLongSuffix (by decide) hc⟩

theorem exists_move_of_float (hp : q.pending = some .float) :
    ∃ p : State, b ∈ p.language ∧ move p c = .stay q := by
  cases q <;> cases hp <;> try cases hq
  case fraction =>
    rcases (concat_mem_fraction b c).mp h with ⟨hb | hb, rfl⟩ | ⟨rfl | hb, hc⟩
    · have hm : move .zero '.' = .stay .fraction := by decide
      exact ⟨.zero, hb, hm⟩
    · have hm : move .decimal '.' = .stay .fraction := by decide
      exact ⟨.decimal, hb, hm⟩
    · have hm : move .dot c = .stay .fraction := if_pos hc
      exact ⟨.dot, List.mem_singleton_self _, hm⟩
    · have hm : move .fraction c = .stay .fraction := if_pos hc
      exact ⟨.fraction, hb, hm⟩
  case suffixed =>
    rcases h with h | h
    · obtain ⟨hb, hc⟩ := (concat_mem_mul_oneOf _ _ b c).mp h
      exact ⟨.fraction, hb, move_of_isFloatSuffix hc⟩
    · obtain ⟨hb, hc⟩ := (concat_mem_mul_oneOf _ _ b c).mp h
      rcases hb with hb | hb
      · exact ⟨.decimal, hb, move_of_isShortSuffix (by decide) hc⟩
      · exact ⟨.binary, hb, move_of_isShortSuffix (by decide) hc⟩

theorem exists_move_of_error (hp : q.pending = some .error) :
    ∃ p : State, b ∈ p.language ∧ move p c = .stay q := by
  cases q <;> cases hp <;> try cases hq
  case malformed => exact absurd h List.not_mem_nil
  case charFull =>
    rcases (concat_mem_charContent b c).mp h with ⟨rfl, h1, h2⟩ | ⟨rfl, hc⟩
    · have hm : move .charOpen c = .stay .charFull := by
        rw [move, if_neg h1, h2, if_neg Bool.false_ne_true]
      exact ⟨.charOpen, List.mem_singleton_self _, hm⟩
    · have hm : move .charEscape c = .stay .charFull := if_pos hc
      exact ⟨.charEscape, List.mem_singleton_self _, hm⟩
  case string =>
    rcases (concat_mem_stringContent b c).mp h with ⟨rfl, rfl⟩ | ⟨hb, h1, h2⟩ | ⟨hb, hc⟩
    · have hm : move .idle '"' = .stay .string := by decide +kernel
      exact ⟨.idle, List.mem_singleton_self _, hm⟩
    · have hm : move .string c = .stay .string := by rw [move, if_neg h1, if_neg h2]
      exact ⟨.string, hb, hm⟩
    · have hm : move .stringEscape c = .stay .string := if_pos hc
      exact ⟨.stringEscape, hb, hm⟩
  case stringEscape =>
    obtain ⟨hb, rfl⟩ := (concat_mem_mul_just _ b c '\\').mp h
    have hm : move .string '\\' = .stay .stringEscape := by decide
    exact ⟨.string, hb, hm⟩
  case blockComment =>
    rcases (concat_mem_opened_blockText b c).mp h with ⟨rfl, rfl⟩ | ⟨hb | ⟨hb, h1⟩, h2⟩
    · have hm : move .slash '*' = .stay .blockComment := by decide
      exact ⟨.slash, List.mem_singleton_self _, hm⟩
    · have hm : move .blockComment c = .stay .blockComment := if_neg h2
      exact ⟨.blockComment, hb, hm⟩
    · have hm : move .blockStar c = .stay .blockComment := by rw [move, if_neg h1, if_neg h2]
      exact ⟨.blockStar, hb, hm⟩
  case blockStar =>
    obtain ⟨hb | hb, rfl⟩ := (concat_mem_opened_blockStarred b c).mp h
    · have hm : move .blockComment '*' = .stay .blockStar := by decide
      exact ⟨.blockComment, hb, hm⟩
    · have hm : move .blockStar '*' = .stay .blockStar := by decide
      exact ⟨.blockStar, hb, hm⟩

/-- a text of a state that is open for many texts was made by one more character -/
theorem exists_move_of_concat_mem : ∃ p : State, b ∈ p.language ∧ move p c = .stay q := by
  cases hp : q.pending with
  | none =>
    obtain rfl := (State.pending_eq_none_iff q).mp hp
    cases hq
  | some shape =>
    cases shape with
    | int => exact exists_move_of_int h hq hp
    | float => exact exists_move_of_float h hq hp
    | error => exact exists_move_of_error h hq hp
    | whitespace =>
      cases q <;> cases hp
      rcases (concat_mem_whitespace b c).mp h with ⟨rfl | hb, hc⟩
      · have hm : move .idle c = .stay .blank := congrArg Move.join (start_of_isWhitespace hc)
        exact ⟨.idle, List.mem_singleton_self _, hm⟩
      · have hm : move .blank c = .stay .blank := if_pos hc
        exact ⟨.blank, hb, hm⟩
    | word =>
      cases q <;> cases hp
      rcases (concat_mem_word b c).mp h with ⟨rfl, hc⟩ | ⟨hb, hc⟩
      · have hm : move .idle c = .stay .word := congrArg Move.join (start_of_isIdentStart hc)
        exact ⟨.idle, List.mem_singleton_self _, hm⟩
      · have hm : move .word c = .stay .word := if_pos hc
        exact ⟨.word, hb, hm⟩
    | comment =>
      cases q <;> cases hp
      rcases (concat_mem_lineComment b c).mp h with ⟨rfl, hc⟩ | ⟨hb, hc⟩
      · have hm : move .slash c = .stay .lineComment := if_pos hc
        exact ⟨.slash, List.mem_singleton_self _, hm⟩
      · have hm : move .lineComment c = .stay .lineComment := by
          rw [move, hc, if_neg Bool.false_ne_true]
        exact ⟨.lineComment, hb, hm⟩
    | operator =>
      cases q <;> cases hp
      all_goals cases hq
    | separator =>
      cases q <;> cases hp
      all_goals cases hq
    | char => cases q <;> cases hp
    | string => cases q <;> cases hp

end

theorem mem_spelled_of_mem_language {q : State} {b : Text} (h : b ∈ q.language)
    (hq : q.spellings ≠ []) : b ∈ spelled q.spellings := by
  cases q <;> try exact h
  all_goals exact absurd rfl hq

theorem eq_idle_of_nil_mem_language {q : State} (h : [] ∈ q.language) : q = .idle := by
  cases q
  case idle => rfl
  all_goals
    exfalso
    revert h
    simp [State.language, State.spellings, mem_spelled, whitespace, word, zero, decimal, binary,
      hex, digits, fraction, charContent, stringContent, lineComment, opened, nil_mem_mul,
      not_nil_mem_oneOf, not_nil_mem_just, Language.mem_add, -add_eq_sup]

/-- a text of a language leads a fresh scanner to the state, without a piece on the way -/
theorem run_of_mem_language {q : State} {b : Text} (h : b ∈ q.language) :
    Scanner.fresh.run b = ([], ⟨q, b.reverse⟩) := by
  induction b using List.reverseRecOn generalizing q with
  | nil =>
    obtain rfl := eq_idle_of_nil_mem_language h
    rfl
  | append_singleton b c ih =>
    by_cases hq : q.spellings = []
    · obtain ⟨p, hp, hm⟩ := exists_move_of_concat_mem h hq
      rw [Scanner.run_append, ih hp, Scanner.run_singleton, Scanner.feed_of_join hm,
        List.reverse_concat]
      rfl
    · exact run_of_mem_spelled q _ (mem_spelled_of_mem_language h hq)

/-! ## open texts -/

theorem Open.concat {q r : State} {b : Text} {c : Char} (hb : Open q b)
    (h : move q c = .stay r) : Open r (b ++ [c]) := by
  cases hb with
  | wellFormed hb =>
    by_cases hr : r = .malformed
    · subst hr
      exact .spoiled hb h
    · exact .wellFormed (concat_mem_language hb h hr)
  | spoiled hb hc => cases h

theorem Open.run {q : State} {b : Text} (hb : Open q b) :
    Scanner.fresh.run b = ([], ⟨q, b.reverse⟩) := by
  cases hb with
  | wellFormed hb => exact run_of_mem_language hb
  | @spoiled q b c hb hc =>
    rw [Scanner.run_append, run_of_mem_language hb, Scanner.run_singleton,
      Scanner.feed_of_join hc, List.reverse_concat]
    rfl

theorem Open.mem_language {q : State} {b : Text} (hb : Open q b) (hq : q ≠ .malformed) :
    b ∈ q.language := by
  cases hb with
  | wellFormed hb => exact hb
  | spoiled _ _ => exact absurd rfl hq

theorem Open.mem_language_of_done {q : State} {b : Text} {c : Char} {shape : Shape}
    (hb : Open q b) (h : move q c = .done shape) : b ∈ q.language := by
  apply hb.mem_language
  intro e
  subst e
  cases h

theorem open_idle : Open .idle [] := .wellFormed (List.mem_singleton_self _)

/-- only a scanner between pieces has no open text -/
theorem Open.eq_nil_iff {q : State} {b : Text} (hb : Open q b) : b = [] ↔ q = .idle := by
  refine ⟨?_, ?_⟩
  · intro e
    subst e
    exact (congrArg (fun x => x.2.state) hb.run).symm
  · intro e
    subst e
    cases hb with
    | wellFormed hb => exact List.mem_singleton.mp hb

end CurlyLex
