import CurlyLex.Proofs.Neighbours

/-!
# Malformed texts

A text is malformed if it is open and its last character spoils it.  Which texts these are is said
here without the table of moves.

* `foreign`            a character that begins nothing;
* `malformedWord`      a word and a character that neither continues nor ends it;
* `gluedNumber`        a number and a character that continues identifiers, if the two are no
                       number together;
* `malformedLiteral`   a literal with a backslash and no escape behind it, or a character literal
                       in which a second character stands where its closing quote should;
* `malformedOperator`  an operator that is not final and a further operator symbol, if the two are
                       no operator together and begin nothing else;
* `malformed`          all these, and a number with a second point;
* `open_malformed_iff` the texts that are open in the malformed state are those of `malformed`.

The table is opened once for numbers and once for operators (`State.IsNumber.move_cases`,
`move_cases_of_operator`): a character that does not go on with the text decides by one rule.
-/

open scoped Computability

namespace CurlyLex

namespace Grammar

def isForeign (c : Char) : Bool :=
  !(isWhitespace c || isIdentStart c || isDigit c || isOperator c || isSeparator c ||
    ['\'', '"'].contains c)

def foreign : Language Char := oneOf isForeign

def spoilsWord (c : Char) : Bool :=
  !(isIdentContinue c || isWhitespace c || isOperator c || isSeparator c)

def malformedWord : Language Char := word * oneOf spoilsWord

def number : Language Char := int + float

def gluedNumber : Language Char := {t | t ∈ number * oneOf isIdentContinue ∧ t ∉ number}

def malformedLiteral : Language Char :=
  (just '\'' * just '\\' + stringContent * just '\\') * oneOf (fun c => !isEscape c) +
    charContent * oneOf (· != '\'')

/-- the operators that a further operator symbol joins -/
def openOperator : Language Char := {t | t ∈ operator ∧ t ∉ spelled finalOperators}

/-- an operator and a symbol that make a separator or begin a comment -/
def symbolPairs : List String := ["::", "//", "/*"]

def malformedOperator : Language Char :=
  {t | t ∈ openOperator * oneOf isOperator ∧ t ∉ operator ∧ t ∉ spelled symbolPairs}

def malformed : Language Char :=
  foreign + malformedWord + (gluedNumber + fraction * just '.') + malformedLiteral +
    malformedOperator

theorem mem_malformed (t : Text) :
    t ∈ malformed ↔ t ∈ foreign ∨ t ∈ malformedWord ∨
      (t ∈ gluedNumber ∨ t ∈ fraction * just '.') ∨ t ∈ malformedLiteral ∨
        t ∈ malformedOperator := by
  simp only [malformed, Language.mem_add, or_assoc]

/-- the texts of a product that ends in one character -/
theorem mem_mul_oneOf (l : Language Char) (p : Char → Bool) (t : Text) :
    t ∈ l * oneOf p ↔ ∃ b ∈ l, ∃ c, p c = true ∧ t = b ++ [c] := by
  rw [Language.mem_mul]
  refine ⟨?_, ?_⟩
  · intro ht
    obtain ⟨b, hb, _, ⟨c, hc, rfl⟩, rfl⟩ := ht
    exact ⟨b, hb, c, hc, rfl⟩
  · intro ht
    obtain ⟨b, hb, c, hc, rfl⟩ := ht
    exact ⟨b, hb, [c], ⟨c, hc, rfl⟩, rfl⟩

end Grammar

open Grammar

section
variable {q : State} {b t : Text} {c : Char}

/-! ## a first character -/

theorem isForeign_of_start (h : start c = .stay .malformed) : isForeign c = true := by
  unfold start at h
  split_ifs at h with h1 h2 h3 h4 h5
  all_goals try cases h
  split at h
  -- the last case is that of none of the symbols by name
  case h_18 =>
    split_ifs at h with h6
    simp_all [isForeign, isOperator]
  all_goals cases h

theorem start_of_isForeign (h : isForeign c = true) : start c = .stay .malformed := by
  simp only [isForeign, Bool.not_eq_true', Bool.or_eq_false_iff] at h
  obtain ⟨⟨⟨⟨⟨hw, hi⟩, hd⟩, ho⟩, hs⟩, hq⟩ := h
  have h0 : c ≠ '0' := by
    intro e
    subst e
    cases hd
  have h1 : c ≠ '/' := by
    intro e
    subst e
    cases ho
  unfold start
  simp only [if_neg h1, hw, hi, if_neg h0, hd, Bool.false_eq_true, if_false]
  split
  case h_18 => rw [hs, if_neg Bool.false_ne_true]
  -- every symbol by name is of one of the classes
  case h_1 => cases hq
  case h_2 => cases hq
  case h_3 => cases hs
  all_goals cases ho

theorem open_of_mem_foreign (ht : t ∈ foreign) : Open .malformed t := by
  obtain ⟨c, hc, rfl⟩ := ht
  have hm : move .idle c = .stay .malformed := congrArg Move.join (start_of_isForeign hc)
  exact open_idle.concat hm

/-! ## words -/

theorem move_word_eq_malformed_iff : move .word c = .stay .malformed ↔ spoilsWord c = true := by
  rw [move, afterWord, spoilsWord]
  cases isIdentContinue c <;> cases isWhitespace c <;> cases isOperator c <;>
    cases isSeparator c <;> decide

theorem open_of_mem_malformedWord (ht : t ∈ malformedWord) : Open .malformed t := by
  obtain ⟨b, hb, c, hc, rfl⟩ := (mem_mul_oneOf _ _ _).mp ht
  have hq : b ∈ State.word.language := hb
  exact .spoiled hq (move_word_eq_malformed_iff.mpr hc)

theorem afterComplete_eq_malformed_iff {spoils : Char → Bool} {shape : Shape} :
    afterComplete spoils shape c = .stay .malformed ↔ spoils c = true := by
  unfold afterComplete
  split <;> simp_all

/-! ## numbers -/

/-- is the open text a number if the input ends now? -/
def State.IsNumber (q : State) : Prop := q.pending = some .int ∨ q.pending = some .float

theorem State.not_isNumber_malformed : ¬ State.IsNumber .malformed := by
  intro h
  rcases h with h | h <;> cases h

theorem mem_number_of_isNumber (hb : b ∈ q.language) (hq : q.IsNumber) : b ∈ number := by
  rcases hq with hq | hq
  · exact Or.inl (mem_int_of_pending hb hq)
  · exact Or.inr (mem_float_of_pending hb hq)

theorem exists_isNumber_of_mem_number (hb : b ∈ number) :
    ∃ q : State, q.IsNumber ∧ b ∈ q.language := by
  rw [number, int, float, mul_one_add, mul_one_add] at hb
  rcases hb with ((((hb | hb) | hb) | hb) | hb) | ((hb | hb) | hb)
  · exact ⟨.zero, Or.inl rfl, hb⟩
  · exact ⟨.decimal, Or.inl rfl, hb⟩
  · exact ⟨.binary, Or.inl rfl, hb⟩
  · exact ⟨.hex, Or.inl rfl, hb⟩
  · exact ⟨.longInt, Or.inl rfl, hb⟩
  · exact ⟨.fraction, Or.inr rfl, hb⟩
  · exact ⟨.suffixed, Or.inr rfl, Or.inl hb⟩
  · exact ⟨.suffixed, Or.inr rfl, Or.inr hb⟩

/-- a malformed text is no number: it is cut into an error -/
theorem Open.notMem_number (ht : Open .malformed t) : t ∉ number := by
  intro h
  have hc : cut t = [⟨.error, t⟩] := ht.cut_eq
  rcases h with h | h
  · have hi : cut t = [⟨.int, t⟩] := cut_of_mem_language h
    rw [hc] at hi
    cases hi
  · have hf : cut t = [⟨.float, t⟩] := cut_of_mem_language h
    rw [hc] at hf
    cases hf

/-- a character that neither belongs to a number nor is a second point decides by one rule -/
theorem State.IsNumber.move_cases (hq : q.IsNumber) (c : Char) :
    (∃ r : State, r.IsNumber ∧ move q c = .stay r) ∨ (q = .fraction ∧ c = '.') ∨
      ∃ shape, q.pending = some shape ∧ move q c = afterNumber shape c := by
  rcases hq with hq | hq
  all_goals cases q <;> cases hq
  case inl.longInt => exact Or.inr (Or.inr ⟨.int, rfl, rfl⟩)
  case inr.suffixed => exact Or.inr (Or.inr ⟨.float, rfl, rfl⟩)
  all_goals
    simp only [move, radixDigit]
    split_ifs
    all_goals simp [*, State.IsNumber, State.pending]

theorem concat_mem_of_isNumber (hb : b ∈ q.language) (h : move q c = .stay .malformed)
    (hq : q.IsNumber) : b ++ [c] ∈ gluedNumber ∨ b ++ [c] ∈ fraction * just '.' := by
  rcases hq.move_cases c with ⟨r, hr, hm⟩ | ⟨rfl, rfl⟩ | ⟨shape, -, hm⟩
  · obtain rfl : r = .malformed := by
      rw [hm] at h
      cases h
      rfl
    exact absurd hr State.not_isNumber_malformed
  · exact Or.inr ((concat_mem_mul_just _ b '.' '.').mpr ⟨hb, rfl⟩)
  · have ht : Open .malformed (b ++ [c]) := .spoiled hb h
    have hn : b ∈ number := mem_number_of_isNumber hb hq
    have hc : isIdentContinue c = true := by
      rw [hm] at h
      exact afterComplete_eq_malformed_iff.mp h
    exact Or.inl ⟨(concat_mem_mul_oneOf _ _ b c).mpr ⟨hn, hc⟩, ht.notMem_number⟩

theorem open_of_mem_gluedNumber (ht : t ∈ gluedNumber) : Open .malformed t := by
  obtain ⟨hm, hn⟩ := ht
  obtain ⟨b, hb, c, hc, rfl⟩ := (mem_mul_oneOf _ _ _).mp hm
  obtain ⟨q, hq, hb⟩ := exists_isNumber_of_mem_number hb
  rcases hq.move_cases c with ⟨r, hr, hm⟩ | ⟨rfl, rfl⟩ | ⟨shape, -, hm⟩
  · -- with such a character the text would be a number again
    have hs : r ≠ .malformed := by
      intro e
      subst e
      exact State.not_isNumber_malformed hr
    exact absurd (mem_number_of_isNumber (concat_mem_language hb hm hs) hr) hn
  · exact .spoiled hb (by decide)
  · rw [afterNumber, afterComplete_eq_malformed_iff.mpr hc] at hm
    exact .spoiled hb hm

theorem open_of_mem_fraction_point (ht : t ∈ fraction * just '.') : Open .malformed t := by
  obtain ⟨b, hb, rfl⟩ := exists_concat_of_mem_mul_just ht
  have hq : b ∈ State.fraction.language := hb
  exact .spoiled hq (by decide)

/-! ## literals -/

theorem afterBackslash_eq_malformed_iff (hq : q ≠ .malformed) :
    afterBackslash q c = .stay .malformed ↔ isEscape c = false := by
  unfold afterBackslash
  split <;> simp_all

theorem concat_mem_malformedLiteral (hb : b ∈ q.language) (h : move q c = .stay .malformed)
    (hq : q.pending = some .error) : b ++ [c] ∈ malformedLiteral := by
  cases q <;> cases hq
  case malformed => cases h
  case charEscape =>
    obtain rfl := List.mem_singleton.mp hb
    have hc : isEscape c = false := (afterBackslash_eq_malformed_iff (by decide)).mp h
    have hm : "'\\".toList ∈ just '\'' * just '\\' := (mem_just_mul_just _ _ _).mpr rfl
    exact Or.inl ((concat_mem_mul_oneOf _ _ _ c).mpr ⟨Or.inl hm, by rw [hc, Bool.not_false]⟩)
  case stringEscape =>
    have hc : isEscape c = false := (afterBackslash_eq_malformed_iff (by decide)).mp h
    exact Or.inl ((concat_mem_mul_oneOf _ _ b c).mpr ⟨Or.inr hb, by rw [hc, Bool.not_false]⟩)
  case charFull =>
    rw [move] at h
    split_ifs at h with hc
    · cases h
    · exact Or.inr ((concat_mem_mul_oneOf _ _ b c).mpr ⟨hb, bne_iff_ne.mpr hc⟩)
  all_goals
    rw [move] at h
    split_ifs at h <;> cases h

theorem open_of_mem_malformedLiteral (ht : t ∈ malformedLiteral) : Open .malformed t := by
  rcases ht with ht | ht
  · obtain ⟨b, hb, c, hc, rfl⟩ := (mem_mul_oneOf _ _ _).mp ht
    rw [Bool.not_eq_true'] at hc
    rcases hb with hb | hb
    · have hq : b ∈ State.charEscape.language := by
        rw [(mem_just_mul_just _ _ _).mp hb]
        exact mem_language_of_mem_spelled (by decide)
      exact .spoiled hq ((afterBackslash_eq_malformed_iff (by decide)).mpr hc)
    · have hq : b ∈ State.stringEscape.language := hb
      exact .spoiled hq ((afterBackslash_eq_malformed_iff (by decide)).mpr hc)
  · obtain ⟨b, hb, c, hc, rfl⟩ := (mem_mul_oneOf _ _ _).mp ht
    have hq : b ∈ State.charFull.language := hb
    have hm : move .charFull c = .stay .malformed := if_neg (bne_iff_ne.mp hc)
    exact .spoiled hq hm

/-! ## operators -/

theorem mem_spelled_of_operator (hb : b ∈ q.language) (hq : q.pending = some .operator) :
    b ∈ spelled q.spellings := by
  apply mem_spelled_of_mem_language hb
  cases q <;> cases hq
  all_goals decide

/-- the operators that are open in some state are those that are not final -/
theorem mem_openOperator_iff :
    b ∈ openOperator ↔ ∃ q : State, q.pending = some .operator ∧ b ∈ q.language := by
  refine ⟨?_, ?_⟩
  · intro h
    obtain ⟨ho, hf⟩ := h
    have hs : ∀ t ∈ operators.map String.toList, t ∉ spelled finalOperators →
        ∃ q ∈ State.all, q.pending = some .operator ∧ t ∈ spelled q.spellings := by
      decide +kernel
    obtain ⟨q, -, hq, hb⟩ := hs b ho hf
    exact ⟨q, hq, mem_language_of_mem_spelled hb⟩
  · intro h
    obtain ⟨q, hq, hb⟩ := h
    refine ⟨mem_operator_of_pending hb hq, ?_⟩
    have hs : ∀ q ∈ State.all, q.pending = some .operator →
        ∀ t ∈ q.spellings.map String.toList, t ∉ spelled finalOperators := by decide +kernel
    exact hs q q.mem_all hq b (mem_spelled_of_operator hb hq)

/-- a symbol that neither extends an operator nor completes one nor opens a comment decides by one
rule -/
theorem move_cases_of_operator (hq : q.pending = some .operator) (c : Char) :
    (∃ r : State, r.pending = some .operator ∧ move q c = .stay r) ∨
      (∃ shape : Shape, move q c = .done shape) ∨ (q = .slash ∧ (c = '/' ∨ c = '*')) ∨
      move q c = afterOperator c := by
  cases q <;> cases hq
  case assignment => exact Or.inr (Or.inr (Or.inr rfl))
  all_goals
    simp only [move, doubledOrAssign, increment]
    split_ifs
    all_goals simp [*, State.pending]

theorem concat_mem_spelled_of_done {shape : Shape} (hb : b ∈ q.language)
    (hq : q.pending = some .operator) (h : move q c = .done shape) :
    b ++ [c] ∈ operator ∨ b ++ [c] ∈ spelled symbolPairs := by
  rcases mem_moves_of_done h with hm | hm
  · have hd : ∀ x ∈ delimiterMoves, x.1.pending ≠ some .operator := by decide
    exact absurd hq (hd _ hm)
  · have hs : ∀ x ∈ symbolMoves, x.1.pending = some .operator →
        ∀ t ∈ x.1.spellings.map String.toList,
          t ++ [x.2.1] ∈ spelled operators ∨ t ++ [x.2.1] ∈ spelled symbolPairs := by decide
    exact hs _ hm hq b (mem_spelled_of_operator hb hq)

/-- a malformed text is not spelled out anywhere -/
theorem Open.notMem_spelled (ht : Open .malformed t) :
    t ∉ operator ∧ t ∉ spelled symbolPairs := by
  have hs : ∀ l ∈ [operators, symbolPairs], ∀ t ∈ l.map String.toList,
      (Scanner.fresh.run t).2.state ≠ .malformed := by decide +kernel
  have hr : (Scanner.fresh.run t).2.state = .malformed := by rw [ht.run]
  exact ⟨fun h => hs operators (by decide) t h hr, fun h => hs symbolPairs (by decide) t h hr⟩

theorem isOperator_of_move_malformed (hq : q.pending = some .operator)
    (h : move q c = .stay .malformed) : isOperator c = true := by
  rcases move_cases_of_operator hq c with ⟨r, hr, hm⟩ | ⟨shape, hm⟩ | ⟨-, hc⟩ | hm
  · rw [hm] at h
    cases h
    cases hr
  · rw [hm] at h
    cases h
  · rcases hc with rfl | rfl
    all_goals rfl
  · rw [hm] at h
    exact afterComplete_eq_malformed_iff.mp h

/-- a further operator symbol spoils an operator unless the two are spelled out somewhere -/
theorem move_eq_malformed_of_isOperator (hb : b ∈ q.language) (hq : q.pending = some .operator)
    (hc : isOperator c = true) (ho : b ++ [c] ∉ operator) (hp : b ++ [c] ∉ spelled symbolPairs) :
    move q c = .stay .malformed := by
  rcases move_cases_of_operator hq c with ⟨r, hr, hm⟩ | ⟨shape, hm⟩ | ⟨rfl, hd⟩ | hm
  · have hs : r ≠ .malformed := by
      intro e
      subst e
      cases hr
    exact absurd (mem_operator_of_pending (concat_mem_language hb hm hs) hr) ho
  · rcases concat_mem_spelled_of_done hb hq hm with ht | ht
    · exact absurd ht ho
    · exact absurd ht hp
  · obtain rfl := List.mem_singleton.mp hb
    exfalso
    apply hp
    rcases hd with rfl | rfl
    all_goals decide
  · rw [hm]
    exact afterComplete_eq_malformed_iff.mpr hc

theorem concat_mem_malformedOperator (hb : b ∈ q.language) (h : move q c = .stay .malformed)
    (hq : q.pending = some .operator) : b ++ [c] ∈ malformedOperator := by
  have hc : isOperator c = true := isOperator_of_move_malformed hq h
  have ho : b ∈ openOperator := mem_openOperator_iff.mpr ⟨q, hq, hb⟩
  have ht : Open .malformed (b ++ [c]) := .spoiled hb h
  exact ⟨(concat_mem_mul_oneOf _ _ b c).mpr ⟨ho, hc⟩, ht.notMem_spelled⟩

theorem open_of_mem_malformedOperator (ht : t ∈ malformedOperator) : Open .malformed t := by
  obtain ⟨hm, ho, hp⟩ := ht
  obtain ⟨b, hb, c, hc, rfl⟩ := (mem_mul_oneOf _ _ _).mp hm
  obtain ⟨q, hq, hb⟩ := mem_openOperator_iff.mp hb
  exact .spoiled hb (move_eq_malformed_of_isOperator hb hq hc ho hp)

/-! ## all malformed texts -/

theorem concat_mem_malformed (hb : b ∈ q.language) (h : move q c = .stay .malformed) :
    b ++ [c] ∈ malformed := by
  rw [mem_malformed]
  cases hq : q.pending with
  | none =>
    obtain rfl := (State.pending_eq_none_iff q).mp hq
    obtain rfl := List.mem_singleton.mp hb
    exact Or.inl ⟨c, isForeign_of_start (Move.join.inj h), rfl⟩
  | some shape =>
    cases shape with
    | word =>
      cases q <;> cases hq
      have hc : spoilsWord c = true := move_word_eq_malformed_iff.mp h
      exact Or.inr (Or.inl ((concat_mem_mul_oneOf _ _ b c).mpr ⟨hb, hc⟩))
    | int => exact Or.inr (Or.inr (Or.inl (concat_mem_of_isNumber hb h (Or.inl hq))))
    | float => exact Or.inr (Or.inr (Or.inl (concat_mem_of_isNumber hb h (Or.inr hq))))
    | error => exact Or.inr (Or.inr (Or.inr (Or.inl (concat_mem_malformedLiteral hb h hq))))
    | operator => exact Or.inr (Or.inr (Or.inr (Or.inr (concat_mem_malformedOperator hb h hq))))
    -- no character spoils any of these
    | whitespace | comment | separator | char | string =>
      cases q <;> cases hq
      all_goals
        simp only [move, afterPoint] at h
        split_ifs at h <;> cases h

theorem open_malformed_iff (t : Text) : Open .malformed t ↔ t ∈ malformed := by
  refine ⟨?_, ?_⟩
  · intro ht
    cases ht with
    | wellFormed h => exact absurd h List.not_mem_nil
    | spoiled hb h => exact concat_mem_malformed hb h
  · intro ht
    rcases (mem_malformed t).mp ht with ht | ht | (ht | ht) | ht | ht
    · exact open_of_mem_foreign ht
    · exact open_of_mem_malformedWord ht
    · exact open_of_mem_gluedNumber ht
    · exact open_of_mem_fraction_point ht
    · exact open_of_mem_malformedLiteral ht
    · exact open_of_mem_malformedOperator ht

end

end CurlyLex
