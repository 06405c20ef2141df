import CurlyLex.Proofs.Recognition
import CurlyLex.Settings

/-!
# Spellings

The settings check a spelling by its characters, before there is a vocabulary to scan it with; the
scanner would have said the same of it.

* `Vocabulary.isWord_iff`   a text is scanned into one word exactly if it has the form of one;
* `Settings.Reserves`   the reserved words that the settings describe: those that are built in, or
                      those of a word list that can be read and has some;
* `Settings.spellings`   the spellings that are set, in the order in which they are checked;
* `vocabulary_eq_ok_iff`   the settings describe a vocabulary exactly if they describe reserved
                      words and every spelling has the form of a word;
* `spellings_checked_as_scanned`   the check of the spellings, and what the scanner makes of the
                      spellings and of the reserved words.
-/

namespace CurlyLex

/-! ## words, by their form and by the scanner -/

theorem mem_word_iff (w : Text) : w ∈ Grammar.word ↔ isIdentifier w = true := by
  cases w with
  | nil =>
    refine iff_of_false ?_ Bool.false_ne_true
    intro h
    exact Grammar.not_nil_mem_oneOf _ ((Grammar.nil_mem_mul _ _).mp h).1
  | cons c cs =>
    rw [Grammar.word, Grammar.cons_mem_oneOf_mul_many, isIdentifier, Bool.and_eq_true,
      List.all_eq_true]

namespace Vocabulary

variable (v : Vocabulary) {w : Text}

/-- the text is scanned into one token, a word of any kind -/
def IsWord (w : Text) : Prop := ∃ k ∈ wordKinds, scan v w = [⟨k, w⟩]

instance (w : Text) : Decidable (v.IsWord w) :=
  inferInstanceAs (Decidable (∃ k ∈ wordKinds, scan v w = [⟨k, w⟩]))

theorem scan_of_isIdentifier (h : isIdentifier w = true) : scan v w = [⟨v.kindOf w, w⟩] := by
  have hw : w ∈ Shape.word.language := (mem_word_iff w).mpr h
  rw [scan_eq, cut_of_mem_language hw]
  rfl

/-- whatever the vocabulary, a text is scanned into one word exactly if it has the form of one -/
theorem isWord_iff : v.IsWord w ↔ isIdentifier w = true := by
  constructor
  · rintro ⟨k, hk, h⟩
    have hne : k ≠ .error := by
      rintro rfl
      exact absurd hk (by decide)
    have hm : w ∈ v.language k := ((scan_eq_singleton_iff v w ⟨k, w⟩).mp ⟨h, hne⟩).2
    simp only [wordKinds, List.mem_cons, List.not_mem_nil, or_false] at hk
    rcases hk with rfl | rfl | rfl | rfl
    all_goals exact (mem_word_iff w).mp hm.1
  · intro h
    exact ⟨v.kindOf w, v.kindOf_mem_wordKinds w, v.scan_of_isIdentifier h⟩

theorem decide_isWord (w : Text) : decide (v.IsWord w) = isIdentifier w := by
  rw [Bool.eq_iff_iff, decide_eq_true_iff, v.isWord_iff]

/-- the spellings of the literals -/
def literals : List Text := [v.null, v.booleans.1, v.booleans.2]

theorem kindOf_boolean {b : Text} (hb : b = v.booleans.1 ∨ b = v.booleans.2) :
    v.kindOf b = if b = v.null then .null else .boolean := by
  rw [kindOf, if_pos hb]

theorem kindOf_eq_keyword_iff : v.kindOf w = .keyword ↔ w ∈ v.words ∧ w ∉ v.literals := by
  rw [kindOf, isReserved]
  simp only [literals, List.mem_cons, List.not_mem_nil, or_false, ← WordSet.contains_eq_true_iff]
  split
  · simp [*]
  · split
    · simp [*]
    · split <;> simp [*]

end Vocabulary

/-! ## the vocabulary of the settings -/

namespace Settings

/-- the settings describe the reserved words `words`: those that are built in, or those of a word
list that can be read and has some -/
inductive Reserves (s : Settings) (files : Files) : WordSet → Prop where
  | builtIn (h : s.wordList = none) : Reserves s files Vocabulary.builtIn.words
  | listed {path text : Text} (h : s.wordList = some path)
      (hf : files path = .bytes (Utf8.encode text)) (hw : wordsOf text ≠ []) :
      Reserves s files (.ofList (wordsOf text))

/-- the spellings that are set, in the order in which they are checked -/
def spellings (s : Settings) : List (Literal × Text) :=
  (s.null.toList.map fun n => (.null, n)) ++
    s.booleans.toList.flatMap fun b => [(.boolean, b.1), (.boolean, b.2)]

/-- the vocabulary with the spellings that are set instead of its own -/
def respell (s : Settings) (v : Vocabulary) : Vocabulary :=
  ⟨v.words, s.null.getD v.null, s.booleans.getD v.booleans⟩

variable {s : Settings} {files : Files} {v base : Vocabulary} {words : WordSet}

theorem readWordList_eq_ok_iff {path text : Text} :
    readWordList files path = .ok text ↔ files path = .bytes (Utf8.encode text) := by
  unfold readWordList
  cases files path with
  | unopened fault => simp
  | unread fault => simp
  | bytes bytes =>
    rw [Access.bytes.injEq, eq_comm (a := bytes), ← Utf8.decode_eq_some_iff]
    cases hd : Utf8.decode bytes <;> simp [hd]

theorem isEmpty_words_parse (text : Text) :
    (Vocabulary.parse text).words.isEmpty = true ↔ wordsOf text = [] := by
  rw [WordSet.isEmpty_eq_true_iff, List.eq_nil_iff_forall_not_mem]
  exact forall_congr' fun w => not_congr (WordSet.mem_ofList (wordsOf text) w)

/-- the reserved words with the usual literals -/
theorem baseVocabulary_eq_ok_iff :
    s.baseVocabulary files = .ok base ↔
      ∃ words, s.Reserves files words ∧
        base = ⟨words, Vocabulary.usualNull, Vocabulary.usualBooleans⟩ := by
  constructor
  · intro h
    cases hl : s.wordList with
    | none =>
      rw [baseVocabulary, hl] at h
      cases h
      exact ⟨_, .builtIn hl, rfl⟩
    | some path =>
      simp only [baseVocabulary, hl] at h
      cases hr : readWordList files path with
      | error e =>
        rw [hr] at h
        cases h
      | ok text =>
        rw [hr] at h
        change (if (Vocabulary.parse text).words.isEmpty = true then _ else _) = _ at h
        split at h
        · cases h
        · next hw =>
          cases h
          exact ⟨_, .listed hl (readWordList_eq_ok_iff.mp hr)
            ((isEmpty_words_parse text).not.mp hw), rfl⟩
  · rintro ⟨words, hw, rfl⟩
    cases hw with
    | builtIn hl => rw [baseVocabulary, hl]; rfl
    | @listed path text hl hf hw =>
      simp only [baseVocabulary, hl]
      rw [readWordList_eq_ok_iff.mpr hf]
      exact if_neg ((isEmpty_words_parse text).not.mpr hw)

/-- the first spelling that is no word is told; without one, all of them are set -/
theorem vocabulary_eq (h : s.baseVocabulary files = .ok base) :
    s.vocabulary files =
      match s.spellings.find? fun p => !isIdentifier p.2 with
      | some p => .error (.badSpelling p.1 p.2)
      | none => .ok (s.respell base) := by
  obtain ⟨wordList, null, booleans⟩ := s
  rw [vocabulary, h]
  cases null with
  | none =>
    cases booleans with
    | none => rfl
    | some b =>
      simp only [setNull, setBooleans, checkSpelling, spellings, Option.toList_none,
        Option.toList_some, List.map_nil, List.flatMap_singleton, List.nil_append,
        List.find?_cons]
      cases isIdentifier b.1 <;> cases isIdentifier b.2 <;> rfl
  | some n =>
    simp only [setNull, setBooleans, checkSpelling, spellings, Option.toList_some,
        List.map_singleton, List.singleton_append, List.find?_cons]
    cases isIdentifier n with
    | false => rfl
    | true =>
    cases booleans with
    | none => rfl
    | some b =>
      simp only [Option.toList_some, List.flatMap_singleton, List.find?_cons]
      cases isIdentifier b.1 <;> cases isIdentifier b.2 <;> rfl

theorem vocabulary_eq_ok_iff :
    s.vocabulary files = .ok v ↔
      ∃ words, s.Reserves files words ∧ (∀ p ∈ s.spellings, isIdentifier p.2 = true) ∧
        v = ⟨words, s.null.getD Vocabulary.usualNull,
          s.booleans.getD Vocabulary.usualBooleans⟩ := by
  constructor
  · intro h
    cases hb : s.baseVocabulary files with
    | error e =>
      rw [vocabulary, hb] at h
      cases h
    | ok base =>
      obtain ⟨words, hw, rfl⟩ := baseVocabulary_eq_ok_iff.mp hb
      rw [vocabulary_eq hb] at h
      split at h
      · cases h
      · next hf =>
        cases h
        refine ⟨words, hw, ?_, rfl⟩
        simpa using hf
  · rintro ⟨words, hw, hs, rfl⟩
    rw [vocabulary_eq (baseVocabulary_eq_ok_iff.mpr ⟨words, hw, rfl⟩)]
    have hf : s.spellings.find? (fun p => !isIdentifier p.2) = none := by simpa using hs
    rw [hf]
    rfl

/-- the literals of the vocabulary have the form of words, be they set or usual -/
theorem isIdentifier_of_mem_literals (h : s.vocabulary files = .ok v) :
    ∀ w ∈ v.literals, isIdentifier w = true := by
  obtain ⟨words, -, hs, rfl⟩ := vocabulary_eq_ok_iff.mp h
  obtain ⟨wordList, null, booleans⟩ := s
  have hn : isIdentifier (null.getD Vocabulary.usualNull) = true := by
    cases null with
    | none => decide +kernel
    | some n => exact hs (.null, n) (by simp [spellings])
  have hb : isIdentifier (booleans.getD Vocabulary.usualBooleans).1 = true ∧
      isIdentifier (booleans.getD Vocabulary.usualBooleans).2 = true := by
    cases booleans with
    | none => decide +kernel
    | some b =>
      exact ⟨hs (.boolean, b.1) (by simp [spellings]), hs (.boolean, b.2) (by simp [spellings])⟩
  intro w hw
  simp only [Vocabulary.literals, List.mem_cons, List.not_mem_nil, or_false] at hw
  rcases hw with rfl | rfl | rfl
  · exact hn
  · exact hb.1
  · exact hb.2

end Settings

/-- a spelling is refused exactly if a scan would not take it for one word, whatever the vocabulary
of the scan, and the first such is told; so what a vocabulary calls a literal is scanned as that
literal, where null comes before a boolean of the same spelling, and a reserved word that has the
form of a word is scanned as one, unless it spells a literal -/
theorem spellings_checked_as_scanned (s : Settings) (files : Files) :
    (∀ words, s.Reserves files words → ∀ k : Vocabulary,
      ((∃ v, s.vocabulary files = .ok v) ↔ ∀ p ∈ s.spellings, k.IsWord p.2) ∧
        ∀ p, s.spellings.find? (fun p => !decide (k.IsWord p.2)) = some p →
          s.vocabulary files = .error (.badSpelling p.1 p.2)) ∧
    ∀ v, s.vocabulary files = .ok v →
      (s.Reserves files v.words ∧ v.null = s.null.getD Vocabulary.usualNull ∧
        v.booleans = s.booleans.getD Vocabulary.usualBooleans) ∧
      scan v v.null = [⟨.null, v.null⟩] ∧
      (∀ b, b = v.booleans.1 ∨ b = v.booleans.2 →
        scan v b = [⟨if b = v.null then .null else .boolean, b⟩]) ∧
      ∀ w ∈ v.words, isIdentifier w = true →
        ∃ k, scan v w = [⟨k, w⟩] ∧ (k = .keyword ↔ w ∉ v.literals) := by
  refine ⟨?_, ?_⟩
  · intro words hw k
    have hb := Settings.baseVocabulary_eq_ok_iff.mpr ⟨words, hw, rfl⟩
    have hf : (fun p : Literal × Text => !decide (k.IsWord p.2)) = fun p => !isIdentifier p.2 := by
      funext p
      rw [k.decide_isWord]
    refine ⟨?_, ?_⟩
    · simp only [k.isWord_iff]
      constructor
      · rintro ⟨v, hv⟩
        obtain ⟨_, _, hs, _⟩ := Settings.vocabulary_eq_ok_iff.mp hv
        exact hs
      · intro hs
        exact ⟨_, Settings.vocabulary_eq_ok_iff.mpr ⟨words, hw, hs, rfl⟩⟩
    · intro p hp
      rw [hf] at hp
      rw [Settings.vocabulary_eq hb, hp]
  · intro v hv
    have hl := Settings.isIdentifier_of_mem_literals hv
    obtain ⟨words, hw, -, e⟩ := Settings.vocabulary_eq_ok_iff.mp hv
    refine ⟨?_, ?_, ?_, ?_⟩
    · rw [e]
      exact ⟨hw, rfl, rfl⟩
    · rw [v.scan_of_isIdentifier (hl v.null List.mem_cons_self), v.kindOf_null]
    · intro b hb
      have hm : b ∈ v.literals := by
        rcases hb with rfl | rfl
        all_goals simp [Vocabulary.literals]
      rw [v.scan_of_isIdentifier (hl b hm), v.kindOf_boolean hb]
    · intro w hw hi
      refine ⟨v.kindOf w, v.scan_of_isIdentifier hi, ?_⟩
      rw [v.kindOf_eq_keyword_iff]
      exact and_iff_right hw

/-- the second boolean is no word and told; set to null and to a reserved word, the booleans are
scanned as null and as a boolean -/
theorem spellings_checked_as_scanned_overlap :
    let files : Files := fun _ => .bytes (Utf8.encode ['i', 'f', ' ', 'o', 'n'])
    let s : Settings := ⟨some ['w'], some ['i', 'f'], some (['o', 'n'], ['3'])⟩
    let s' : Settings := ⟨some ['w'], some ['i', 'f'], some (['i', 'f'], ['o', 'n'])⟩
    s.vocabulary files = .error (.badSpelling .boolean ['3']) ∧
      ∃ v, s'.vocabulary files = .ok v ∧
        scan v ['i', 'f'] = [⟨.null, ['i', 'f']⟩] ∧
        scan v ['o', 'n'] = [⟨.boolean, ['o', 'n']⟩] := by
  intro files s s'
  have hr (booleans : Option (Text × Text)) :
      Settings.Reserves ⟨some ['w'], some ['i', 'f'], booleans⟩ files
        (.ofList (wordsOf ['i', 'f', ' ', 'o', 'n'])) :=
    .listed rfl rfl (by decide +kernel)
  refine ⟨?_, ?_⟩
  · exact ((spellings_checked_as_scanned s files).1 _ (hr _) (.ofWords [])).2
      (.boolean, ['3']) (by decide +kernel)
  · obtain ⟨v, hv⟩ := ((spellings_checked_as_scanned s' files).1 _ (hr _) (.ofWords [])).1.mpr
      (by decide +kernel)
    obtain ⟨⟨-, hn, hb⟩, -, hscan, -⟩ := (spellings_checked_as_scanned s' files).2 v hv
    have hi := hscan ['i', 'f'] (Or.inl (by rw [hb]; rfl))
    have ho := hscan ['o', 'n'] (Or.inr (by rw [hb]; rfl))
    rw [hn] at hi ho
    exact ⟨v, hv, hi, ho⟩

end CurlyLex
