import CurlyLex.Command.Program
import CurlyLex.Proofs.ByteLines
import CurlyLex.Proofs.Spellings
import CurlyLex.Proofs.WordLists
import CurlyLex.Proofs.Writing

/-!
# Printed vocabularies

A vocabulary is printed as a word list.  The literals stand in it as comments, so what is read back
are the reserved words and nothing else, whatever the spellings are.

* `Vocabulary.Printable`   what the vocabulary of settings has: its literals have the form of words,
                      and its reserved words can stand in a word list;
* `Printable.textLines_print`, `Printable.wordsOf_print`   the lines and the words of its print;
* `Printable.eq_of_print_eq`   the print tells it apart from every other;
* `printed_vocabulary_read_back`   the settings that name the print as their word list describe the
                      vocabulary that was printed; of two vocabularies the prints are the same
                      exactly if the vocabularies are.
-/

namespace CurlyLex

/-- does the line begin with a comment? -/
def isComment (line : Text) : Bool := slashes.isPrefixOf line

theorem ListWord.isComment_eq_false {w : Text} (h : ListWord w) : isComment w = false := by
  refine Bool.eq_false_iff.mpr fun hc => h.uncommented ?_
  exact (List.isPrefixOf_iff_prefix.mp hc).isInfix

namespace Vocabulary

variable {v v' : Vocabulary}

theorem ext_mem (hw : ∀ w, w ∈ v.words ↔ w ∈ v'.words) (hn : v.null = v'.null)
    (hb : v.booleans = v'.booleans) : v = v' := by
  obtain ⟨words, null, booleans⟩ := v
  obtain ⟨words', null', booleans'⟩ := v'
  obtain rfl : words = words' := WordSet.ext_mem hw
  obtain rfl : null = null' := hn
  obtain rfl : booleans = booleans' := hb
  rfl

/-! ## the lines of a print -/

/-- the literals have the form of words, and the reserved words can stand in a word list -/
structure Printable (v : Vocabulary) : Prop where
  literals : ∀ w ∈ v.literals, isIdentifier w = true
  words : ∀ w ∈ v.words, ListWord w
  words_ne_nil : v.words.toList ≠ []

/-- the two lines that tell the literals -/
def literalLines (v : Vocabulary) : List Text :=
  [slashes ++ " null: ".toList ++ v.null,
   slashes ++ " booleans: ".toList ++ v.booleans.1 ++ ' ' :: v.booleans.2]

theorem print_eq_ofLines (v : Vocabulary) :
    v.print = ofLines (v.literalLines ++ v.words.toList) := by
  have hn : "// null: ".toList = slashes ++ " null: ".toList := by decide
  have hb : "// booleans: ".toList = slashes ++ " booleans: ".toList := by decide
  have hw : (v.words.toList.flatMap fun w => w ++ ['\n']) = ofLines v.words.toList := rfl
  unfold print literalLines
  rw [hn, hb, hw]
  simp only [ofLines_cons, List.append_assoc, List.cons_append, List.nil_append]

theorem isComment_of_mem_literalLines : ∀ l ∈ v.literalLines, isComment l = true := by
  simp [literalLines, isComment, slashes]

theorem lineWords_of_mem_literalLines : ∀ l ∈ v.literalLines, lineWords l = [] := by
  simp [literalLines, lineWords_slashes]

namespace Printable

variable (h : v.Printable)
include h

theorem not_mem_literals {c : Char} (hc : isWhitespace c = true) :
    c ∉ v.null ∧ c ∉ v.booleans.1 ∧ c ∉ v.booleans.2 := by
  have hl : ∀ w ∈ v.literals, c ∉ w := fun w hw =>
    (listWord_of_isIdentifier (h.literals w hw)).not_mem_of_isWhitespace hc
  simpa [Vocabulary.literals] using hl

theorem lineFeed_not_mem : ∀ l ∈ v.literalLines ++ v.words.toList, '\n' ∉ l := by
  obtain ⟨hn, ht, hf⟩ := h.not_mem_literals (c := '\n') (by decide)
  intro l hm
  rcases List.mem_append.mp hm with hm | hm
  · simp only [literalLines, List.mem_cons, List.not_mem_nil, or_false] at hm
    rcases hm with rfl | rfl
    · simp [slashes, hn]
    · simp [slashes, ht, hf]
  · exact (h.words l hm).lineFeed_not_mem

theorem textLines_print : textLines v.print = v.literalLines ++ v.words.toList := by
  rw [print_eq_ofLines, textLines_ofLines h.lineFeed_not_mem]

/-- without the comments the lines of the print are the reserved words -/
theorem filter_textLines_print :
    (textLines v.print).filter (fun l => !isComment l) = v.words.toList := by
  have hl : ∀ l ∈ v.literalLines, ¬ (!isComment l) = true := by
    intro l hm
    rw [isComment_of_mem_literalLines l hm]
    exact Bool.false_ne_true
  have hw : ∀ l ∈ v.words.toList, (!isComment l) = true := by
    intro l hm
    rw [(h.words l hm).isComment_eq_false]
    rfl
  rw [h.textLines_print, List.filter_append, List.filter_eq_nil_iff.mpr hl,
    List.filter_eq_self.mpr hw, List.nil_append]

theorem wordsOf_print : wordsOf v.print = v.words.toList := by
  have hl : v.literalLines.flatMap lineWords = [] :=
    List.flatMap_eq_nil_iff.mpr lineWords_of_mem_literalLines
  have hw : v.words.toList.flatMap lineWords = v.words.toList.flatMap fun w => [w] :=
    List.flatMap_congr fun w hm => (h.words w hm).lineWords_eq
  rw [print_eq_ofLines, wordsOf_ofLines h.lineFeed_not_mem, List.flatMap_append, hl, hw,
    List.flatMap_singleton', List.nil_append]

theorem eq_of_print_eq (h' : v'.Printable) (e : v.print = v'.print) : v = v' := by
  have hw : v.words.toList = v'.words.toList := by rw [← h.wordsOf_print, e, h'.wordsOf_print]
  have hl : v.literalLines = v'.literalLines := by
    have ht := congrArg textLines e
    rw [h.textLines_print, h'.textLines_print, hw] at ht
    exact List.append_cancel_right ht
  simp only [literalLines, List.cons.injEq, List.append_assoc, List.append_cancel_left_eq] at hl
  obtain ⟨hn, hb, -⟩ := hl
  -- the first space behind the slashes is the one between the booleans
  have hs := congrArg (List.splitOn ' ') hb
  obtain ⟨-, ht, hf⟩ := h.not_mem_literals (c := ' ') (by decide)
  obtain ⟨-, ht', hf'⟩ := h'.not_mem_literals (c := ' ') (by decide)
  rw [List.splitOn_append_cons_self_of_not_mem ht, List.splitOn_eq_singleton hf,
    List.splitOn_append_cons_self_of_not_mem ht', List.splitOn_eq_singleton hf'] at hs
  simp only [List.cons.injEq, and_true] at hs
  refine ext_mem ?_ hn (Prod.ext hs.1 hs.2)
  intro w
  rw [WordSet.mem_def, hw, WordSet.mem_def]

end Printable

end Vocabulary

/-! ## the print as a word list -/

namespace Settings

variable {s : Settings} {files : Files} {v : Vocabulary} {words : WordSet}

theorem Reserves.listWord (h : s.Reserves files words) : ∀ w ∈ words, ListWord w := by
  cases h with
  | builtIn =>
    have hw : ∀ w ∈ Vocabulary.builtIn.words.toList, isIdentifier w = true := by decide +kernel
    exact fun w hm => listWord_of_isIdentifier (hw w hm)
  | @listed _ text =>
    intro w hm
    exact listWord_of_mem_wordsOf ((WordSet.mem_ofList (wordsOf text) w).mp hm)

theorem Reserves.toList_ne_nil (h : s.Reserves files words) : words.toList ≠ [] := by
  cases h with
  | builtIn => decide
  | @listed _ text _ _ hw =>
    obtain ⟨w, hm⟩ := List.exists_mem_of_ne_nil _ hw
    exact List.ne_nil_of_mem ((WordSet.mem_ofList (wordsOf text) w).mpr hm)

theorem Reserves.mem_iff {path text : Text} (h : s.Reserves files words)
    (hl : s.wordList = some path) (hf : files path = .bytes (Utf8.encode text)) (w : Text) :
    w ∈ words ↔ w ∈ wordsOf text := by
  cases h with
  | builtIn hn =>
    rw [hn] at hl
    cases hl
  | @listed path' text' hl' hf' =>
    obtain rfl : path' = path := Option.some.inj (hl'.symm.trans hl)
    rw [hf'] at hf
    obtain rfl : text' = text := Utf8.encode_injective (Access.bytes.inj hf)
    exact WordSet.mem_ofList _ w

theorem printable_of_vocabulary (h : s.vocabulary files = .ok v) : v.Printable := by
  obtain ⟨words, hw, -, e⟩ := vocabulary_eq_ok_iff.mp h
  obtain rfl : v.words = words := congrArg Vocabulary.words e
  exact ⟨isIdentifier_of_mem_literals h, hw.listWord, hw.toList_ne_nil⟩

theorem printVocabulary_at (h : s.vocabulary files = .ok v) (sink : Sink) :
    s.printVocabulary sink files = ⟨sink.receive (Utf8.encode v.print),
      if sink.overflows (Utf8.encode v.print) then some (.output sink.refusal) else none⟩ := by
  have hp := Writer.writes_print v.pieces (Writer.fine_new sink)
  rw [List.nil_append, v.flatten_pieces] at hp
  have hf : (do Writer.flush; Printing.stopWith none) = Writer.flush := bind_pure_unit
  rw [printVocabulary, h, ← Printing.close_flush hp none, hf]
  rfl

theorem printVocabulary_eq (h : s.vocabulary files = .ok v) :
    s.printVocabulary .unlimited files = ⟨Utf8.encode v.print, none⟩ := printVocabulary_at h _

theorem vocabulary_of_print {path : Text} {files' : Files} (h : s.vocabulary files = .ok v)
    (hf : files' path = .bytes (Utf8.encode v.print)) :
    (s.put (.wordList path)).vocabulary files' = .ok v := by
  have hw := (printable_of_vocabulary h).wordsOf_print
  obtain ⟨words, hr, hs, rfl⟩ := vocabulary_eq_ok_iff.mp h
  refine vocabulary_eq_ok_iff.mpr ⟨.ofList words.toList, ?_, hs, ?_⟩
  -- the words are those of the print, which is what the path leads to now
  · rw [← hw]
    refine .listed rfl hf ?_
    rw [hw]
    exact hr.toList_ne_nil
  · rw [words.ofList_toList]
    rfl

end Settings

/-- the print of a vocabulary tells the reserved words in rising order, each on a line of its own
and nothing else outside of comments; the settings that name it as their word list, in whatever
file, describe the vocabulary that was printed, and print the same again; and settings print alike
exactly if their vocabularies have the same words and literals, so the order of the words in a file,
their number and the lines and comments around them do not count -/
theorem printed_vocabulary_read_back (s : Settings) (files : Files) (v : Vocabulary)
    (h : s.vocabulary files = .ok v) :
    ∃ text, s.printVocabulary .unlimited files = ⟨Utf8.encode text, none⟩ ∧
      (∀ path files', files' path = .bytes (Utf8.encode text) →
        (s.put (.wordList path)).vocabulary files' = .ok v ∧
          (s.put (.wordList path)).printVocabulary .unlimited files' =
            s.printVocabulary .unlimited files) ∧
      (∃ ls, (textLines text).filter (fun l => !isComment l) = ls ∧ ls.Pairwise (· < ·) ∧
        ∀ w, w ∈ ls ↔ w ∈ v.words) ∧
      (∀ path list, s.wordList = some path → files path = .bytes (Utf8.encode list) →
        ∀ w, w ∈ v.words ↔ w ∈ wordsOf list) ∧
      ∀ (s' : Settings) (files' : Files) (v' : Vocabulary), s'.vocabulary files' = .ok v' →
        (s'.printVocabulary .unlimited files' = s.printVocabulary .unlimited files ↔
          (∀ w, w ∈ v'.words ↔ w ∈ v.words) ∧ v'.null = v.null ∧ v'.booleans = v.booleans) := by
  have hv := Settings.printable_of_vocabulary h
  have hp := Settings.printVocabulary_eq h
  refine ⟨v.print, hp, ?_, ?_, ?_, ?_⟩
  · intro path files' hf
    have hr := Settings.vocabulary_of_print h hf
    exact ⟨hr, (Settings.printVocabulary_eq hr).trans hp.symm⟩
  · exact ⟨_, hv.filter_textLines_print, v.words.increasing, fun _ => Iff.rfl⟩
  · intro path list hl hf
    obtain ⟨words, hr, -, rfl⟩ := Settings.vocabulary_eq_ok_iff.mp h
    exact hr.mem_iff hl hf
  · intro s' files' v' h'
    rw [hp, Settings.printVocabulary_eq h']
    constructor
    · intro e
      have hb := Utf8.encode_injective (congrArg Outcome.out e)
      obtain rfl := (Settings.printable_of_vocabulary h').eq_of_print_eq hv hb
      exact ⟨fun _ => Iff.rfl, rfl, rfl⟩
    · rintro ⟨hw, hn, hb⟩
      obtain rfl := Vocabulary.ext_mem hw hn hb
      rfl

/-- two words in falling order, the second of them again behind a comment -/
theorem printed_vocabulary_read_back_two_words :
    let files : Files := fun _ => .bytes (Utf8.encode ['b', ' ', 'a', '/', '/', 'c', '\n', 'a'])
    let s : Settings := ⟨some ['w'], some ['n', 'o'], none⟩
    ∃ v text, s.vocabulary files = .ok v ∧
      s.printVocabulary .unlimited files = ⟨Utf8.encode text, none⟩ ∧
      (s.put (.wordList ['p'])).vocabulary (fun _ => .bytes (Utf8.encode text)) = .ok v ∧
      ∃ ls, (textLines text).filter (fun l => !isComment l) = ls ∧ ls.Pairwise (· < ·) ∧
        ∀ w, w ∈ ls ↔ w ∈ [['b'], ['a'], ['a']] := by
  intro files s
  have h : s.vocabulary files = .ok ⟨.ofList _, ['n', 'o'], Vocabulary.usualBooleans⟩ :=
    Settings.vocabulary_eq_ok_iff.mpr
      ⟨_, .listed rfl rfl (by decide +kernel), by decide +kernel, rfl⟩
  obtain ⟨text, hp, hr, ⟨ls, hl, hi, hm⟩, hf, -⟩ := printed_vocabulary_read_back s files _ h
  refine ⟨_, text, h, hp, (hr ['p'] _ rfl).1, ls, hl, hi, ?_⟩
  intro w
  rw [hm w, hf ['w'] _ rfl rfl w]
  exact Iff.of_eq (congrArg (w ∈ ·) (by decide +kernel))

end CurlyLex
