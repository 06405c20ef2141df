import CurlyLex.Proofs.Recognition
import CurlyLex.Proofs.Resumption

/-!
# Errors are found at the earliest character

* `Complete v w`      the text `w` is one well-formed token;
* `Viable v u`        the text `u` begins one;
* `viable_of_mem_language`   the texts of the languages of the states are viable: a character or
                      two complete them;
* `Open.not_viable`   a malformed text is not, whatever follows;
* `Spoilt`, `LoneQuote`, `Unfinished`   the three ways to be an error: the last character spoils the
                      text, a line break follows an opening quote, or the input ends inside a
                      literal or a block comment;
* `errors_are_earliest`   a session is in the malformed state exactly if its open text is not
                      viable, one character sooner it was, and every error is of one of the three
                      ways and of no other.
-/

namespace CurlyLex

/-- the text is one well-formed token -/
def Complete (v : Vocabulary) (w : Text) : Prop := ∃ t, scan v w = [t] ∧ t.kind ≠ .error

/-- the text begins a well-formed token, or is one -/
def Viable (v : Vocabulary) (u : Text) : Prop := ∃ w, Complete v (u ++ w)

section
variable {v : Vocabulary} {q : State} {b u w : Text} {c : Char} {shape : Shape}

theorem complete_of_cut {p : Piece} (h : cut u = [p]) (hp : p.shape ≠ .error) : Complete v u := by
  refine ⟨v.token p, ?_, (v.kindOfPiece_eq_error_iff p).not.mpr hp⟩
  rw [scan_eq, h, List.map_singleton]

theorem exists_cut_of_complete (h : Complete v u) : ∃ p, cut u = [p] ∧ p.shape ≠ .error := by
  obtain ⟨t, ht, hk⟩ := h
  rw [scan_eq] at ht
  obtain ⟨p, hp, rfl⟩ := List.map_eq_singleton_iff.mp ht
  exact ⟨p, hp, (v.kindOfPiece_eq_error_iff p).not.mp hk⟩

/-! ## viable texts -/

theorem Complete.viable (h : Complete v u) : Viable v u := ⟨[], by rwa [List.append_nil]⟩

theorem Viable.of_append (h : Viable v (u ++ w)) : Viable v u := by
  obtain ⟨x, hx⟩ := h
  exact ⟨w ++ x, by rwa [← List.append_assoc]⟩

theorem viable_of_pending (hb : b ∈ q.language) (h : q.pending = some shape) (hq : q ≠ .dotDot)
    (hs : shape ≠ .error) : Viable v b := by
  have hc : Complete v b := complete_of_cut (cut_of_pending hb h hq) hs
  exact hc.viable

theorem viable_of_done (hb : b ∈ q.language) (h : move q c = .done shape) (hs : shape ≠ .error) :
    Viable v b := by
  have hc : Complete v (b ++ [c]) := complete_of_cut (cut_concat_of_done hb h) hs
  exact hc.viable.of_append

theorem viable_of_stay {r : State} (hb : b ∈ q.language) (h : move q c = .stay r)
    (hr : r ≠ .malformed) (ih : ∀ b ∈ r.language, Viable v b) : Viable v b := by
  have hc : Viable v (b ++ [c]) := ih (b ++ [c]) (concat_mem_language hb h hr)
  exact hc.of_append

end

section
variable {v : Vocabulary} {b : Text}

theorem viable_of_mem_charFull : ∀ b ∈ State.charFull.language, Viable v b := by
  intro b hb
  have hm : move .charFull '\'' = .done .char := rfl
  exact viable_of_done hb hm (by decide)

theorem viable_of_mem_string : ∀ b ∈ State.string.language, Viable v b := by
  intro b hb
  have hm : move .string '"' = .done .string := rfl
  exact viable_of_done hb hm (by decide)

theorem viable_of_mem_blockStar : ∀ b ∈ State.blockStar.language, Viable v b := by
  intro b hb
  have hm : move .blockStar '/' = .done .comment := rfl
  exact viable_of_done hb hm (by decide)

theorem viable_of_pending_error {q : State} (hb : b ∈ q.language)
    (hq : q.pending = some .error) : Viable v b := by
  cases q <;> cases hq
  case malformed => exact absurd hb List.not_mem_nil
  case charOpen =>
    exact viable_of_stay (c := 'a') hb (by decide) (by decide) viable_of_mem_charFull
  case charEscape =>
    exact viable_of_stay (c := 'n') hb (by decide) (by decide) viable_of_mem_charFull
  case charFull => exact viable_of_mem_charFull b hb
  case string => exact viable_of_mem_string b hb
  case stringEscape =>
    exact viable_of_stay (c := 'n') hb (by decide) (by decide) viable_of_mem_string
  case blockComment =>
    exact viable_of_stay (c := '*') hb (by decide) (by decide) viable_of_mem_blockStar
  case blockStar => exact viable_of_mem_blockStar b hb

/-- two characters at most complete a text that is not malformed -/
theorem viable_of_mem_language {q : State} (hb : b ∈ q.language) : Viable v b := by
  cases hq : q.pending with
  | none =>
    obtain rfl := (State.pending_eq_none_iff q).mp hq
    have hm : move .idle '(' = .done .separator := by decide +kernel
    exact viable_of_done hb hm (by decide)
  | some shape =>
    by_cases hs : shape = .error
    · subst hs
      exact viable_of_pending_error hb hq
    · by_cases hd : q = .dotDot
      · subst hd
        have hm : move .dotDot '.' = .done .separator := rfl
        exact viable_of_done hb hm (by decide)
      · exact viable_of_pending hb hq hd hs

/-! ## malformed texts -/

theorem Open.not_viable (hb : Open .malformed b) : ¬ Viable v b := by
  intro hx
  obtain ⟨w, hw⟩ := hx
  obtain ⟨p, hp, hs⟩ := exists_cut_of_complete hw
  have hc : (⟨.error, b⟩ : Piece) ∈ cut (b ++ w) := by
    cases w with
    | nil =>
      rw [List.append_nil, hb.cut_eq]
      exact List.mem_singleton_self _
    | cons c cs =>
      rw [hb.cut_of_ends rfl]
      exact List.mem_append_left _ (List.mem_singleton_self _)
  rw [hp] at hc
  obtain rfl := List.mem_singleton.mp hc
  exact hs rfl

theorem Open.viable_dropLast (hb : Open .malformed b) : Viable v b.dropLast := by
  cases hb with
  | wellFormed hb => exact absurd hb List.not_mem_nil
  | spoiled hb _ =>
    rw [List.dropLast_concat]
    exact viable_of_mem_language hb

theorem Open.eq_malformed_iff {q : State} (hb : Open q b) : q = .malformed ↔ ¬ Viable v b := by
  refine ⟨?_, ?_⟩
  · intro e
    subst e
    exact hb.not_viable
  · intro h
    by_contra hq
    exact h (viable_of_mem_language (hb.mem_language hq))

end

/-! ## texts that the end of input cuts short -/

section
variable {q : State} {b : Text} {c : Char}

theorem prefix_of_mem_mul {l m : Language Char} {x : Text} (h : ∀ t ∈ l, x <+: t) :
    ∀ t ∈ l * m, x <+: t := by
  rintro _ ⟨y, hy, z, _, rfl⟩
  exact (h y hy).trans (List.prefix_append y z)

theorem prefix_of_mem_just (d : Char) : ∀ t ∈ Grammar.just d, [d] <+: t := by
  intro t ht
  rw [(Grammar.mem_just d t).mp ht]

theorem prefix_of_mem_charContent (hb : b ∈ Grammar.charContent) : ['\''] <+: b := by
  rcases hb with hb | hb
  · exact prefix_of_mem_mul (prefix_of_mem_just '\'') b hb
  · exact prefix_of_mem_mul (prefix_of_mem_mul (prefix_of_mem_just '\'')) b hb

theorem prefix_of_mem_stringContent : ∀ b ∈ Grammar.stringContent, ['"'] <+: b :=
  prefix_of_mem_mul (prefix_of_mem_just '"')

theorem prefix_of_mem_opened {l : Language Char} (hb : b ∈ Grammar.opened l) :
    ['/', '*'] <+: b := by
  obtain ⟨y, _, rfl⟩ := (Grammar.mem_opened l b).mp hb
  exact List.prefix_append _ y

/-- what lacks its closing delimiter has an opening one -/
theorem prefix_of_unterminated (hq : q.unterminated = true) (hb : b ∈ q.language) :
    ['\''] <+: b ∨ ['"'] <+: b ∨ ['/', '*'] <+: b := by
  cases q <;> cases hq
  case charOpen =>
    obtain rfl := List.mem_singleton.mp hb
    exact Or.inl (List.prefix_refl _)
  case charEscape =>
    obtain rfl := List.mem_singleton.mp hb
    exact Or.inl (List.prefix_append ['\''] ['\\'])
  case charFull => exact Or.inl (prefix_of_mem_charContent hb)
  case string => exact Or.inr (Or.inl (prefix_of_mem_stringContent b hb))
  case stringEscape =>
    exact Or.inr (Or.inl (prefix_of_mem_mul prefix_of_mem_stringContent b hb))
  case blockComment => exact Or.inr (Or.inr (prefix_of_mem_opened hb))
  case blockStar => exact Or.inr (Or.inr (prefix_of_mem_opened hb))

/-- only a line break behind an opening quote ends a text that lacks its closing delimiter -/
theorem eq_charOpen_of_close (hq : q.unterminated = true) (h : move q c = .close shape) :
    q = .charOpen ∧ isLineBreak c = true := by
  cases q <;> cases hq
  all_goals
    simp only [move, afterBackslash] at h
    split_ifs at h
  next hc => exact ⟨rfl, hc⟩

theorem not_complete_of_unterminated {v : Vocabulary} (hq : q.unterminated = true)
    (hb : b ∈ q.language) : ¬ Complete v b := by
  intro h
  obtain ⟨p, hp, hs⟩ := exists_cut_of_complete h
  have hd : q ≠ .dotDot := by
    intro e
    subst e
    cases hq
  rw [cut_of_pending hb (State.pending_of_unterminated q hq) hd] at hp
  obtain rfl := List.singleton_inj.mp hp
  exact hs rfl

/-- an error is malformed, or an opening quote before a line break, or lacks its closing delimiter
at the end of input -/
theorem Piece.EndsBefore.of_error {w rest : Text}
    (h : (⟨.error, w⟩ : Piece).EndsBefore rest) :
    Open .malformed w ∨ (w = ['\''] ∧ ∃ c ∈ rest.head?, isLineBreak c = true) ∨
      rest = [] ∧ ∃ q : State, q.unterminated = true ∧ w ∈ q.language := by
  cases h with
  | completed hb h =>
    have hw := concat_mem_language_of_done (hb.mem_language_of_done h) h
    exact absurd hw (Language.notMem_zero _)
  | @closed q _ _ _ hb h _ hc =>
    by_cases hq : q = .malformed
    · subst hq
      exact Or.inl hb
    · have hw := hb.mem_language hq
      have hu : q.unterminated = true := by
        cases q <;> cases h
        case malformed => exact absurd rfl hq
        all_goals rfl
      cases rest with
      | nil => exact Or.inr (Or.inr ⟨rfl, q, hu, hw⟩)
      | cons c cs =>
        obtain ⟨rfl, hl⟩ := eq_charOpen_of_close hu (hc c rfl)
        exact Or.inr (Or.inl ⟨List.mem_singleton.mp hw, c, rfl, hl⟩)

end

/-! ## the three ways to be an error -/

/-- the last character spoils the text -/
def Spoilt (v : Vocabulary) (w : Text) : Prop := ¬ Viable v w ∧ Viable v w.dropLast

/-- the text is an opening quote, and a line break follows -/
def LoneQuote (w rest : Text) : Prop := w = ['\''] ∧ ∃ c ∈ rest.head?, isLineBreak c = true

/-- the text begins a literal or a block comment that the end of input cuts short: nothing comes
`after` it -/
def Unfinished (v : Vocabulary) (w : Text) (after : List Token) : Prop :=
  after = [] ∧ Viable v w ∧ ¬ Complete v w ∧
    (['\''] <+: w ∨ ['"'] <+: w ∨ ['/', '*'] <+: w)

def ExactlyOne (a b c : Prop) : Prop := a ∧ ¬ b ∧ ¬ c ∨ ¬ a ∧ b ∧ ¬ c ∨ ¬ a ∧ ¬ b ∧ c

section
variable {v : Vocabulary} {w rest : Text} {after : List Token}

theorem viable_quote : Viable v ['\''] :=
  viable_of_mem_language (q := .charOpen) (List.mem_singleton_self _)

theorem Open.spoilt (hw : Open .malformed w) : Spoilt v w := ⟨hw.not_viable, hw.viable_dropLast⟩

theorem unfinished_of_unterminated {q : State} (hq : q.unterminated = true)
    (hw : w ∈ q.language) : Unfinished v w [] :=
  ⟨rfl, viable_of_mem_language hw, not_complete_of_unterminated hq hw,
    prefix_of_unterminated hq hw⟩

theorem LoneQuote.viable (h : LoneQuote w rest) : Viable v w := by
  rw [h.1]
  exact viable_quote

theorem LoneQuote.rest_ne_nil (h : LoneQuote w rest) : rest ≠ [] := by
  intro e
  subst e
  obtain ⟨_, c, hc, _⟩ := h
  cases hc

theorem eq_nil_of_scan_eq_nil (h : scan v rest = []) : rest = [] := by
  rw [← textOf_scan v rest, h, textOf_nil]

/-- an error is one of the three ways -/
theorem Piece.EndsBefore.exactlyOne (h : (⟨.error, w⟩ : Piece).EndsBefore rest) :
    ExactlyOne (Spoilt v w) (LoneQuote w rest) (Unfinished v w (scan v rest)) := by
  rcases h.of_error with hw | hw | ⟨rfl, q, hq, hw⟩
  · have hs : Spoilt v w := hw.spoilt
    exact Or.inl ⟨hs, fun hl => hs.1 hl.viable, fun hu => hs.1 hu.2.1⟩
  · have hl : LoneQuote w rest := hw
    exact Or.inr (Or.inl ⟨fun hs => hs.1 hl.viable, hl,
      fun hu => hl.rest_ne_nil (eq_nil_of_scan_eq_nil hu.1)⟩)
  · have hu : Unfinished v w [] := unfinished_of_unterminated hq hw
    exact Or.inr (Or.inr ⟨fun hs => hs.1 hu.2.1, fun hl => hl.rest_ne_nil rfl, hu⟩)

end

/-- a session is in the malformed state exactly if its open text is not viable, and then the text
was viable before its last character; so every error of a scan was spoilt by its last character,
or is a quote before a line break, or is unfinished at the end of input, and only one of these -/
theorem errors_are_earliest (v : Vocabulary) :
    (∀ u : Text, let s := Session.fed v u
      (s.scanner.state = .malformed ↔ ¬ Viable v s.scanner.buffered) ∧
        (s.scanner.state = .malformed → Viable v s.scanner.buffered.dropLast)) ∧
    ∀ (text w : Text) (before after : List Token),
      scan v text = before ++ ⟨.error, w⟩ :: after →
      ∃ rest, text = textOf before ++ w ++ rest ∧
        ExactlyOne (Spoilt v w) (LoneQuote w rest) (Unfinished v w after) := by
  refine ⟨?_, ?_⟩
  · intro u s
    have hs : Open s.scanner.state s.scanner.buffered := Session.sound_fed v u
    refine ⟨hs.eq_malformed_iff, ?_⟩
    intro h
    rw [h] at hs
    exact hs.viable_dropLast
  · intro text w before after h
    obtain ⟨p, rest, hp, he, ht, rfl⟩ := exists_of_scan_eq h
    have hs : p.shape = .error :=
      (v.kindOfPiece_eq_error_iff p).mp (congrArg Token.kind hp)
    have hw : p = ⟨.error, w⟩ := by
      rw [← hs, ← show p.text = w from congrArg Token.lexeme hp]
    subst hw
    exact ⟨rest, ht, he.exactlyOne⟩

/-- a line break behind an opening quote -/
theorem exactlyOne_of_quote_before_break :
    let v := Vocabulary.ofWords []
    scan v ['\'', '\n'] = [⟨.error, ['\'']⟩, ⟨.whitespace, ['\n']⟩] ∧
      ∃ rest, ['\'', '\n'] = textOf [] ++ ['\''] ++ rest ∧
        ExactlyOne (Spoilt v ['\'']) (LoneQuote ['\''] rest)
          (Unfinished v ['\''] [⟨.whitespace, ['\n']⟩]) := by
  intro v
  have h : scan v ['\'', '\n'] = [⟨.error, ['\'']⟩, ⟨.whitespace, ['\n']⟩] := by decide +kernel
  exact ⟨h, (errors_are_earliest v).2 ['\'', '\n'] ['\''] [] [⟨.whitespace, ['\n']⟩] h⟩

end CurlyLex
