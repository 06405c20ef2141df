import CurlyLex.Proofs.Accounting
import CurlyLex.Proofs.Viability

/-!
# What one character does

One character does one of three things to a session whose text is open, whatever the session was
asked before.

* `Session.effect`    what one character does: the state and the open text behind it, and the tokens
                      that it completes;
* `Session.Absorbs`   the character joins the open text, which stays open or is a token with it;
* `Session.Closes`    the open text is closed as the end of input would close it, and the character
                      begins a new one as in a new session;
* `Session.Splits`    the character is a digit behind two points: the first point is a token, and
                      the second one and the digit stay open;
* `absorbs_of_join`, `closes_of_ends`, `splits_of_split`   the table of moves tells which;
* `Absorbs.not_closes`, `Absorbs.not_splits`, `Closes.not_splits`   and it is no more than one;
* `step_exactly_one`  so of every session with an open text, exactly one of the three holds.
-/

namespace CurlyLex

namespace Session

def effect (s : Session) (c : Char) : Effect :=
  let (ts, s') := s.feed c
  ⟨s'.scanner.state, s'.scanner.buffered, ts⟩

theorem effect_eq (s : Session) (c : Char) :
    s.effect c = ⟨(s.scanner.feed c).2.state, (s.scanner.feed c).2.buffered,
      s.vocabulary.tokens (s.scanner.feed c).1⟩ := rfl

section
variable (s : Session) (c : Char)

def Absorbs : Prop :=
  let text := s.scanner.buffered ++ [c]
  ((s.effect c).emitted = [] ∧ (s.effect c).buffered = text) ∨
    ∃ kind, s.effect c = ⟨.idle, [], [⟨kind, text⟩]⟩

/-- the tokens that close the open text are those that finishing adds -/
def Closes : Prop :=
  let begun := (new s.vocabulary).effect c
  ∃ closed, s.finish = s.tokens ++ closed ∧
    s.effect c = ⟨begun.state, begun.buffered, closed ++ begun.emitted⟩

def Splits : Prop :=
  s.scanner.state = .dotDot ∧ isDigit c = true ∧
    s.effect c = ⟨.fraction, ['.', c], [⟨.separator, ['.']⟩]⟩

end

section
variable {s : Session} {c : Char}

/-! ## every move is one of the three -/

theorem absorbs_of_join {next : Next} (h : move s.scanner.state c = .join next) :
    s.Absorbs c := by
  have hf := Scanner.feed_of_join h
  have hb : (c :: s.scanner.held).reverse = s.scanner.buffered ++ [c] := List.reverse_cons
  cases next with
  | stay q =>
    left
    rw [effect_eq, hf]
    exact ⟨rfl, hb⟩
  | done shape =>
    right
    rw [effect_eq, hf, Scanner.settle, hb]
    exact ⟨_, rfl⟩

/-- the character has its own account of the text that it ends, and it is that of `finish` -/
theorem closes_of_ends (h : (move s.scanner.state c).ends = true) : s.Closes c := by
  refine ⟨s.vocabulary.tokens s.scanner.close, rfl, ?_⟩
  rw [effect_eq, Scanner.feed_of_ends h, Vocabulary.tokens_append]
  rfl

theorem splits_of_split (hs : s.scanner.Sound) (hq : s.scanner.state = .dotDot)
    (hc : isDigit c = true) (h : move s.scanner.state c = .split (.stay .fraction)) :
    s.Splits c := by
  refine ⟨hq, hc, ?_⟩
  rw [effect_eq, hs.feed_of_fraction hq h]
  rfl

/-! ## no two of them -/

theorem Absorbs.not_splits (h : s.Absorbs c) : ¬ s.Splits c := by
  rintro ⟨-, -, he⟩
  rcases h with ⟨ht, -⟩ | ⟨kind, ht⟩
  · rw [he] at ht
    cases ht
  · rw [he] at ht
    cases ht

theorem Closes.not_splits (h : s.Closes c) : ¬ s.Splits c := by
  rintro ⟨hq, -, he⟩
  obtain ⟨closed, hf, ht⟩ := h
  -- two points are closed as two tokens, and only one is split off
  have hc : closed = s.vocabulary.tokens (Scanner.closing .dotDot s.scanner.buffered) := by
    rw [← hq]
    exact (List.append_cancel_left hf).symm
  rw [he, hc] at ht
  have hm : [_] = _ :: _ :: _ := congrArg Effect.emitted ht
  cases (List.cons_eq_cons.mp hm).2

theorem textOf_closed {closed : List Token} (hq : s.scanner.state ≠ .idle)
    (h : s.finish = s.tokens ++ closed) : textOf closed = s.scanner.buffered := by
  rw [← List.append_cancel_left h, Vocabulary.textOf_tokens, Scanner.close,
    Scanner.cutText_closing _ _ hq]

theorem Absorbs.not_closes (hs : s.scanner.Sound) (hb : s.scanner.buffered ≠ [])
    (h : s.Absorbs c) : ¬ s.Closes c := by
  rintro ⟨closed, hf, he⟩
  have hq : s.scanner.state ≠ .idle := fun e => hb (hs.buffered_eq_nil_iff.mpr e)
  have ht : textOf closed = s.scanner.buffered := textOf_closed hq hf
  have hc : closed ≠ [] := by
    rintro rfl
    exact hb ht.symm
  rcases h with ⟨hn, -⟩ | ⟨kind, ho⟩
  · rw [he] at hn
    exact hc (List.append_eq_nil_iff.mp hn).1
  · -- the one token would be what closes, but it has one character more
    rw [he] at ho
    have hm : closed ++ _ = [_] := congrArg Effect.emitted ho
    rcases List.append_eq_singleton_iff.mp hm with ⟨e, -⟩ | ⟨rfl, -⟩
    · exact hc e
    · have hl := congrArg List.length ht
      simp [textOf] at hl

end

end Session

/-- at every moment of a session in which a text is open, a character joins the text, or closes it
and begins anew, or splits two points, and it does only one of these -/
theorem step_exactly_one (v : Vocabulary) (os : List Session.Operation) (c : Char)
    (h : ((Ledger.new v).run os).session.scanner.buffered ≠ []) :
    let s := ((Ledger.new v).run os).session
    ExactlyOne (s.Absorbs c) (s.Closes c) (s.Splits c) := by
  intro s
  have hs : s.scanner.Sound := (Ledger.balanced_run v os).sound
  rcases move_cases s.scanner.state c with ⟨next, hm⟩ | hm | ⟨hq, hd, hm⟩
  · have ha : s.Absorbs c := Session.absorbs_of_join hm
    exact Or.inl ⟨ha, ha.not_closes hs h, ha.not_splits⟩
  · have hc : s.Closes c := Session.closes_of_ends hm
    exact Or.inr (Or.inl ⟨fun ha => ha.not_closes hs h hc, hc, hc.not_splits⟩)
  · have hp : s.Splits c := Session.splits_of_split hs hq hd hm
    exact Or.inr (Or.inr ⟨fun ha => ha.not_splits hp, fun hc => hc.not_splits hp, hp⟩)

/-- behind two points a third one joins them, a semicolon closes them and completes three tokens,
and a digit splits them -/
theorem step_exactly_one_behind_points :
    let v := Vocabulary.ofWords []
    let os : List Session.Operation := [.feed ['a', '.'], .drain, .feed ['.']]
    let s := ((Ledger.new v).run os).session
    s.scanner.buffered ≠ [] ∧ (s.effect ';').emitted.length = 3 ∧
      ∀ c, ExactlyOne (s.Absorbs c) (s.Closes c) (s.Splits c) := by
  intro v os s
  have h : s.scanner.buffered ≠ [] := by decide +kernel
  exact ⟨h, by decide +kernel, fun c => step_exactly_one v os c h⟩

end CurlyLex
