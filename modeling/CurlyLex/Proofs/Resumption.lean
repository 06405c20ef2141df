import CurlyLex.Proofs.Sound

/-!
# Resuming a session

* `Session.fed v u`   a new session that was fed `u`, and nothing else;
* `feedFrom_snd`      what a session becomes behind a text, in terms of its scanner;
* `resume_buffered`   a new session that is fed the open text of an old one goes on like it.

Tokens once emitted are therefore final, and a scan can start again from the open text alone.
-/

namespace CurlyLex

namespace Session

/-- a new session behind the text `u` -/
def fed (v : Vocabulary) (u : Text) : Session := ((new v).perform (.feed u)).2

/-! ## feeding a text -/

theorem feed_snd (s : Session) (c : Char) :
    (s.feed c).2 = ⟨s.vocabulary, (s.scanner.feed c).2,
      (s.vocabulary.tokens (s.scanner.feed c).1).reverse ++ s.ready⟩ := rfl

theorem feedFrom_snd (done : List Effect) (s : Session) (text : Text) :
    (feedFrom done s text).2 = ⟨s.vocabulary, (s.scanner.run text).2,
      (s.vocabulary.tokens (s.scanner.run text).1).reverse ++ s.ready⟩ := by
  induction text generalizing done s with
  | nil => rfl
  | cons c cs ih =>
    rw [feedFrom, ih, feed_snd, Scanner.run_cons, Vocabulary.tokens_append, List.reverse_append,
      List.append_assoc]

theorem perform_feed_snd (s : Session) (text : Text) :
    (s.perform (.feed text)).2 = ⟨s.vocabulary, (s.scanner.run text).2,
      (s.vocabulary.tokens (s.scanner.run text).1).reverse ++ s.ready⟩ := feedFrom_snd [] s text

/-! ## a session behind one text -/

section
variable (v : Vocabulary) (u : Text)

theorem scanner_fed : (fed v u).scanner = (Scanner.fresh.run u).2 := by
  rw [fed, perform_feed_snd]
  rfl

theorem tokens_fed : (fed v u).tokens = v.tokens (Scanner.fresh.run u).1 := by
  rw [fed, perform_feed_snd, tokens, List.reverse_append, List.reverse_reverse]
  rfl

theorem sound_fed : (fed v u).scanner.Sound := by
  rw [scanner_fed]
  exact Scanner.sound_run_fresh u

/-- the session keeps its whole text: what is not in its tokens is still open -/
theorem textOf_tokens_fed : textOf (fed v u).tokens ++ (fed v u).scanner.buffered = u := by
  rw [tokens_fed, v.textOf_tokens, scanner_fed]
  exact Scanner.cutText_run Scanner.fresh u

/-- its tokens are final, whatever follows -/
theorem tokens_fed_prefix (w : Text) : (fed v u).tokens <+: scan v (u ++ w) := by
  rw [tokens_fed, scan, cut_append_eq, Vocabulary.tokens_append]
  exact List.prefix_append _ _

end

/-! ## resuming -/

/-- the open text of a session behind `u` stands for all of `u`: fed to a new session it emits
nothing and leads to the same state, and what follows makes the same tokens behind it -/
theorem resume_buffered (v : Vocabulary) (u w : Text) :
    let s := fed v u
    let s' := fed v s.scanner.buffered
    s'.tokens = [] ∧ s'.scanner.state = s.scanner.state ∧
      s'.scanner.buffered = s.scanner.buffered ∧
      (fed v (u ++ w)).tokens = s.tokens ++ (fed v (s.scanner.buffered ++ w)).tokens ∧
      scan v (u ++ w) = s.tokens ++ scan v (s.scanner.buffered ++ w) := by
  intro s s'
  have hb : Scanner.fresh.run s.scanner.buffered = ([], s.scanner) := (sound_fed v u).run_buffered
  have hs : s'.scanner = s.scanner := by
    rw [show s' = fed v s.scanner.buffered from rfl, scanner_fed, hb]
  have hr : s.scanner = (Scanner.fresh.run u).2 := scanner_fed v u
  refine ⟨?_, congrArg Scanner.state hs, congrArg Scanner.buffered hs, ?_, ?_⟩
  · show (fed v s.scanner.buffered).tokens = []
    rw [tokens_fed, hb]
    rfl
  · show (fed v (u ++ w)).tokens = (fed v u).tokens ++ (fed v (s.scanner.buffered ++ w)).tokens
    rw [tokens_fed, tokens_fed, tokens_fed, Scanner.run_append, Scanner.run_append, hb, ← hr,
      Vocabulary.tokens_append]
    rfl
  · show scan v (u ++ w) = (fed v u).tokens ++ scan v (s.scanner.buffered ++ w)
    rw [tokens_fed, scan, scan, cut_append_eq, ← hr, Vocabulary.tokens_append]

end Session

end CurlyLex
