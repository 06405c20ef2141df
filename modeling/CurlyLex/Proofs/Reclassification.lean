import CurlyLex.Proofs.Resumption

/-!
# Two vocabularies

Two sessions that are asked the same differ by what their vocabularies call the words, and by
nothing else.

* `Vocabulary.reclassify w t`   the token `t` with the kind that `w` gives to its lexeme, if it is a
                      word of any kind;
* `Session.reclassify`, `Effect.reclassify`, `Reply.reclassify`   the same for what holds tokens;
                      states and open texts stay;
* `perform_reclassify`   one operation, asked of both sessions;
* `performAll_reclassify`   and so any list of them;
* `vocabulary_only_classifies`   so a vocabulary moves no boundary: a scan with another one has the
                      same tokens, reclassified.
-/

namespace CurlyLex

namespace Vocabulary

def reclassify (w : Vocabulary) (t : Token) : Token :=
  if t.kind ∈ wordKinds then { t with kind := w.kindOf t.lexeme } else t

variable (v w : Vocabulary)

theorem reclassify_token (p : Piece) : w.reclassify (v.token p) = w.token p := by
  obtain ⟨shape, text⟩ := p
  unfold reclassify
  cases shape with
  | word =>
    have hk : (v.token ⟨.word, text⟩).kind ∈ wordKinds := v.kindOf_mem_wordKinds text
    rw [if_pos hk]
    rfl
  -- no other shape has a kind that words have
  | _ => rfl

theorem reclassify_tokens (ps : List Piece) : (v.tokens ps).map w.reclassify = w.tokens ps := by
  unfold tokens
  rw [List.map_map]
  apply List.map_congr_left
  intro p _
  exact reclassify_token v w p

end Vocabulary

namespace Session

def reclassify (w : Vocabulary) (s : Session) : Session :=
  ⟨w, s.scanner, s.ready.map w.reclassify⟩

def Effect.reclassify (w : Vocabulary) (e : Effect) : Effect :=
  { e with emitted := e.emitted.map w.reclassify }

def Reply.reclassify (w : Vocabulary) : Reply → Reply
  | .fed effects => .fed (effects.map (Effect.reclassify w))
  | .drained ts => .drained (ts.map w.reclassify)
  | .tokens ts => .tokens (ts.map w.reclassify)
  | .peeked state buffered => .peeked state buffered
  | .finished ts => .finished (ts.map w.reclassify)

section
variable (w : Vocabulary) (s : Session)

theorem reclassify_new (v : Vocabulary) : (new v).reclassify w = new w := rfl

theorem tokens_reclassify : (s.reclassify w).tokens = s.tokens.map w.reclassify := by
  show (s.ready.map w.reclassify).reverse = s.ready.reverse.map w.reclassify
  rw [List.map_reverse]

theorem finish_reclassify : (s.reclassify w).finish = s.finish.map w.reclassify := by
  unfold finish
  rw [tokens_reclassify, List.map_append, Vocabulary.reclassify_tokens]
  rfl

theorem feed_reclassify (c : Char) :
    (s.reclassify w).feed c = ((s.feed c).1.map w.reclassify, (s.feed c).2.reclassify w) := by
  have ht := Vocabulary.reclassify_tokens s.vocabulary w (s.scanner.feed c).1
  show (w.tokens (s.scanner.feed c).1, (⟨w, (s.scanner.feed c).2,
      (w.tokens (s.scanner.feed c).1).reverse ++ s.ready.map w.reclassify⟩ : Session)) =
    ((s.vocabulary.tokens (s.scanner.feed c).1).map w.reclassify, ⟨w, (s.scanner.feed c).2,
      ((s.vocabulary.tokens (s.scanner.feed c).1).reverse ++ s.ready).map w.reclassify⟩)
  rw [List.map_append, List.map_reverse, ht]

/-! ## any number of operations -/

theorem feedFrom_reclassify (done : List Effect) (text : Text) :
    feedFrom (done.map (Effect.reclassify w)) (s.reclassify w) text =
      ((feedFrom done s text).1.map (Effect.reclassify w),
        (feedFrom done s text).2.reclassify w) := by
  induction text generalizing done s with
  | nil =>
    unfold feedFrom
    rw [List.map_reverse]
  | cons c cs ih =>
    unfold feedFrom
    rw [feed_reclassify]
    exact ih (s.feed c).2 (⟨(s.feed c).2.scanner.state, (s.feed c).2.scanner.buffered,
      (s.feed c).1⟩ :: done)

theorem perform_reclassify (o : Operation) :
    (s.reclassify w).perform o =
      ((s.perform o).1.reclassify w, (s.perform o).2.reclassify w) := by
  cases o with
  | feed text =>
    have hf : feedFrom [] (s.reclassify w) text =
        ((feedFrom [] s text).1.map (Effect.reclassify w),
          (feedFrom [] s text).2.reclassify w) := feedFrom_reclassify w s [] text
    show (Reply.fed (feedFrom [] (s.reclassify w) text).1,
      (feedFrom [] (s.reclassify w) text).2) = _
    rw [hf]
    rfl
  | drain =>
    show (Reply.drained (s.reclassify w).tokens, _) = (Reply.drained (s.tokens.map _), _)
    rw [tokens_reclassify]
    rfl
  | tokens =>
    show (Reply.tokens (s.reclassify w).tokens, _) = (Reply.tokens (s.tokens.map _), _)
    rw [tokens_reclassify]
    rfl
  | peek => rfl
  | finish =>
    show (Reply.finished (s.reclassify w).finish, _) = (Reply.finished (s.finish.map _), _)
    rw [finish_reclassify]
    rfl

theorem performAll_reclassify (os : List Operation) :
    (s.reclassify w).performAll os = (s.performAll os).map (Reply.reclassify w) := by
  induction os generalizing s with
  | nil => rfl
  | cons o os ih =>
    unfold performAll
    rw [perform_reclassify, List.map_cons]
    exact congrArg _ (ih (s.perform o).2)

end

end Session

/-- whatever is asked of two new sessions, their replies differ by the kinds of words alone; so both
go through the same states with the same open texts, and the tokens of a text with one vocabulary
are those with the other, reclassified -/
theorem vocabulary_only_classifies (v w : Vocabulary) :
    (∀ os, (Session.new w).performAll os =
      ((Session.new v).performAll os).map (Session.Reply.reclassify w)) ∧
    (∀ u, (Session.fed w u).scanner.state = (Session.fed v u).scanner.state ∧
      (Session.fed w u).scanner.buffered = (Session.fed v u).scanner.buffered) ∧
    ∀ text, scan w text = (scan v text).map w.reclassify := by
  refine ⟨?_, ?_, ?_⟩
  · intro os
    have h := Session.performAll_reclassify w (Session.new v) os
    rwa [Session.reclassify_new] at h
  · intro u
    have hs : (Session.fed w u).scanner = (Session.fed v u).scanner := by
      rw [Session.scanner_fed, Session.scanner_fed]
    exact ⟨congrArg Scanner.state hs, congrArg Scanner.buffered hs⟩
  · intro text
    exact (Vocabulary.reclassify_tokens v w (cut text)).symm

end CurlyLex
