import CurlyLex.Proofs.Pieces
import CurlyLex.Proofs.Resumption

/-!
# Accounting for the input

Whoever drives a session can keep a ledger beside it.

* `Ledger`            a session, the input that it was fed, and the tokens that it handed out;
* `Ledger.enter`      one operation, entered with its reply; to finish begins a new input;
* `Ledger.Balanced`   the session is the one behind the input, but for what was drained from it;
* `Balanced.enter`, `balanced_run`   every operation keeps a ledger balanced;
* `lexemes_account_for_input`   so at every moment the lexemes handed out, those still held and
                      the open text are the input, each character once and in order, and no lexeme
                      is empty.
-/

namespace CurlyLex

/-! ## no lexeme is empty -/

theorem nil_not_mem_lexemes_scan (v : Vocabulary) (text : Text) :
    [] ∉ (scan v text).map Token.lexeme := by
  rw [scan_eq, List.map_map]
  intro h
  obtain ⟨p, hp, e⟩ := List.mem_map.mp h
  obtain ⟨rest, hr⟩ := exists_endsBefore_of_mem_cut hp
  exact hr.text_ne_nil e

/-! ## ledgers -/

/-- the tokens that a drain handed out -/
def Session.Reply.handedOut : Session.Reply → List Token
  | .drained ts => ts
  | _ => []

structure Ledger where
  session : Session
  /-- the text fed since the input began -/
  input : Text
  /-- the tokens drained since the input began -/
  drained : List Token

namespace Ledger

def new (v : Vocabulary) : Ledger := ⟨.new v, [], []⟩

/-- the ledger behind one more operation of its session -/
def enter (l : Ledger) (o : Session.Operation) : Ledger :=
  let (r, s) := l.session.perform o
  match o with
  | .feed text => ⟨s, l.input ++ text, l.drained⟩
  | .finish => ⟨s, [], []⟩
  | _ => ⟨s, l.input, l.drained ++ r.handedOut⟩

/-- the ledger behind a list of operations -/
def run (l : Ledger) (os : List Session.Operation) : Ledger := os.foldl enter l

/-! ## balance -/

/-- the session is the one behind the input, but for what was drained from it -/
structure Balanced (v : Vocabulary) (l : Ledger) : Prop where
  vocabulary : l.session.vocabulary = v
  scanner : l.session.scanner = (Scanner.fresh.run l.input).2
  tokens : l.drained ++ l.session.tokens = v.tokens (Scanner.fresh.run l.input).1

variable {v : Vocabulary} {l : Ledger}

theorem balanced_new (v : Vocabulary) : (new v).Balanced v := ⟨rfl, rfl, rfl⟩

theorem Balanced.enter_feed (h : l.Balanced v) (text : Text) :
    (l.enter (.feed text)).Balanced v := by
  have hs := Session.perform_feed_snd l.session text
  refine ⟨?_, ?_, ?_⟩
  · show (l.session.perform (.feed text)).2.vocabulary = v
    rw [hs, h.vocabulary]
  · show (l.session.perform (.feed text)).2.scanner = (Scanner.fresh.run (l.input ++ text)).2
    rw [hs, Scanner.run_append, h.scanner]
  · show l.drained ++ (l.session.perform (.feed text)).2.tokens =
      v.tokens (Scanner.fresh.run (l.input ++ text)).1
    rw [hs, Session.tokens, List.reverse_append, List.reverse_reverse, Scanner.run_append,
      Vocabulary.tokens_append, ← List.append_assoc, h.vocabulary, h.scanner, ← h.tokens]
    rfl

theorem Balanced.enter_drain (h : l.Balanced v) : (l.enter .drain).Balanced v := by
  refine ⟨h.vocabulary, h.scanner, ?_⟩
  show l.drained ++ l.session.tokens ++ [] = v.tokens (Scanner.fresh.run l.input).1
  rw [List.append_nil, h.tokens]

/-- to look at a session changes nothing -/
theorem Balanced.append_nil (h : l.Balanced v) :
    Balanced v ⟨l.session, l.input, l.drained ++ []⟩ := by
  rw [List.append_nil]
  exact h

theorem Balanced.enter (h : l.Balanced v) (o : Session.Operation) : (l.enter o).Balanced v := by
  cases o with
  | feed text => exact h.enter_feed text
  | drain => exact h.enter_drain
  | tokens => exact h.append_nil
  | peek => exact h.append_nil
  | finish =>
    show Balanced v ⟨.new l.session.vocabulary, [], []⟩
    rw [h.vocabulary]
    exact balanced_new v

theorem Balanced.run (h : l.Balanced v) (os : List Session.Operation) : (l.run os).Balanced v := by
  induction os generalizing l with
  | nil => exact h
  | cons o os ih => exact ih (h.enter o)

theorem balanced_run (v : Vocabulary) (os : List Session.Operation) :
    ((new v).run os).Balanced v := (balanced_new v).run os

/-! ## what a balanced ledger shows -/

section
variable (h : l.Balanced v)
include h

theorem Balanced.sound : l.session.scanner.Sound := by
  rw [h.scanner]
  exact Scanner.sound_run_fresh l.input

theorem Balanced.drained_append_finish : l.drained ++ l.session.finish = scan v l.input := by
  rw [Session.finish, ← List.append_assoc, h.tokens, h.vocabulary, h.scanner, scan, cut_eq,
    Vocabulary.tokens_append]

theorem Balanced.lexemes_append_buffered :
    textOf l.drained ++ textOf l.session.tokens ++ l.session.scanner.buffered = l.input := by
  rw [← textOf_append, h.tokens, Vocabulary.textOf_tokens, h.scanner, Scanner.cutText_run]
  rfl

theorem Balanced.lexemes_append_finish :
    textOf l.drained ++ textOf l.session.finish = l.input := by
  rw [← textOf_append, h.drained_append_finish, textOf_scan]

theorem Balanced.nil_not_mem_lexemes :
    [] ∉ (l.drained ++ l.session.finish).map Token.lexeme := by
  rw [h.drained_append_finish]
  exact nil_not_mem_lexemes_scan v l.input

end

end Ledger

/-- at every moment of a session, whatever was asked of it before: the lexemes drained, the lexemes
not yet drained and the open text are the input; the open text is empty only between pieces; and
what was drained and what the session would finish with are the input too, without an empty
lexeme -/
theorem lexemes_account_for_input (v : Vocabulary) (os : List Session.Operation) :
    let l := (Ledger.new v).run os
    textOf l.drained ++ textOf l.session.tokens ++ l.session.scanner.buffered = l.input ∧
      (l.session.scanner.buffered = [] ↔ l.session.scanner.state = .idle) ∧
      textOf l.drained ++ textOf l.session.finish = l.input ∧
      [] ∉ (l.drained ++ l.session.tokens).map Token.lexeme ∧
      [] ∉ (l.drained ++ l.session.finish).map Token.lexeme ∧
      ∀ text, textOf (scan v text) = text := by
  intro l
  have h : l.Balanced v := Ledger.balanced_run v os
  have hf := h.nil_not_mem_lexemes
  refine ⟨h.lexemes_append_buffered, h.sound.buffered_eq_nil_iff, h.lexemes_append_finish, ?_, hf,
    textOf_scan v⟩
  intro ht
  apply hf
  rw [Session.finish, ← List.append_assoc, List.map_append]
  exact List.mem_append_left _ ht

end CurlyLex
