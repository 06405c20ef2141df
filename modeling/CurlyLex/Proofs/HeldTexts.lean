import CurlyLex.Proofs.Accounting
import CurlyLex.Proofs.Malformed
import CurlyLex.Proofs.Parting

/-!
# The texts that a session may hold

* `State.texts`         the texts of a state: those that are well-formed so far, and the malformed
                        ones in the malformed state;
* `open_iff_mem_texts`  a text may be open in a state exactly if it is one of these;
* `Session.Reaches v q b`   feeds and drains lead a new session to the state `q` and the open text
                        `b`;
* `Open.reaches`        one feed leads to any text that may be open;
* `states_hold_their_texts`   so a session reaches the texts of every state and no others, and
                        whatever was asked of it, its open text can be parted at its bytes as the
                        next character or the end of input asks.
-/

namespace CurlyLex

/-- the texts that may be open in a state -/
def State.texts : State → Language Char
  | .malformed => Grammar.malformed
  | q => q.language

theorem open_iff_mem_texts (q : State) (b : Text) : Open q b ↔ b ∈ q.texts := by
  by_cases hq : q = .malformed
  · subst hq
    exact open_malformed_iff b
  · have ht : q.texts = q.language := by
      cases q
      case malformed => exact absurd rfl hq
      all_goals rfl
    rw [ht]
    refine ⟨?_, .wellFormed⟩
    intro h
    exact h.mem_language hq

/-! ## what feeds and drains lead to -/

namespace Session

/-- does the operation go on with the input and change the session? -/
def Operation.feedsOrDrains : Operation → Bool
  | .feed _ | .drain => true
  | _ => false

/-- feeds and drains lead a new session to the state `q` and the open text `b` -/
def Reaches (v : Vocabulary) (q : State) (b : Text) : Prop :=
  ∃ os : List Operation, (∀ o ∈ os, o.feedsOrDrains = true) ∧
    let s := ((Ledger.new v).run os).session.scanner
    s.state = q ∧ s.buffered = b

end Session

variable {v : Vocabulary} {q : State} {b : Text}

theorem Session.Reaches.isOpen (h : Session.Reaches v q b) : Open q b := by
  obtain ⟨os, -, rfl, rfl⟩ := h
  exact (Ledger.balanced_run v os).sound

theorem Open.reaches (h : Open q b) : Session.Reaches v q b := by
  refine ⟨[.feed b], by simp [Session.Operation.feedsOrDrains], ?_⟩
  have hs : ((Ledger.new v).run [.feed b]).session.scanner = ⟨q, b.reverse⟩ := by
    show (Session.fed v b).scanner = ⟨q, b.reverse⟩
    rw [Session.scanner_fed, h.run]
  rw [hs]
  exact ⟨rfl, List.reverse_reverse b⟩

/-- in every state the texts of that state, and no others, are what feeds and drains may leave open;
and at every moment of a session, whatever was asked of it before, the open text can be parted at
its bytes as the next character asks and as the end of input asks -/
theorem states_hold_their_texts (v : Vocabulary) :
    (∀ (q : State) (b : Text), Session.Reaches v q b ↔ b ∈ q.texts) ∧
    ∀ (os : List Session.Operation) (c : Char),
      let s := ((Ledger.new v).run os).session.scanner
      s.buffered ∈ s.state.texts ∧ s.feedInBytes? c = some (s.feed c) ∧
        s.closeInBytes? = some s.close := by
  refine ⟨?_, ?_⟩
  · intro q b
    rw [← open_iff_mem_texts]
    exact ⟨Session.Reaches.isOpen, Open.reaches⟩
  · intro os c s
    have hs : s.Sound := (Ledger.balanced_run v os).sound
    exact ⟨(open_iff_mem_texts s.state s.buffered).mp hs, hs.feedInBytes?_eq c,
      hs.closeInBytes?_eq⟩

end CurlyLex
