import CurlyLex.Command.Writer

/-!
# What arrives at a sink

Whatever is written, in whatever pieces and however much of it is held meanwhile, at last the sink
has taken as many of the bytes as it has room for, and it is known whether there were more.

* `Sink.receive`, `Sink.overflows`   what the sink takes of some bytes, and whether they are too
                      many;
* `Writer.Fine`, `Writer.Full`   the two states of a writer: what has been written has arrived or is
                      held, or the sink has refused some of it;
* `After`             where a computation has ended: in the one state, or with a failure in the
                      other;
* `Writes m b`        the computation `m` writes the bytes `b`; `Writes.bind`, `writes_write` and
                      `writes_print`: writes one after the other, of some bytes, and of a text in
                      pieces;
* `Printing.close_flush`   the outcome of a command that flushes when it has written.
-/

namespace CurlyLex

/-! ## sinks -/

namespace Sink

/-- what arrives at the sink of the bytes that are written to it -/
def receive (s : Sink) (written : Bytes) : Bytes :=
  match s.capacity with
  | none => written
  | some n => written.take n

/-- is there no room for all of the bytes? -/
def overflows (s : Sink) (written : Bytes) : Bool :=
  match s.capacity with
  | none => false
  | some n => decide (n < written.length)

theorem receive_unlimited (written : Bytes) : unlimited.receive written = written := rfl

section
variable {s : Sink} {a : Bytes}

theorem receive_of_not_overflows (h : s.overflows a = false) : s.receive a = a := by
  obtain ⟨capacity, refusal⟩ := s
  cases capacity with
  | none => rfl
  | some n => exact List.take_of_length_le (Nat.le_of_not_lt (of_decide_eq_false h))

theorem overflows_nil (s : Sink) : s.overflows [] = false := by
  obtain ⟨capacity, refusal⟩ := s
  cases capacity <;> rfl

variable (h : s.overflows a = true) (b : Bytes)
include h

theorem overflows_append : s.overflows (a ++ b) = true := by
  obtain ⟨capacity, refusal⟩ := s
  cases capacity with
  | none => cases h
  | some n =>
    have hn : n < a.length := of_decide_eq_true h
    exact decide_eq_true (by rw [List.length_append]; omega)

theorem receive_append : s.receive (a ++ b) = s.receive a := by
  obtain ⟨capacity, refusal⟩ := s
  cases capacity with
  | none => cases h
  | some n => exact List.take_append_of_le_length (Nat.le_of_lt (of_decide_eq_true h))

end

end Sink

/-! ## passing bytes on -/

namespace Writer

section
variable {w : Writer} {a : Bytes}

/-- a sink that has taken what it could of some bytes takes what it can of more -/
theorem taken_offer (h : w.taken.toList = w.sink.receive a) (bytes : Array UInt8) :
    (w.offer bytes).1.taken.toList = w.sink.receive (a ++ bytes.toList) := by
  obtain ⟨⟨capacity, refusal⟩, taken, held⟩ := w
  cases capacity with
  | none =>
    show (taken ++ bytes).toList = a ++ bytes.toList
    rw [Array.toList_append, h]
    rfl
  | some n =>
    have h : taken.toList = a.take n := h
    have hn : n - taken.size = n - a.length := by
      rw [← Array.length_toList, h, List.length_take]
      omega
    show (taken ++ bytes.take (n - taken.size)).toList = (a ++ bytes.toList).take n
    rw [Array.toList_append, Array.take_eq_extract, Array.toList_extract,
      List.extract_eq_take_drop, List.drop_zero, Nat.sub_zero, hn, h, List.take_append]

/-- either the sink has room for the bytes, or it is full afterwards and refuses some of them -/
theorem offer_cases (h : w.sink.overflows w.taken.toList = false) (bytes : Array UInt8) :
    (w.sink.overflows (w.taken.toList ++ bytes.toList) = false ∧
      w.offer bytes = (⟨w.sink, w.taken ++ bytes, w.held⟩, #[])) ∨
    (w.sink.overflows (w.taken.toList ++ bytes.toList) = true ∧
      ∃ taken refused, taken.toList = w.sink.receive (w.taken.toList ++ bytes.toList) ∧
        refused.isEmpty = false ∧ w.offer bytes = (⟨w.sink, taken, w.held⟩, refused)) := by
  have ht := taken_offer (Sink.receive_of_not_overflows h).symm bytes
  obtain ⟨⟨capacity, refusal⟩, taken, held⟩ := w
  cases capacity with
  | none => exact Or.inl ⟨rfl, rfl⟩
  | some n =>
    have h : ¬ n < taken.toList.length := of_decide_eq_false h
    rw [Array.length_toList] at h
    by_cases hn : n < taken.size + bytes.size
    · refine Or.inr ⟨?_, _, _, ht, ?_, rfl⟩
      · exact decide_eq_true (by simpa using hn)
      · show (bytes.drop (n - taken.size)).isEmpty = false
        rw [Array.isEmpty, Array.drop_eq_extract, Array.size_extract]
        exact decide_eq_false (by omega)
    · have hb : bytes.size ≤ n - taken.size := by omega
      refine Or.inl ⟨?_, ?_⟩
      · exact decide_eq_false (by simpa using hn)
      · simp [offer, Array.extract_eq_self_of_le hb, hb]

end

/-! ## the states of a writer -/

/-- the bytes have been written, and the sink has taken all that was passed on to it -/
structure Fine (sink : Sink) (written : Bytes) (w : Writer) : Prop where
  sink_eq : w.sink = sink
  written_eq : w.taken.toList ++ w.held.toList = written
  fits : sink.overflows w.taken.toList = false

/-- the bytes have been written, or some first ones that were too many for the sink -/
structure Full (sink : Sink) (written : Bytes) (w : Writer) : Prop where
  sink_eq : w.sink = sink
  overflows : sink.overflows written = true
  taken_eq : w.taken.toList = sink.receive written

/-- where a computation has ended: the bytes have been written, or it has failed at some of them -/
def After (sink : Sink) (written : Bytes) : EStateM.Result Failure Writer Unit → Prop
  | .ok _ w => w.Fine sink written
  | .error f w => w.Full sink written ∧ f = .output sink.refusal

section
variable {sink : Sink} {a b : Bytes} {w : Writer}

theorem fine_new (sink : Sink) : (new sink).Fine sink [] := ⟨rfl, rfl, sink.overflows_nil⟩

theorem Full.append (h : w.Full sink a) (b : Bytes) : w.Full sink (a ++ b) :=
  ⟨h.sink_eq, Sink.overflows_append h.overflows b,
    h.taken_eq.trans (Sink.receive_append h.overflows b).symm⟩

theorem Fine.close_eq (h : w.Fine sink a) : w.close = sink.receive a := by
  obtain ⟨rfl, rfl, hf⟩ := h
  exact taken_offer (Sink.receive_of_not_overflows hf).symm w.held

theorem Full.close_eq (h : w.Full sink a) : w.close = sink.receive a := by
  obtain ⟨rfl, ho, ht⟩ := h
  rw [close, taken_offer ht, Sink.receive_append ho]

/-- a flush fails exactly if the sink has no room for what has been written, and then nothing is
held -/
theorem Fine.flush_cases (h : w.Fine sink a) :
    (sink.overflows a = false ∧ ∃ w', flush w = .ok () w' ∧ w'.Fine sink a ∧ w'.held = #[]) ∨
    (sink.overflows a = true ∧
      ∃ w', flush w = .error (.output sink.refusal) w' ∧ w'.Full sink a) := by
  obtain ⟨rfl, rfl, hf⟩ := h
  rw [flush]
  obtain ⟨ho, e⟩ | ⟨ho, taken, refused, ht, hr, e⟩ := offer_cases hf w.held
  · rw [e]
    refine Or.inl ⟨ho, _, rfl, ⟨rfl, ?_, ?_⟩, rfl⟩
    · simp
    · simpa using ho
  · simp only [e, hr]
    exact Or.inr ⟨ho, _, rfl, rfl, ho, ht⟩

theorem Fine.makeRoom_cases (h : w.Fine sink a) (size : Nat) :
    (∃ w', makeRoom size w = .ok () w' ∧ w'.Fine sink a ∧
      (bufferSize ≤ size → w'.held = #[])) ∨
    ∃ w', makeRoom size w = .error (.output sink.refusal) w' ∧ w'.Full sink a := by
  rw [makeRoom]
  split
  · obtain ⟨-, w', e, hw, hn⟩ | ⟨-, w', e, hw⟩ := h.flush_cases
    · exact Or.inl ⟨w', e, hw, fun _ => hn⟩
    · exact Or.inr ⟨w', e, hw⟩
  · refine Or.inl ⟨w, rfl, h, fun hs => ?_⟩
    rw [← Array.size_eq_zero_iff]
    omega

/-- bytes may be passed on where none are held -/
theorem Fine.after_pass (h : w.Fine sink a) (hn : w.held = #[]) (bytes : Array UInt8) :
    After sink (a ++ bytes.toList) (pass bytes w) := by
  obtain ⟨rfl, rfl, hf⟩ := h
  rw [pass, hn, Array.toList_empty, List.append_nil]
  obtain ⟨ho, e⟩ | ⟨ho, taken, refused, ht, hr, e⟩ := offer_cases hf bytes
  · rw [e]
    refine ⟨rfl, ?_, ?_⟩
    · simp [hn]
    · simpa using ho
  · simp only [e, hr]
    exact ⟨⟨rfl, ho, ht⟩, rfl⟩

end

/-! ## computations that write -/

/-- the computation writes the bytes, as far as the sink has room for them -/
def Writes (m : Printing Unit) (b : Bytes) : Prop :=
  ∀ {sink a w}, w.Fine sink a → After sink (a ++ b) (m w)

section
variable {sink : Sink} {a b c : Bytes} {m k : Printing Unit} {w : Writer}

/-- a computation goes on where another has ended, unless that has failed -/
theorem After.bind (h : After sink a (m w)) (hk : Writes k b) :
    After sink (a ++ b) ((do m; k) w) := by
  cases hm : m w with
  | ok _ w' =>
    rw [hm] at h
    rw [Printing.bind_of_ok hm]
    exact hk h
  | error f w' =>
    rw [hm] at h
    rw [Printing.bind_of_error hm]
    exact ⟨h.1.append b, h.2⟩

theorem writes_nil : Writes (pure ()) [] := by
  intro sink a w h
  rw [List.append_nil]
  exact h

theorem Writes.bind (h : Writes m b) (hk : Writes k c) : Writes (do m; k) (b ++ c) := by
  intro sink a w hw
  rw [← List.append_assoc]
  exact (h hw).bind hk

theorem writes_hold (bytes : Array UInt8) : Writes (hold bytes) bytes.toList := by
  rintro sink a w ⟨hs, rfl, hf⟩
  refine ⟨hs, ?_, hf⟩
  show w.taken.toList ++ (w.held ++ bytes).toList = _
  rw [Array.toList_append, List.append_assoc]

theorem writes_write (bytes : Array UInt8) : Writes (write bytes) bytes.toList := by
  intro sink a w h
  obtain ⟨w', e, hw, hn⟩ | ⟨w', e, hw⟩ := h.makeRoom_cases bytes.size
  · rw [write, Printing.bind_of_ok e]
    split
    · exact writes_hold bytes hw
    · next hb => exact hw.after_pass (hn (Nat.le_of_not_lt hb)) bytes
  · rw [write, Printing.bind_of_error e]
    exact ⟨hw.append _, rfl⟩

/-- a text is written whole in whatever pieces -/
theorem writes_print (pieces : List Text) :
    Writes (print pieces) (Utf8.encode pieces.flatten) := by
  induction pieces with
  | nil => exact writes_nil
  | cons piece pieces ih =>
    rw [List.flatten_cons, Utf8.encode_append]
    exact Writes.bind (writes_write (Utf8.encode piece).toArray) ih

end

end Writer

/-! ## whole commands -/

namespace Printing

open Writer

section
variable {sink : Sink} {b : Bytes} {m : Printing Unit} {w : Writer}

/-- whether a computation has failed or not, what arrives at last is what the sink takes -/
theorem out_close {r : EStateM.Result Failure Writer Unit} (h : After sink b r) :
    (close r).out = sink.receive b := by
  cases r with
  | ok _ w => exact Fine.close_eq h
  | error f w => exact h.1.close_eq

/-- a computation that ends with a flush, and with a failure of its own behind that -/
theorem close_flush (h : After sink b (m w)) (f : Option Failure) :
    close ((do m; flush; stopWith f) w) =
      ⟨sink.receive b, if sink.overflows b then some (.output sink.refusal) else f⟩ := by
  cases hm : m w with
  | error g w' =>
    rw [hm] at h
    obtain ⟨hw, rfl⟩ := h
    rw [bind_of_error hm, hw.overflows, ← hw.close_eq]
    rfl
  | ok _ w' =>
    rw [hm] at h
    rw [bind_of_ok hm]
    obtain ⟨ho, w'', e, hw, -⟩ | ⟨ho, w'', e, hw⟩ := h.flush_cases
    · rw [bind_of_ok e, ho, ← hw.close_eq]
      cases f <;> rfl
    · rw [bind_of_error e, ho, ← hw.close_eq]
      rfl

end

end Printing

end CurlyLex
