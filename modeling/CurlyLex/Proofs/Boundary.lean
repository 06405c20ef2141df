import CurlyLex.Proofs.Pieces
import CurlyLex.Proofs.Resumption

/-!
# Where two texts are scanned apart

Two texts are scanned apart if the tokens of the one behind the other are the tokens of both.

* `ScansApart v u w`   the texts `u` and `w` are scanned apart;
* `Vocabulary.shapeOf`, `token_injective`   a token tells the piece that it was made of, so the
                      pieces decide (`scansApart_iff`);
* `Open.prefix_of_cut_eq`   an open text is part of the first piece, whatever follows;
* `Open.cut_cons_eq_iff`   so a character parts an open text from what follows exactly if it
                      closes it, and else the first piece is longer than the open text alone;
* `one_character_decides`   the character decides alone, but for a point behind a point;
* `scansApart_forall_iff`   only between pieces and behind a malformed text does nothing that may
                      follow have a say.

Behind one point a second one decides nothing alone: with a third point all three are one separator,
and without it the second one begins a piece of its own.
-/

namespace CurlyLex

/-! ## the piece of a token -/

namespace Vocabulary

/-- the shape of the pieces that become tokens of a kind -/
def shapeOf : Kind → Shape
  | .comment => .comment
  | .whitespace => .whitespace
  | .identifier | .boolean | .null | .keyword => .word
  | .operator => .operator
  | .separator => .separator
  | .int => .int
  | .float => .float
  | .char => .char
  | .string => .string
  | .error => .error

variable (v : Vocabulary)

theorem shapeOf_kindOfPiece (p : Piece) : shapeOf (v.kindOfPiece p) = p.shape := by
  obtain ⟨shape, text⟩ := p
  cases shape with
  | word =>
    show shapeOf (v.kindOf text) = .word
    have hw : ∀ k ∈ wordKinds, shapeOf k = .word := by decide
    exact hw _ (v.kindOf_mem_wordKinds text)
  | _ => rfl

theorem kindOfPiece_mem_wordKinds_iff (p : Piece) :
    v.kindOfPiece p ∈ wordKinds ↔ p.shape = .word := by
  obtain ⟨shape, text⟩ := p
  cases shape with
  | word => exact iff_of_true (v.kindOf_mem_wordKinds text) rfl
  | _ => exact iff_of_false (by simp [kindOfPiece, Shape.kind, wordKinds]) (by simp)

theorem token_injective : Function.Injective v.token := by
  intro p q h
  have hk : v.kindOfPiece p = v.kindOfPiece q := congrArg Token.kind h
  have ht : p.text = q.text := congrArg Token.lexeme h
  have hs : p.shape = q.shape := by
    rw [← v.shapeOf_kindOfPiece p, hk, v.shapeOf_kindOfPiece]
  obtain ⟨_, _⟩ := p
  obtain ⟨_, _⟩ := q
  cases hs
  cases ht
  rfl

theorem tokens_injective : Function.Injective v.tokens :=
  List.map_injective_iff.mpr v.token_injective

end Vocabulary

/-! ## what begins with an open text -/

section
variable {q r : State} {b w : Text} {c : Char} {p : Piece} {ps : List Piece}

theorem Open.state_eq (hb : Open q b) (hb' : Open r b) : q = r := by
  have h := hb.run
  rw [hb'.run] at h
  exact (congrArg (fun x => x.2.state) h).symm

/-- only a point leads to two points, and only behind a point -/
theorem Open.eq_of_move_dotDot (hb : Open q b) (h : move q c = .stay .dotDot) :
    q = .dot ∧ b = ['.'] ∧ c = '.' := by
  have hbc : Open .dotDot (b ++ [c]) := hb.concat h
  have e : b ++ [c] = ['.'] ++ ['.'] := List.mem_singleton.mp (hbc.mem_language (by decide))
  obtain ⟨rfl, hc⟩ := List.append_inj' e rfl
  exact ⟨hb.state_eq open_dot, rfl, List.singleton_inj.mp hc⟩

theorem ne_idle_of_ends (h : (move q c).ends = true) : q ≠ .idle := by
  intro e
  subst e
  cases h

theorem exists_closing_eq (hq : q ≠ .idle) (hd : q ≠ .dotDot) (b : Text) :
    ∃ shape : Shape, Scanner.closing q b = [⟨shape, b⟩] := by
  cases hp : q.pending with
  | none => exact absurd ((State.pending_eq_none_iff q).mp hp) hq
  | some shape => exact ⟨shape, Scanner.closing_of_pending b hp hd⟩

/-- the first character begins the first piece -/
theorem singleton_prefix_of_cut_eq (h : cut (c :: w) = p :: ps) : [c] <+: p.text := by
  have hc : cut (c :: w) = [] ++ p :: ps := h
  obtain ⟨rest, ht, hp, _⟩ := exists_of_cut_eq hc
  have hl : [c] <+: c :: w := List.prefix_append [c] w
  have hr : p.text <+: c :: w := ⟨rest, ht.symm⟩
  exact List.prefix_of_prefix_length_le hl hr (List.length_pos_iff.mpr hp.text_ne_nil)

/-- an open text is part of the first piece, whatever follows; only two points are parted -/
theorem Open.prefix_of_cut_eq (hb : Open q b) (hd : q ≠ .dotDot) (h : cut (b ++ w) = p :: ps) :
    b <+: p.text := by
  induction w generalizing q b with
  | nil =>
    rw [List.append_nil, hb.cut_eq] at h
    have hq : q ≠ .idle := by
      intro e
      subst e
      cases h
    obtain ⟨shape, e⟩ := exists_closing_eq hq hd b
    rw [e] at h
    cases h
    exact List.prefix_refl b
  | cons c cs ih =>
    rcases move_cases q c with ⟨next, hm⟩ | hm | ⟨hq, -, -⟩
    · cases next with
      | stay r =>
        have e : b ++ c :: cs = b ++ [c] ++ cs := by simp
        by_cases hr : r = .dotDot
        · subst hr
          obtain ⟨_, rfl, rfl⟩ := hb.eq_of_move_dotDot hm
          exact singleton_prefix_of_cut_eq h
        · rw [e] at h
          exact (List.prefix_append b [c]).trans (ih (hb.concat hm) hr h)
      | done shape =>
        rw [hb.cut_of_done hm] at h
        cases h
        exact List.prefix_append b [c]
    · obtain ⟨shape, e⟩ := exists_closing_eq (ne_idle_of_ends hm) hd b
      rw [hb.cut_of_ends hm, e] at h
      cases h
      exact List.prefix_refl b
    · exact absurd hq hd

/-- a character that joins an open text makes the first piece longer than the open text -/
theorem Open.length_lt_of_join {next : Next} (hb : Open q b) (hm : move q c = .join next)
    (hd : ¬ (q = .dot ∧ c = '.')) (h : cut (b ++ c :: w) = p :: ps) :
    b.length < p.text.length := by
  have hl : b ++ [c] <+: p.text := by
    cases next with
    | stay r =>
      have hr : r ≠ .dotDot := by
        intro e
        subst e
        obtain ⟨hq, _, hc⟩ := hb.eq_of_move_dotDot hm
        exact hd ⟨hq, hc⟩
      have hc : cut (b ++ [c] ++ w) = p :: ps := by
        rw [List.append_assoc]
        exact h
      exact (hb.concat hm).prefix_of_cut_eq hr hc
    | done shape =>
      rw [hb.cut_of_done hm] at h
      cases h
      exact List.prefix_refl _
  have h1 := hl.length_le
  rw [List.length_append, List.length_singleton] at h1
  omega

/-- behind two points both another point and a digit keep the second one -/
theorem Open.cut_cons_ne_of_dotDot (hb : Open .dotDot b) (hm : (move .dotDot c).ends ≠ true) :
    cut (b ++ c :: w) ≠ Scanner.closing .dotDot b ++ cut (c :: w) := by
  obtain rfl : b = ['.', '.'] := List.mem_singleton.mp (hb.mem_language (by decide))
  intro h
  rw [Scanner.closing_dotDot] at h
  rcases move_cases .dotDot c with ⟨next, hj⟩ | hj | ⟨-, hc, hj⟩
  · have hl : 2 < 1 := hb.length_lt_of_join hj (by simp) h
    omega
  · exact hm hj
  · have hp : c ≠ '.' := by
      intro e
      subst e
      cases hj
    have h2 : cut ('.' :: '.' :: c :: w) = ⟨.separator, ['.']⟩ :: cut ('.' :: c :: w) :=
      cut_two_points (fun e => hp (Option.some.inj e))
    have h3 : cut (['.', c] ++ w) = ⟨.separator, ['.']⟩ :: cut (c :: w) :=
      (List.cons_eq_cons.mp (h2.symm.trans h)).2
    have hl := ((Scanner.open_fraction_of_isDigit hc).prefix_of_cut_eq (by decide) h3).length_le
    have hl : 2 ≤ 1 := hl
    omega

/-- only a character that closes the open text parts it from what follows -/
theorem Open.cut_cons_eq_iff (hb : Open q b) (hd : ¬ (q = .dot ∧ c = '.')) :
    cut (b ++ c :: w) = Scanner.closing q b ++ cut (c :: w) ↔
      q = .idle ∨ (move q c).ends = true := by
  refine ⟨?_, ?_⟩
  · intro h
    by_contra hx
    obtain ⟨hq, hm⟩ := not_or.mp hx
    by_cases hdd : q = .dotDot
    · subst hdd
      exact hb.cut_cons_ne_of_dotDot hm h
    · obtain ⟨shape, e⟩ := exists_closing_eq hq hdd b
      rw [e] at h
      rcases move_cases q c with ⟨next, hj⟩ | hj | ⟨hq', -, -⟩
      · have hl : b.length < b.length := hb.length_lt_of_join hj hd h
        omega
      · exact hm hj
      · exact hdd hq'
  · intro h
    rcases h with rfl | h
    · rw [hb.eq_nil_iff.mpr rfl]
      rfl
    · exact hb.cut_of_ends h w

end

/-! ## two texts -/

/-- the tokens of the two texts are the tokens of the one behind the other -/
def ScansApart (v : Vocabulary) (u w : Text) : Prop := scan v (u ++ w) = scan v u ++ scan v w

section
variable {v : Vocabulary} {u w : Text} {c : Char}

/-- what was complete before the open text plays no part -/
theorem scansApart_iff :
    ScansApart v u w ↔ cut ((Session.fed v u).scanner.buffered ++ w) =
      (Session.fed v u).scanner.close ++ cut w := by
  have ht : scan v u ++ scan v w = v.tokens (cut u ++ cut w) :=
    (v.tokens_append (cut u) (cut w)).symm
  rw [ScansApart, ht, cut_eq u, List.append_assoc, scan, cut_append_eq, Session.scanner_fed]
  exact v.tokens_injective.eq_iff.trans (List.append_right_inj _)

theorem scansApart_cons_iff (hd : ¬ ((Session.fed v u).scanner.state = .dot ∧ c = '.')) :
    ScansApart v u (c :: w) ↔ (Session.fed v u).scanner.state = .idle ∨
      (move (Session.fed v u).scanner.state c).ends = true := by
  have hs : Open (Session.fed v u).scanner.state (Session.fed v u).scanner.buffered :=
    Session.sound_fed v u
  exact scansApart_iff.trans (hs.cut_cons_eq_iff hd)

/-- behind one point, a second one is parted from it exactly if no third one follows -/
theorem scansApart_point_iff (hq : (Session.fed v u).scanner.state = .dot) :
    ScansApart v u ('.' :: w) ↔ w.head? ≠ some '.' := by
  have hs : Open (Session.fed v u).scanner.state (Session.fed v u).scanner.buffered :=
    Session.sound_fed v u
  rw [hq] at hs
  have hb : (Session.fed v u).scanner.buffered = ['.'] :=
    List.mem_singleton.mp (hs.mem_language (by decide))
  have ha : ScansApart v u ('.' :: w) ↔
      cut ('.' :: '.' :: w) = ⟨.separator, ['.']⟩ :: cut ('.' :: w) := by
    have h : ScansApart v u ('.' :: w) ↔ _ := scansApart_iff
    rw [Scanner.close, hq, hb] at h
    exact h
  rw [ha]
  refine ⟨?_, cut_two_points⟩
  intro h e
  cases w with
  | nil => cases e
  | cons d ds =>
    cases e
    have h3 : cut ('.' :: '.' :: '.' :: ds) = ⟨.separator, ['.', '.', '.']⟩ :: cut ds :=
      open_dotDot.cut_of_done rfl ds
    rw [h3] at h
    cases (List.cons_eq_cons.mp h).1

end

/-- one character decides whether what it begins is scanned apart from what stands before it; only
for a point behind a point does the character behind it matter as well, and it may be any but a
third point -/
theorem one_character_decides (v : Vocabulary) (u w : Text) (c : Char) :
    let q := (Session.fed v u).scanner.state
    (¬ (q = .dot ∧ c = '.') → (ScansApart v u (c :: w) ↔ ScansApart v u [c])) ∧
      (q = .dot → (ScansApart v u ('.' :: w) ↔ w.head? ≠ some '.')) := by
  intro q
  refine ⟨?_, scansApart_point_iff⟩
  intro hd
  exact (scansApart_cons_iff hd).trans (scansApart_cons_iff hd).symm

/-- a digit behind two points takes the second one, and does so whatever follows; behind one point
two more make one separator of all three -/
theorem one_character_decides_behind_points :
    let v := Vocabulary.ofWords []
    (ScansApart v ['a', '.', '.'] ['5', 'e'] ↔ ScansApart v ['a', '.', '.'] ['5']) ∧
      (ScansApart v ['a', '.'] ['.', '.'] ↔ ['.'].head? ≠ some '.') := by
  intro v
  have h : (Session.fed v ['a', '.', '.']).scanner.state ≠ .dot := by decide +kernel
  have h' : (Session.fed v ['a', '.']).scanner.state = .dot := by decide +kernel
  exact ⟨(one_character_decides v ['a', '.', '.'] ['e'] '5').1 (fun hx => h hx.1),
    (one_character_decides v ['a', '.'] ['.'] '5').2 h'⟩

/-! ## cuts that nothing behind them can undo -/

/-- a character that does not close the open text, whatever is open and well-formed so far -/
def State.follower (q : State) : Char :=
  match q.pending with
  | some .operator => '='
  | some .separator => '5'
  | some .whitespace => ' '
  | _ => 'a'

theorem State.move_follower {q : State} (hq : q ≠ .idle) (hm : q ≠ .malformed) :
    (move q q.follower).ends = false ∧ q.follower ≠ '.' := by
  have h : ∀ q ∈ State.all, q ≠ .idle → q ≠ .malformed →
      (move q q.follower).ends = false ∧ q.follower ≠ '.' := by decide +kernel
  exact h q q.mem_all hq hm

/-- between pieces and behind a malformed text, and nowhere else, an input may be cut whatever
follows: a malformed text has no part in what is made of the text behind it -/
theorem scansApart_forall_iff (v : Vocabulary) (u : Text) :
    let q := (Session.fed v u).scanner.state
    q = .idle ∨ q = .malformed ↔ ∀ w, ScansApart v u w := by
  intro q
  constructor
  · intro h w
    cases w with
    | nil =>
      show scan v (u ++ []) = scan v u ++ []
      rw [List.append_nil, List.append_nil]
    | cons c cs =>
      have hd : ¬ (q = .dot ∧ c = '.') := by
        rintro ⟨hd, -⟩
        rcases h with h | h <;> rw [h] at hd <;> cases hd
      have hc : q = .idle ∨ (move q c).ends = true := by
        rcases h with h | h
        · exact Or.inl h
        · right
          rw [h]
          rfl
      exact (scansApart_cons_iff hd).mpr hc
  · intro h
    by_contra hx
    obtain ⟨hq, hm⟩ := not_or.mp hx
    -- the text of one character that joins what is open
    obtain ⟨hc, hp⟩ := State.move_follower hq hm
    have hs : ScansApart v u [q.follower] := h [q.follower]
    rcases (scansApart_cons_iff (fun hd => hp hd.2)).mp hs with e | e
    · exact hq e
    · rw [hc] at e
      cases e

end CurlyLex
