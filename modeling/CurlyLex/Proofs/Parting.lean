import CurlyLex.Proofs.Sound
import CurlyLex.Text.Utf8

/-!
# Parting the open text at its bytes

A text that is kept as bytes is parted by the number of a byte, and that fails unless a character
begins there or the text ends there.

* `Utf8.partAt?`            a text in two parts, the second from a given byte on;
* `Scanner.emitBefore?`     a text but for its last character, which must be the one given, is a
                            piece, and that character begins anew;
* `Scanner.emitPoint?`      the first byte of a text is a piece, and the rest is left;
* `Scanner.performInBytes?`   a move as the two do it, `feedInBytes?` one character, and
                            `closeInBytes?` the end of input;
* `Sound.feedInBytes?_eq`, `Sound.closeInBytes?_eq`   a sound scanner can always do it, and makes of
                            its open text what `feed` and `close` make of it.

Not every scanner can: two points must be what is open in the state that parts a point off, and
between pieces there is nothing to emit.
-/

namespace CurlyLex

namespace Utf8

theorem encodeChar_length_pos (c : Char) : 0 < (encodeChar c).length := by
  simp only [encodeChar]
  split_ifs
  all_goals exact Nat.succ_pos _

theorem length_encode_cons (c : Char) (t : Text) :
    (encode (c :: t)).length = (encodeChar c).length + (encode t).length := by
  rw [encode_cons, List.length_append]

/-- the text before byte `n` and the text from there on -/
def partAt? : Nat → Text → Option (Text × Text)
  | 0, t => some ([], t)
  | _ + 1, [] => none
  | n + 1, c :: cs =>
    if (encodeChar c).length ≤ n + 1 then
      (partAt? (n + 1 - (encodeChar c).length) cs).map fun (u, w) => (c :: u, w)
    else none

theorem partAt?_eq_some_iff (n : Nat) (t u w : Text) :
    partAt? n t = some (u, w) ↔ t = u ++ w ∧ n = (encode u).length := by
  induction u generalizing n t with
  | nil =>
    cases n with
    | zero => simp [partAt?, encode_nil]
    | succ n => cases t <;> simp [partAt?, encode_nil]
  | cons d u ih =>
    have hd : 0 < (encodeChar d).length := encodeChar_length_pos d
    rw [length_encode_cons]
    cases n with
    | zero =>
      refine iff_of_false (by simp [partAt?]) ?_
      intro h
      omega
    | succ n =>
      cases t with
      | nil => simp [partAt?]
      | cons c cs =>
        unfold partAt?
        rw [List.cons_append, List.cons_eq_cons]
        split_ifs with hc
        · rw [Option.map_eq_some_iff]
          refine ⟨?_, ?_⟩
          · intro h
            obtain ⟨⟨x, y⟩, hx, e⟩ := h
            cases e
            obtain ⟨ht, hn⟩ := (ih _ _).mp hx
            exact ⟨⟨rfl, ht⟩, by omega⟩
          · intro h
            obtain ⟨⟨rfl, ht⟩, hn⟩ := h
            exact ⟨(u, w), (ih _ _).mpr ⟨ht, by omega⟩, rfl⟩
        · refine iff_of_false nofun ?_
          intro h
          obtain ⟨⟨rfl, -⟩, hn⟩ := h
          omega

theorem partAt?_append (u w : Text) : partAt? (encode u).length (u ++ w) = some (u, w) :=
  (partAt?_eq_some_iff _ _ u w).mpr ⟨rfl, rfl⟩

end Utf8

namespace Scanner

/-- the last character of the text must be `c`; all before it is a piece, and `c` begins anew -/
def emitBefore? (shape : Shape) (text : Text) (c : Char) : Option (List Piece × Scanner) :=
  match Utf8.partAt? ((Utf8.encode text).length - (Utf8.encode [c]).length) text with
  | some (lexeme, last) =>
    if last = [c] then some (⟨shape, lexeme⟩ :: (settle [c] (start c)).1, (settle [c] (start c)).2)
    else none
  | none => none

/-- the first byte of the text is a separator, and the rest is left -/
def emitPoint? (text : Text) : Option (Piece × Text) :=
  (Utf8.partAt? 1 text).map fun (point, rest) => (⟨.separator, point⟩, rest)

/-- `perform` with the open text in bytes: the character has joined the text, and where it ends the
text it is taken off again -/
def performInBytes? (c : Char) : Text → Move → Option (List Piece × Scanner)
  | text, .join next => some (settle text.reverse next)
  | text, .close shape => emitBefore? shape text c
  | text, .split rest =>
    (emitPoint? text).bind fun (point, left) =>
      (performInBytes? c left rest).map fun (ps, s) => (point :: ps, s)

/-- `feed` with the open text in bytes -/
def feedInBytes? (s : Scanner) (c : Char) : Option (List Piece × Scanner) :=
  performInBytes? c (s.buffered ++ [c]) (move s.state c)

/-- `close` with the open text in bytes -/
def closeInBytes? (s : Scanner) : Option (List Piece) :=
  match s.state, s.state.pending with
  | .dotDot, _ => (emitPoint? s.buffered).map fun (point, rest) => [point, ⟨.separator, rest⟩]
  | _, some shape => some [⟨shape, s.buffered⟩]
  | _, none => some []

theorem emitBefore?_concat (shape : Shape) (b : Text) (c : Char) :
    emitBefore? shape (b ++ [c]) c =
      some (⟨shape, b⟩ :: (settle [c] (start c)).1, (settle [c] (start c)).2) := by
  have hl : (Utf8.encode (b ++ [c])).length - (Utf8.encode [c]).length =
      (Utf8.encode b).length := by
    rw [Utf8.encode_append, List.length_append]
    omega
  unfold emitBefore?
  rw [hl, Utf8.partAt?_append]
  exact if_pos rfl

theorem emitPoint?_cons (rest : Text) :
    emitPoint? ('.' :: rest) = some (⟨.separator, ['.']⟩, rest) := by
  have hp : Utf8.partAt? 1 (['.'] ++ rest) = some (['.'], rest) := Utf8.partAt?_append ['.'] rest
  unfold emitPoint?
  rw [← List.singleton_append, hp]
  rfl

variable {s : Scanner} {c : Char}

theorem Sound.closeInBytes?_eq (hs : s.Sound) : s.closeInBytes? = some s.close := by
  by_cases hd : s.state = .dotDot
  · have hb : s.buffered = ['.', '.'] := hs.buffered_of_dotDot hd
    unfold closeInBytes?
    rw [close, hd, hb, emitPoint?_cons]
    rfl
  · unfold closeInBytes?
    rw [close]
    cases hq : s.state
    case dotDot => exact absurd hq hd
    all_goals rfl

theorem performInBytes?_concat {m : Move} (hm : ∀ rest, m ≠ .split rest) (b : Text) (c : Char) :
    performInBytes? c (b ++ [c]) m = some (perform c b.reverse m) := by
  cases m with
  | join next =>
    show some (settle (b ++ [c]).reverse next) = some (settle (c :: b.reverse) next)
    rw [List.reverse_concat]
  | close shape =>
    show emitBefore? shape (b ++ [c]) c = some (perform c b.reverse (.close shape))
    rw [emitBefore?_concat, perform, List.reverse_reverse]
  | split rest => exact absurd rfl (hm rest)

theorem Sound.feedInBytes?_eq (hs : s.Sound) (c : Char) : s.feedInBytes? c = some (s.feed c) := by
  unfold feedInBytes?
  by_cases h : ∃ rest, move s.state c = .split rest
  · obtain ⟨rest, h⟩ := h
    obtain ⟨hd, -, rfl⟩ := dotDot_of_split h
    have hb : s.buffered = ['.', '.'] := hs.buffered_of_dotDot hd
    -- what is left of two points and the character is one point and the character
    rw [feed_of_split h, h, hb]
    show (emitPoint? ('.' :: ['.', c])).bind _ = _
    rw [emitPoint?_cons]
    show (performInBytes? c (['.'] ++ [c]) (afterPoint c)).map _ = _
    rw [performInBytes?_concat fun _ => afterPoint_ne_split]
    rfl
  · rw [performInBytes?_concat (not_exists.mp h), buffered, List.reverse_reverse,
      Scanner.feed]

/-- no byte may be parted off if a longer character comes first -/
example : (⟨.dotDot, ['€', '€']⟩ : Scanner).feedInBytes? ';' = none := by decide

end Scanner

end CurlyLex
