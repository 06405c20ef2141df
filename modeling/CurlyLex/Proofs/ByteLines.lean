import CurlyLex.Source.Stream
import Mathlib.Data.List.Induction

/-!
# Lines of bytes

Bytes are gathered by lines before they are decoded.  No character but the line feed has a line
feed among its bytes, so a cut behind a line feed parts no character.

* `Utf8.exists_of_encode_eq`   if bytes with a line feed are a text, then so are the bytes before it
                      and the bytes behind it;
* `IsLine t`          the text `t` is one line, its line feed included;
* `Lined bytes lines rest`   the bytes begin with the lines `lines`, and `rest` follows;
* `NoLine rest`       no further line follows, and then there are no other lines
                      (`Lined.prefix_of_noLine`, `Lined.lines_eq`);
* `LongestText p bytes`   the longest beginning of the bytes that is a text;
* `LongestText.count_lineFeed`   its line feeds are those of the lines, if what follows them up to
                      the next line feed is no text.
-/

namespace CurlyLex

namespace Utf8

/-! ## line feeds among the bytes of a text -/

theorem encode_injective : Function.Injective encode := by
  intro t u h
  have hd := congrArg decode h
  rw [decode_encode, decode_encode] at hd
  exact Option.some.inj hd

theorem toNat_mod_of_lineFeed_eq {n : Nat} (h : Stream.lineFeed = n.toUInt8) : n % 256 = 10 := by
  have e := congrArg UInt8.toNat h
  simpa [Stream.lineFeed] using e.symm

theorem lineFeed_ne_of_le {n : Nat} (h : 0x80 ≤ n) (h' : n < 0x100) :
    Stream.lineFeed ≠ n.toUInt8 := by
  intro e
  have hn := toNat_mod_of_lineFeed_eq e
  omega

theorem eq_of_lineFeed_mem_encodeChar {c : Char} (h : Stream.lineFeed ∈ encodeChar c) :
    c = '\n' := by
  have hc : c.toNat < 0x110000 := by
    have hv : c.toNat.isValidChar := c.valid
    rcases hv with hv | hv <;> omega
  have ht : ∀ n, Stream.lineFeed ≠ tailByte n := fun n => lineFeed_ne_of_le (by omega) (by omega)
  rw [encodeChar] at h
  split_ifs at h with h1 h2 h3
  · have hn := toNat_mod_of_lineFeed_eq (List.mem_singleton.mp h)
    have e : c.toNat = '\n'.toNat := by
      show c.toNat = 10
      omega
    exact Char.toNat_inj.mp e
  all_goals
    exfalso
    simp only [List.mem_cons, List.not_mem_nil, or_false, ht] at h
    exact lineFeed_ne_of_le (by omega) (by omega) h

theorem encodeChar_lineFeed : encodeChar '\n' = [Stream.lineFeed] := by decide

theorem encode_concat_lineFeed (t : Text) :
    encode (t ++ ['\n']) = encode t ++ [Stream.lineFeed] := by
  rw [encode_append, encode_cons, encodeChar_lineFeed, encode_nil, List.append_nil]

theorem encode_cons_lineFeed (t : Text) : encode ('\n' :: t) = Stream.lineFeed :: encode t := by
  rw [encode_cons, encodeChar_lineFeed, List.singleton_append]

/-- a line feed parts a text into two -/
theorem exists_of_encode_eq {t : Text} {a b : Bytes} (h : encode t = a ++ Stream.lineFeed :: b) :
    ∃ x y, t = x ++ '\n' :: y ∧ encode x = a ∧ encode y = b := by
  induction t generalizing a with
  | nil => exact absurd h.symm (by simp [encode_nil])
  | cons c t ih =>
    by_cases hc : c = '\n'
    · subst hc
      rw [encode_cons_lineFeed] at h
      cases a with
      | nil => exact ⟨[], t, rfl, rfl, (List.cons_eq_cons.mp h).2⟩
      | cons d a =>
        obtain ⟨rfl, ht⟩ := List.cons_eq_cons.mp h
        obtain ⟨x, y, rfl, rfl, rfl⟩ := ih ht
        exact ⟨'\n' :: x, y, rfl, encode_cons_lineFeed x, rfl⟩
    · have hm : Stream.lineFeed ∉ encodeChar c := fun hm => hc (eq_of_lineFeed_mem_encodeChar hm)
      rw [encode_cons] at h
      -- the line feed lies behind the bytes of the first character
      have hz : ∃ z, a = encodeChar c ++ z ∧ encode t = z ++ Stream.lineFeed :: b := by
        rcases List.append_eq_append_iff.mp h with hz | ⟨z, hz, h⟩
        · exact hz
        · cases z with
          | nil => exact ⟨[], by rw [hz, List.append_nil, List.append_nil], h.symm⟩
          | cons d z =>
            obtain ⟨rfl, _⟩ := List.cons_eq_cons.mp h
            rw [hz] at hm
            exact absurd (List.mem_append_right a List.mem_cons_self) hm
      obtain ⟨z, rfl, ht⟩ := hz
      obtain ⟨x, y, rfl, rfl, rfl⟩ := ih ht
      exact ⟨c :: x, y, rfl, encode_cons c x, rfl⟩

theorem count_encode (t : Text) : (encode t).count Stream.lineFeed = t.count '\n' := by
  induction t with
  | nil => rfl
  | cons c t ih =>
    rw [encode_cons, List.count_append, ih, List.count_cons, Nat.add_comm]
    by_cases hc : c = '\n'
    · subst hc
      rfl
    · have hm : Stream.lineFeed ∉ encodeChar c := fun h => hc (eq_of_lineFeed_mem_encodeChar h)
      rw [List.count_eq_zero.mpr hm, if_neg (by simpa using hc)]

theorem lineFeed_mem_encode_iff (t : Text) : Stream.lineFeed ∈ encode t ↔ '\n' ∈ t := by
  rw [← List.count_pos_iff, count_encode, List.count_pos_iff]

end Utf8

/-! ## one line -/

/-- the text is one line, its line feed included -/
def IsLine (t : Text) : Prop := ∃ body, t = body ++ ['\n'] ∧ '\n' ∉ body

section
variable {l : Text} {line rest : Bytes}

theorem IsLine.ne_nil (h : IsLine l) : l ≠ [] := by
  obtain ⟨body, rfl, _⟩ := h
  simp

theorem IsLine.count_eq_one (h : IsLine l) : l.count '\n' = 1 := by
  obtain ⟨body, rfl, hb⟩ := h
  rw [List.count_append, List.count_eq_zero.mpr hb]
  rfl

theorem IsLine.encode_append (h : IsLine l) :
    ∃ line, Stream.lineFeed ∉ line ∧
      ∀ rest, Utf8.encode l ++ rest = line ++ Stream.lineFeed :: rest := by
  obtain ⟨body, rfl, hb⟩ := h
  refine ⟨Utf8.encode body, (Utf8.lineFeed_mem_encode_iff body).not.mpr hb, ?_⟩
  intro rest
  rw [Utf8.encode_concat_lineFeed, List.append_assoc, List.singleton_append]

theorem isLine_of_encode_eq (h : Utf8.encode l = line ++ [Stream.lineFeed])
    (hr : Stream.lineFeed ∉ line) : IsLine l := by
  obtain ⟨x, y, rfl, rfl, hy⟩ := Utf8.exists_of_encode_eq h
  obtain rfl : y = [] := Utf8.encode_injective hy
  exact ⟨x, rfl, (Utf8.lineFeed_mem_encode_iff x).not.mp hr⟩

end

/-- bytes have one first line feed -/
theorem eq_of_append_lineFeed {a b x y : Bytes} (ha : Stream.lineFeed ∉ a)
    (hb : Stream.lineFeed ∉ b) (h : a ++ Stream.lineFeed :: x = b ++ Stream.lineFeed :: y) :
    a = b ∧ x = y := by
  rcases List.append_eq_append_iff.mp h with ⟨z, rfl, hz⟩ | ⟨z, rfl, hz⟩
  all_goals
    cases z with
    | nil => simpa [eq_comm] using hz
    | cons d z =>
      obtain ⟨rfl, _⟩ := List.cons_eq_cons.mp hz
      simp at ha hb

/-- no line begins the bytes -/
def NoLine (rest : Bytes) : Prop := ∀ l, IsLine l → ¬ Utf8.encode l <+: rest

section
variable {l : Text} {line rest : Bytes}

theorem noLine_of_notMem (h : Stream.lineFeed ∉ rest) : NoLine rest := by
  intro l hl hp
  obtain ⟨z, rfl⟩ := hp
  obtain ⟨line, _, e⟩ := hl.encode_append
  rw [e z] at h
  exact h (List.mem_append_right _ List.mem_cons_self)

/-- a first line that is no text is no line -/
theorem noLine_of_decode_eq_none (hr : Stream.lineFeed ∉ line)
    (hd : Utf8.decode (line ++ [Stream.lineFeed]) = none) :
    NoLine (line ++ Stream.lineFeed :: rest) := by
  intro l hl hp
  obtain ⟨z, hz⟩ := hp
  obtain ⟨body, hb, e⟩ := hl.encode_append
  rw [e z] at hz
  obtain ⟨rfl, _⟩ := eq_of_append_lineFeed hb hr hz
  have hl := e []
  rw [List.append_nil] at hl
  rw [← hl, Utf8.decode_encode] at hd
  cases hd

/-- a text that begins what follows all lines has no line feed -/
theorem NoLine.lineFeed_notMem {t : Text} (hn : NoLine rest) (h : Utf8.encode t <+: rest) :
    Stream.lineFeed ∉ Utf8.encode t := by
  intro hm
  obtain ⟨x, y, rfl, hx⟩ := List.eq_append_cons_of_mem ((Utf8.lineFeed_mem_encode_iff t).mp hm)
  have hp : Utf8.encode (x ++ ['\n']) <+: Utf8.encode (x ++ '\n' :: y) := by
    refine ⟨Utf8.encode y, ?_⟩
    rw [← Utf8.encode_append, List.append_assoc, List.singleton_append]
  exact hn (x ++ ['\n']) ⟨x, rfl, hx⟩ (hp.trans h)

theorem encode_append_inj {l' : Text} {rest' : Bytes} (hl : IsLine l) (hl' : IsLine l')
    (h : Utf8.encode l ++ rest = Utf8.encode l' ++ rest') : l = l' ∧ rest = rest' := by
  obtain ⟨body, hb, e⟩ := hl.encode_append
  obtain ⟨body', hb', e'⟩ := hl'.encode_append
  rw [e, e'] at h
  obtain ⟨rfl, rfl⟩ := eq_of_append_lineFeed hb hb' h
  refine ⟨Utf8.encode_injective ?_, rfl⟩
  rw [← List.append_nil (Utf8.encode l), e, ← e', List.append_nil]

end

/-! ## several lines -/

/-- the bytes begin with the lines `lines`, and `rest` follows -/
structure Lined (bytes : Bytes) (lines : List Text) (rest : Bytes) : Prop where
  bytes_eq : bytes = Utf8.encode lines.flatten ++ rest
  isLine : ∀ l ∈ lines, IsLine l

namespace Lined

variable {bytes rest rest' : Bytes} {lines lines' : List Text} {l : Text}

theorem nil (bytes : Bytes) : Lined bytes [] bytes := ⟨rfl, fun _ h => nomatch h⟩

theorem append (h : Lined bytes lines rest) (more : Bytes) :
    Lined (bytes ++ more) lines (rest ++ more) := by
  refine ⟨?_, h.isLine⟩
  rw [h.bytes_eq, List.append_assoc]

theorem rest_eq (h : Lined bytes lines rest) (h' : Lined bytes lines rest') : rest = rest' := by
  have e := h.bytes_eq
  rw [h'.bytes_eq] at e
  exact (List.append_cancel_left e).symm

/-- what follows the lines has a line feed or it has none -/
theorem not_lined_lineFeed (h : Lined bytes lines rest) (hr : Stream.lineFeed ∉ rest)
    (line more : Bytes) : ¬ Lined bytes lines (line ++ Stream.lineFeed :: more) := by
  intro h'
  rw [h.rest_eq h'] at hr
  exact hr (List.mem_append_right _ List.mem_cons_self)

theorem concat (h : Lined bytes lines (Utf8.encode l ++ rest)) (hl : IsLine l) :
    Lined bytes (lines ++ [l]) rest := by
  refine ⟨?_, ?_⟩
  · rw [h.bytes_eq, List.flatten_concat, Utf8.encode_append, List.append_assoc]
  · intro m hm
    rcases List.mem_append.mp hm with hm | hm
    · exact h.isLine m hm
    · rwa [List.mem_singleton.mp hm]

theorem cons_iff : Lined bytes (l :: lines) rest ↔
    IsLine l ∧ ∃ more, bytes = Utf8.encode l ++ more ∧ Lined more lines rest := by
  refine ⟨?_, ?_⟩
  · intro h
    refine ⟨h.isLine l List.mem_cons_self, Utf8.encode lines.flatten ++ rest, ?_, rfl, ?_⟩
    · rw [h.bytes_eq, List.flatten_cons, Utf8.encode_append, List.append_assoc]
    · exact fun m hm => h.isLine m (List.mem_cons_of_mem l hm)
  · intro h
    obtain ⟨hl, more, rfl, rfl, hm⟩ := h
    refine ⟨?_, ?_⟩
    · rw [List.flatten_cons, Utf8.encode_append, List.append_assoc]
    · intro m hx
      rcases List.mem_cons.mp hx with rfl | hx
      · exact hl
      · exact hm m hx

theorem count_lineFeed (h : Lined bytes lines rest) :
    bytes.count Stream.lineFeed = lines.length + rest.count Stream.lineFeed := by
  induction lines generalizing bytes with
  | nil =>
    rw [h.bytes_eq]
    simp [Utf8.encode_nil]
  | cons l lines ih =>
    obtain ⟨hl, more, rfl, hm⟩ := cons_iff.mp h
    rw [List.count_append, Utf8.count_encode, hl.count_eq_one, ih hm, List.length_cons]
    omega

/-- where no further line follows, there are no other lines -/
theorem prefix_of_noLine (h : Lined bytes lines rest) (hn : NoLine rest)
    (h' : Lined bytes lines' rest') : lines' <+: lines := by
  induction lines' generalizing bytes lines with
  | nil => exact List.nil_prefix
  | cons l' lines' ih =>
    obtain ⟨hl', more', rfl, hm'⟩ := cons_iff.mp h'
    cases lines with
    | nil => exact absurd ⟨more', h.bytes_eq⟩ (hn l' hl')
    | cons l lines =>
      obtain ⟨hl, more, e, hm⟩ := cons_iff.mp h
      obtain ⟨rfl, rfl⟩ := encode_append_inj hl' hl e
      exact List.cons_prefix_cons.mpr ⟨rfl, ih hm hm'⟩

theorem lines_eq (h : Lined bytes lines rest) (hn : NoLine rest) (h' : Lined bytes lines' rest')
    (hn' : NoLine rest') : lines = lines' := by
  have h1 := h.prefix_of_noLine hn h'
  have h2 := h'.prefix_of_noLine hn' h
  exact h2.eq_of_length_le h1.length_le

/-- the lines of a beginning of the bytes are the first ones, as many as it has line feeds -/
theorem eq_take {more line : Bytes} (h : Lined (bytes ++ more) lines rest) (hn : NoLine rest)
    (h' : Lined bytes lines' line) (hr : Stream.lineFeed ∉ line) :
    lines' = lines.take (bytes.count Stream.lineFeed) := by
  have hp : lines' <+: lines := h.prefix_of_noLine hn (h'.append more)
  rw [h'.count_lineFeed, List.count_eq_zero.mpr hr, Nat.add_zero]
  exact List.prefix_iff_eq_take.mp hp

/-- a line feed that ends no line may follow them: then they are all the lines there are -/
theorem eq_take_of_noLine {more line line' : Bytes} (h : Lined (bytes ++ more) lines rest)
    (hn : NoLine rest) (h' : Lined bytes lines' (line ++ Stream.lineFeed :: line'))
    (hn' : NoLine (line ++ Stream.lineFeed :: line' ++ more)) :
    lines' = lines.take (bytes.count Stream.lineFeed) := by
  obtain rfl := h.lines_eq hn (h'.append more) hn'
  have hc := h'.count_lineFeed
  rw [List.take_of_length_le]
  omega

/-! ## lines and what follows them, decoded -/

theorem decode_eq (h : Lined bytes lines rest) {t : Text} (ht : Utf8.decode rest = some t) :
    Utf8.decode bytes = some (lines.flatten ++ t) := by
  rw [Utf8.decode_eq_some_iff] at ht ⊢
  rw [Utf8.encode_append, ht, h.bytes_eq]

/-- behind lines, only a text makes a text -/
theorem exists_of_decode (h : Lined bytes lines rest) {t : Text}
    (ht : Utf8.decode bytes = some t) :
    ∃ u, t = lines.flatten ++ u ∧ Utf8.decode rest = some u := by
  induction lines generalizing bytes t with
  | nil =>
    have e : bytes = rest := h.bytes_eq
    exact ⟨t, rfl, e ▸ ht⟩
  | cons l lines ih =>
    obtain ⟨hl, more, rfl, hm⟩ := cons_iff.mp h
    obtain ⟨body, rfl, _⟩ := hl
    rw [Utf8.decode_eq_some_iff, Utf8.encode_concat_lineFeed, List.append_assoc] at ht
    obtain ⟨x, y, rfl, hx, hy⟩ := Utf8.exists_of_encode_eq ht
    obtain rfl := Utf8.encode_injective hx
    obtain ⟨u, rfl, hu⟩ := ih hm (Utf8.decode_eq_some_iff.mpr hy)
    refine ⟨u, ?_, hu⟩
    simp

theorem decode_eq_none (h : Lined bytes lines rest) (hr : Utf8.decode rest = none) :
    Utf8.decode bytes = none := by
  cases hd : Utf8.decode bytes with
  | none => rfl
  | some t =>
    obtain ⟨u, _, hu⟩ := h.exists_of_decode hd
    rw [hr] at hu
    cases hu

end Lined

theorem Utf8.decode_eq_none_of_lineFeed {line more : Bytes}
    (hd : decode (line ++ [Stream.lineFeed]) = none) :
    decode (line ++ Stream.lineFeed :: more) = none := by
  cases h : decode (line ++ Stream.lineFeed :: more) with
  | none => rfl
  | some t =>
    obtain ⟨x, y, rfl, rfl, _⟩ := exists_of_encode_eq (encode_of_decode h)
    rw [← encode_concat_lineFeed, decode_encode] at hd
    cases hd

/-! ## the longest text -/

/-- `p` is the longest beginning of the bytes that is a text -/
structure LongestText (p bytes : Bytes) : Prop where
  isPrefix : p <+: bytes
  isText : (Utf8.decode p).isSome
  longest : ∀ p', p' <+: bytes → (Utf8.decode p').isSome → p'.length ≤ p.length

theorem exists_longestText (bytes : Bytes) : ∃ p, LongestText p bytes := by
  induction bytes using List.reverseRecOn with
  | nil => exact ⟨[], List.prefix_refl [], rfl, fun p' hp' _ => hp'.length_le⟩
  | append_singleton bytes b ih =>
    by_cases h : (Utf8.decode (bytes ++ [b])).isSome
    · exact ⟨bytes ++ [b], List.prefix_refl _, h, fun p' hp' _ => hp'.length_le⟩
    · obtain ⟨p, hp⟩ := ih
      refine ⟨p, hp.isPrefix.trans (List.prefix_append _ _), hp.isText, ?_⟩
      intro p' hp' ht
      rcases List.prefix_concat_iff.mp hp' with rfl | hp'
      · exact absurd ht h
      · exact hp.longest p' hp' ht

/-- the lines are part of the longest text, and it ends before the next line feed if that ends no
line -/
theorem LongestText.count_lineFeed {p bytes rest : Bytes} {lines : List Text}
    (hp : LongestText p bytes) (h : Lined bytes lines rest) (hn : NoLine rest) :
    p.count Stream.lineFeed = lines.length := by
  have hl : Utf8.encode lines.flatten <+: bytes := ⟨rest, h.bytes_eq.symm⟩
  have ht : (Utf8.decode (Utf8.encode lines.flatten)).isSome := by
    rw [Utf8.decode_encode]
    rfl
  obtain ⟨p', rfl⟩ := List.prefix_of_prefix_length_le hl hp.isPrefix (hp.longest _ hl ht)
  have hr : p' <+: rest := by
    obtain ⟨z, hz⟩ := hp.isPrefix
    rw [h.bytes_eq, List.append_assoc] at hz
    exact ⟨z, List.append_cancel_left hz⟩
  have hp' : Lined (Utf8.encode lines.flatten ++ p') lines p' := ⟨rfl, h.isLine⟩
  obtain ⟨t, hd⟩ := Option.isSome_iff_exists.mp hp.isText
  obtain ⟨u, _, hu⟩ := hp'.exists_of_decode hd
  obtain rfl := Utf8.encode_of_decode hu
  have hc : (Utf8.encode u).count Stream.lineFeed = 0 :=
    List.count_eq_zero.mpr (hn.lineFeed_notMem hr)
  rw [hp'.count_lineFeed, hc, Nat.add_zero]

end CurlyLex
