import CurlyLex.Text.Basic

/-!
# UTF-8

Texts as bytes and bytes as texts.  A character takes one to four bytes, the fewest that hold its
number; the first byte of a longer one says how many follow, and each that follows carries six
bits.

* `encodeChar`, `encode`   the bytes of a character and of a text;
* `decode`                 the text of a list of bytes, if there is one: a missing or stray byte, a
                           form longer than needed, a surrogate and a number beyond the last code
                           point have none;
* `decode_encode`, `encode_of_decode`   the two undo each other.
-/

namespace CurlyLex.Utf8

/-- a byte that follows another one, with six bits of the number -/
def tailByte (n : Nat) : UInt8 := (0x80 + n % 64).toUInt8

def encodeChar (c : Char) : Bytes :=
  let n := c.toNat
  if n < 0x80 then [n.toUInt8]
  else if n < 0x800 then [(0xC0 + n / 64).toUInt8, tailByte n]
  else if n < 0x10000 then [(0xE0 + n / 4096).toUInt8, tailByte (n / 64), tailByte n]
  else [(0xF0 + n / 262144).toUInt8, tailByte (n / 4096), tailByte (n / 64), tailByte n]

def encode (t : Text) : Bytes := t.flatMap encodeChar

theorem encode_nil : encode [] = [] := rfl
theorem encode_cons (c : Char) (t : Text) : encode (c :: t) = encodeChar c ++ encode t := rfl
theorem encode_append (t u : Text) : encode (t ++ u) = encode t ++ encode u := by
  simp [encode, List.flatMap_append]

/-! ## decoding -/

/-- the number `n` with the six bits of one more byte -/
def extend (n : Nat) (b : UInt8) : Option Nat :=
  if 0x80 ≤ b.toNat ∧ b.toNat < 0xC0 then some (n * 64 + (b.toNat - 0x80)) else none

/-- the character with the number `n`, if its form may not be shorter -/
def scalar (least n : Nat) : Option Char :=
  if least ≤ n ∧ n.isValidChar then some (Char.ofNat n) else none

def two (a b : UInt8) : Option Char := extend (a.toNat - 0xC0) b >>= scalar 0x80

def three (a b c : UInt8) : Option Char :=
  extend (a.toNat - 0xE0) b >>= (extend · c) >>= scalar 0x800

def four (a b c d : UInt8) : Option Char :=
  extend (a.toNat - 0xF0) b >>= (extend · c) >>= (extend · d) >>= scalar 0x10000

/-- decodes behind a text that is ready, latest character first -/
def decodeFrom (ready : Text) : Bytes → Option Text
  | [] => some ready.reverse
  | a :: rest =>
    if a.toNat < 0x80 then decodeFrom (Char.ofNat a.toNat :: ready) rest
    else if a.toNat < 0xC0 then none
    else if a.toNat < 0xE0 then
      match rest with
      | b :: rest =>
        match two a b with
        | some x => decodeFrom (x :: ready) rest
        | none => none
      | _ => none
    else if a.toNat < 0xF0 then
      match rest with
      | b :: c :: rest =>
        match three a b c with
        | some x => decodeFrom (x :: ready) rest
        | none => none
      | _ => none
    else if a.toNat < 0xF8 then
      match rest with
      | b :: c :: d :: rest =>
        match four a b c d with
        | some x => decodeFrom (x :: ready) rest
        | none => none
      | _ => none
    else none

/-- the text that the bytes encode, if they encode one -/
def decode (bytes : Bytes) : Option Text := decodeFrom [] bytes

theorem decode_nil : decode [] = some [] := rfl

/-! ## each undoes the other -/

private theorem toNat_toUInt8 {n : Nat} (h : n < 256) : n.toUInt8.toNat = n := by
  simp [Nat.toUInt8, Nat.mod_eq_of_lt h]

private theorem toNat_ofNat {n : Nat} (h : n.isValidChar) : (Char.ofNat n).toNat = n := by
  rw [Char.ofNat, dif_pos h]
  rfl

theorem extend_tailByte (m n : Nat) : extend m (tailByte n) = some (m * 64 + n % 64) := by
  have h : (tailByte n).toNat = 0x80 + n % 64 := toNat_toUInt8 (by omega)
  rw [extend, h, if_pos (by omega), show 0x80 + n % 64 - 0x80 = n % 64 by omega]

theorem scalar_toNat (c : Char) (least : Nat) (h : least ≤ c.toNat) :
    scalar least c.toNat = some c := by
  have hc : c.toNat.isValidChar := c.valid
  rw [scalar, if_pos ⟨h, hc⟩, Char.ofNat_toNat]

theorem decodeFrom_encodeChar (ready : Text) (c : Char) (rest : Bytes) :
    decodeFrom ready (encodeChar c ++ rest) = decodeFrom (c :: ready) rest := by
  have hc : c.toNat < 0x110000 := by
    have h : c.toNat.isValidChar := c.valid
    rcases h with h | h <;> omega
  rw [encodeChar]
  split
  · next h =>
    have ha : c.toNat.toUInt8.toNat = c.toNat := toNat_toUInt8 (by omega)
    rw [List.singleton_append, decodeFrom.eq_def]
    simp only [ha, if_pos h, Char.ofNat_toNat]
  split
  · next h0 h =>
    have ha : (0xC0 + c.toNat / 64).toUInt8.toNat = 0xC0 + c.toNat / 64 := toNat_toUInt8 (by omega)
    have hx : two (0xC0 + c.toNat / 64).toUInt8 (tailByte c.toNat) = some c := by
      rw [two, ha, extend_tailByte, Option.bind_eq_bind, Option.bind_some,
        show (0xC0 + c.toNat / 64 - 0xC0) * 64 + c.toNat % 64 = c.toNat by omega]
      exact scalar_toNat c _ (by omega)
    simp only [List.cons_append, List.nil_append, decodeFrom, ha, hx]
    rw [if_neg (by omega), if_neg (by omega), if_pos (by omega)]
  split
  · next h0 h1 h =>
    have ha : (0xE0 + c.toNat / 4096).toUInt8.toNat = 0xE0 + c.toNat / 4096 :=
      toNat_toUInt8 (by omega)
    have hx : three (0xE0 + c.toNat / 4096).toUInt8 (tailByte (c.toNat / 64)) (tailByte c.toNat)
        = some c := by
      simp only [three, ha, extend_tailByte, Option.bind_eq_bind, Option.bind_some]
      rw [show ((0xE0 + c.toNat / 4096 - 0xE0) * 64 + c.toNat / 64 % 64) * 64 + c.toNat % 64
        = c.toNat by omega]
      exact scalar_toNat c _ (by omega)
    simp only [List.cons_append, List.nil_append, decodeFrom, ha, hx]
    rw [if_neg (by omega), if_neg (by omega), if_neg (by omega), if_pos (by omega)]
  · next h0 h1 h2 =>
    have ha : (0xF0 + c.toNat / 262144).toUInt8.toNat = 0xF0 + c.toNat / 262144 :=
      toNat_toUInt8 (by omega)
    have hx : four (0xF0 + c.toNat / 262144).toUInt8 (tailByte (c.toNat / 4096))
        (tailByte (c.toNat / 64)) (tailByte c.toNat) = some c := by
      simp only [four, ha, extend_tailByte, Option.bind_eq_bind, Option.bind_some]
      rw [show (((0xF0 + c.toNat / 262144 - 0xF0) * 64 + c.toNat / 4096 % 64) * 64
        + c.toNat / 64 % 64) * 64 + c.toNat % 64 = c.toNat by omega]
      exact scalar_toNat c _ (by omega)
    simp only [List.cons_append, List.nil_append, decodeFrom, ha, hx]
    rw [if_neg (by omega), if_neg (by omega), if_neg (by omega), if_neg (by omega),
      if_pos (by omega)]

theorem decodeFrom_encode (ready t : Text) :
    decodeFrom ready (encode t) = some (ready.reverse ++ t) := by
  induction t generalizing ready with
  | nil => simp [encode_nil, decodeFrom]
  | cons c t ih => rw [encode_cons, decodeFrom_encodeChar, ih]; simp

theorem decode_encode (t : Text) : decode (encode t) = some t := decodeFrom_encode [] t

theorem tailByte_of_extend {m k : Nat} {b : UInt8} (h : extend m b = some k) :
    k / 64 = m ∧ tailByte k = b := by
  rw [extend] at h
  split at h
  · next hb =>
    have e : m * 64 + (b.toNat - 0x80) = k := Option.some.inj h
    refine ⟨by omega, ?_⟩
    apply UInt8.toNat_inj.mp
    rw [tailByte, toNat_toUInt8 (by omega)]
    omega
  · simp at h

theorem toNat_of_scalar {least n : Nat} {x : Char} (h : scalar least n = some x) :
    x.toNat = n ∧ least ≤ n := by
  rw [scalar] at h
  split at h
  · next hn =>
    have e : Char.ofNat n = x := Option.some.inj h
    exact ⟨by rw [← e, toNat_ofNat hn.2], hn.1⟩
  · simp at h

theorem encodeChar_of_two {a b : UInt8} {x : Char} (ha : 0xC0 ≤ a.toNat) (ha' : a.toNat < 0xE0)
    (h : two a b = some x) : encodeChar x = [a, b] := by
  obtain ⟨k, hk, hx⟩ := Option.bind_eq_some_iff.mp h
  obtain ⟨e, he⟩ := tailByte_of_extend hk
  obtain ⟨hn, hl⟩ := toNat_of_scalar hx
  rw [encodeChar, hn, if_neg (by omega), if_pos (by omega), he]
  congr 1
  apply UInt8.toNat_inj.mp
  rw [toNat_toUInt8 (by omega)]
  omega

theorem encodeChar_of_three {a b c : UInt8} {x : Char} (ha : 0xE0 ≤ a.toNat)
    (ha' : a.toNat < 0xF0) (h : three a b c = some x) : encodeChar x = [a, b, c] := by
  obtain ⟨k, hk, hx⟩ := Option.bind_eq_some_iff.mp h
  obtain ⟨j, hj, hk⟩ := Option.bind_eq_some_iff.mp hk
  obtain ⟨e, he⟩ := tailByte_of_extend hj
  obtain ⟨f, hf⟩ := tailByte_of_extend hk
  obtain ⟨hn, hl⟩ := toNat_of_scalar hx
  rw [encodeChar, hn, if_neg (by omega), if_neg (by omega), if_pos (by omega), hf, f, he]
  congr 1
  apply UInt8.toNat_inj.mp
  rw [toNat_toUInt8 (by omega)]
  omega

theorem encodeChar_of_four {a b c d : UInt8} {x : Char} (ha : 0xF0 ≤ a.toNat)
    (h : four a b c d = some x) : encodeChar x = [a, b, c, d] := by
  obtain ⟨k, hk, hx⟩ := Option.bind_eq_some_iff.mp h
  obtain ⟨j, hj, hk⟩ := Option.bind_eq_some_iff.mp hk
  obtain ⟨i, hi, hj⟩ := Option.bind_eq_some_iff.mp hj
  obtain ⟨e, he⟩ := tailByte_of_extend hi
  obtain ⟨f, hf⟩ := tailByte_of_extend hj
  obtain ⟨g, hg⟩ := tailByte_of_extend hk
  obtain ⟨hn, hl⟩ := toNat_of_scalar hx
  have ha' : a.toNat < 256 := a.toNat_lt
  rw [encodeChar, hn, if_neg (by omega), if_neg (by omega), if_neg (by omega), hg, g, hf,
    show k / 4096 = i by omega, he]
  congr 1
  apply UInt8.toNat_inj.mp
  have hc : k < 0x110000 := by
    have h : x.toNat.isValidChar := x.valid
    rw [hn] at h
    rcases h with h | h <;> omega
  rw [toNat_toUInt8 (by omega)]
  omega

theorem encode_of_decodeFrom (ready t : Text) (bytes : Bytes)
    (h : decodeFrom ready bytes = some t) : encode t = encode ready.reverse ++ bytes := by
  fun_induction decodeFrom ready bytes with
  | case1 ready =>
    cases h
    simp
  | case2 ready a rest h1 ih =>
    have ha : a.toNat < 256 := a.toNat_lt
    have hv : a.toNat.isValidChar := Or.inl (by omega)
    have e : encodeChar (Char.ofNat a.toNat) = [a] := by
      rw [encodeChar, toNat_ofNat hv, if_pos h1]
      congr 1
      exact UInt8.toNat_inj.mp (toNat_toUInt8 ha)
    simp [ih h, encode_append, encode_cons, encode_nil, e]
  | case4 ready a h1 h2 h3 b rest x hx ih =>
    have e := encodeChar_of_two (by omega) h3 hx
    simp [ih h, encode_append, encode_cons, encode_nil, e]
  | case7 ready a h1 h2 h3 h4 b c rest x hx ih =>
    have e := encodeChar_of_three (by omega) h4 hx
    simp [ih h, encode_append, encode_cons, encode_nil, e]
  | case10 ready a h1 h2 h3 h4 h5 b c d rest x hx ih =>
    have e := encodeChar_of_four (by omega) hx
    simp [ih h, encode_append, encode_cons, encode_nil, e]
  | _ => simp at h

theorem encode_of_decode {bytes : Bytes} {t : Text} (h : decode bytes = some t) :
    encode t = bytes := by
  have := encode_of_decodeFrom [] t bytes h
  simpa [encode_nil] using this

/-- the bytes that have a text are exactly those of some text -/
theorem decode_eq_some_iff {bytes : Bytes} {t : Text} : decode bytes = some t ↔ encode t = bytes :=
  ⟨encode_of_decode, fun h => h ▸ decode_encode t⟩

end CurlyLex.Utf8
