import Mathlib.Algebra.Group.Nat.Even
import Mathlib.Data.List.DropRight
import CurlyLex.Proofs.Spacing

/-!
# Where comments and strings end

What is behind the opening of a comment or of a string tells where it ends, and the text behind the
end is scanned as a text of its own.

* `Shortest P text p`, `Longest P text p`   of the beginnings of `text` that have the property `P`,
                      `p` is the shortest one, the longest one;
* `comments_end_first`   a block comment ends with the first `*/` behind its opening, and is an
                      error without one; a comment to the end of its line takes in all that stands
                      before a line break;
* `Active before`     an even number of backslashes stand in a row at the end of `before`, so none
                      of them escapes what comes next;
* `EndsString`, `SpoilsString`   the texts that end in a quote, or in a backslash and what cannot
                      be escaped, where the quote or the backslash is at an active place;
* `Unended.open_string`   until then the string stays open, and waits for the end of an escape
                      exactly at the places that are not active;
* `string_ends_at_active_quote`   so a string ends with the first quote at an active place, unless
                      an escape has spoilt it before.
-/

namespace CurlyLex

open Grammar

/-! ## shortest and longest beginnings -/

structure Shortest (P : Text → Prop) (text p : Text) : Prop where
  begins : p <+: text
  holds : P p
  least : ∀ u, u <+: text → P u → p.length ≤ u.length

structure Longest (P : Text → Prop) (text p : Text) : Prop where
  begins : p <+: text
  holds : P p
  greatest : ∀ u, u <+: text → P u → u.length ≤ p.length

theorem exists_shortest {P : Text → Prop} {text u : Text} (hu : u <+: text) (h : P u) :
    ∃ p, Shortest P text p := by
  classical
  have hx : ∃ n, ∃ w, w <+: text ∧ P w ∧ w.length = n := ⟨u.length, u, hu, h, rfl⟩
  obtain ⟨p, hp, hP, hl⟩ := Nat.find_spec hx
  refine ⟨p, hp, hP, ?_⟩
  intro w hw hPw
  rw [hl]
  exact Nat.find_min' hx ⟨w, hw, hPw, rfl⟩

theorem Shortest.not_holds {P : Text → Prop} {text p u : Text} (h : Shortest P text p)
    (hu : u <+: text) (hl : u.length < p.length) : ¬ P u := by
  intro hP
  exact Nat.not_lt_of_le (h.least u hu hP) hl

/-- as long as a beginning is shorter than the shortest one, no beginning of it has the property -/
theorem not_holds_of_length_lt {P : Text → Prop} {text x u : Text} (hx : x <+: text)
    (h : ∀ p, Shortest P text p → x.length < p.length) (hu : u <+: x) : ¬ P u := by
  intro hP
  obtain ⟨p, hp⟩ := exists_shortest (hu.trans hx) hP
  exact hp.not_holds (hu.trans hx) (Nat.lt_of_le_of_lt hu.length_le (h p hp)) hP

instance {P : Text → Prop} [DecidablePred P] (text p : Text) : Decidable (Shortest P text p) :=
  decidable_of_iff (p <+: text ∧ P p ∧ ∀ u ∈ text.inits, P u → p.length ≤ u.length)
    ⟨fun ⟨hb, hp, hl⟩ => ⟨hb, hp, fun u hu => hl u ((List.mem_inits u text).mpr hu)⟩,
      fun h => ⟨h.begins, h.holds, fun u hu => h.least u ((List.mem_inits u text).mp hu)⟩⟩

theorem longest_takeWhile (p : Char → Bool) (text : Text) :
    Longest (fun t => ∀ c ∈ t, p c = true) text (text.takeWhile p) := by
  refine ⟨List.takeWhile_prefix p, fun c hc => List.mem_takeWhile_imp hc, ?_⟩
  rintro u ⟨w, rfl⟩ hu
  rw [List.takeWhile_append_of_pos hu, List.length_append]
  exact Nat.le_add_right _ _

/-! ## first tokens -/

section
variable (v : Vocabulary) {q : State} {b rest : Text} {p : Piece}

theorem Piece.EndsBefore.scan_append (h : p.EndsBefore rest) :
    scan v (p.text ++ rest) = v.token p :: scan v rest :=
  congrArg (List.map v.token) h.cut_append

theorem Open.scan_of_unterminated (hb : Open q b) (hq : q.unterminated = true) :
    scan v b = [⟨.error, b⟩] := by
  have hd : q ≠ .dotDot := by
    rintro rfl
    cases hq
  have hc : cut b = [⟨.error, b⟩] := by
    rw [hb.cut_eq, Scanner.closing_of_pending b (State.pending_of_unterminated q hq) hd]
  exact congrArg (List.map v.token) hc

end

/-! ## comments -/

section
variable {b p : Text}

theorem Shortest.mem_blockBody (h : Shortest (blockEnd <:+ ·) b p) : p ∈ blockBody := by
  refine ⟨h.holds, ?_⟩
  intro hi
  -- an end within would be the end of a shorter beginning
  obtain ⟨u, hs, hu⟩ := List.infix_iff_suffix_prefix.mp hi
  have hp : p ≠ [] := by
    rintro rfl
    cases List.suffix_nil.mp h.holds
  have hl : u.length < p.length := by
    have h1 := hu.length_le
    have h2 := List.length_pos_iff.mpr hp
    rw [List.length_dropLast] at h1
    omega
  exact h.not_holds (hu.trans ((List.dropLast_prefix p).trans h.begins)) hl hs

theorem endsBefore_of_mem_blockBody (h : p ∈ blockBody) (rest : Text) :
    Piece.EndsBefore ⟨.comment, '/' :: '*' :: p⟩ rest := by
  rcases List.eq_nil_or_concat p with rfl | ⟨y, c, rfl⟩
  · cases List.suffix_nil.mp h.1
  · rw [List.concat_eq_append] at h ⊢
    obtain ⟨hy, rfl⟩ := (concat_mem_blockBody y c).mp h
    have hb : Open .blockStar ('/' :: '*' :: y) :=
      .wellFormed ((mem_opened blockStarred _).mpr ⟨y, hy, rfl⟩)
    exact .completed hb rfl

/-- without an end a block comment stays open -/
theorem exists_open_of_endless (h : ¬ blockEnd <:+: b) :
    ∃ q : State, Open q ('/' :: '*' :: b) ∧ q.unterminated = true := by
  by_cases hs : b.getLast? = some '*'
  · exact ⟨.blockStar, .wellFormed ((mem_opened blockStarred _).mpr ⟨b, ⟨h, hs⟩, rfl⟩), rfl⟩
  · exact ⟨.blockComment, .wellFormed ((mem_opened blockText _).mpr ⟨b, ⟨h, hs⟩, rfl⟩), rfl⟩

theorem endsBefore_of_longest (h : Longest (fun t => ∀ c ∈ t, isLineBreak c = false) b p) :
    Piece.EndsBefore ⟨.comment, '/' :: '/' :: p⟩ (b.drop p.length) := by
  have hm : '/' :: '/' :: p ∈ lineComment := by
    rw [lineComment, Language.mem_mul]
    refine ⟨['/', '/'], (mem_just_mul_just _ _ _).mpr rfl, p, (mem_many _ p).mpr ?_, rfl⟩
    intro c hc
    rw [h.holds c hc]
    rfl
  refine .closed (q := .lineComment) (.wellFormed hm) rfl (by decide) ?_
  intro c hc
  rw [move]
  refine if_pos ?_
  -- any other character would make the beginning longer
  by_contra hb
  obtain ⟨cs, hcs⟩ := List.head?_eq_some_iff.mp hc
  have hl := h.greatest (p ++ [c]) ?_ ?_
  · rw [List.length_append, List.length_singleton] at hl
    omega
  · rw [List.prefix_append_drop h.begins, hcs]
    exact (List.prefix_append_right_inj p).mpr (List.prefix_append [c] cs)
  · intro d hd
    rcases List.mem_append.mp hd with hd | hd
    · exact h.holds d hd
    · rw [List.mem_singleton.mp hd]
      exact Bool.eq_false_iff.mpr hb

end

/-- a block comment ends with the first `*/` behind its opening, and without one it is an error to
the end of the input; a comment to the end of its line takes in all characters before the first
line break; and what comes behind a comment is scanned as if it stood alone -/
theorem comments_end_first (v : Vocabulary) (b : Text) :
    (blockEnd <:+: b → ∃ p, Shortest (blockEnd <:+ ·) b p ∧
        scan v ('/' :: '*' :: b) = ⟨.comment, '/' :: '*' :: p⟩ :: scan v (b.drop p.length)) ∧
      (¬ blockEnd <:+: b → scan v ('/' :: '*' :: b) = [⟨.error, '/' :: '*' :: b⟩]) ∧
      ∃ p, Longest (fun t => ∀ c ∈ t, isLineBreak c = false) b p ∧
        scan v ('/' :: '/' :: b) = ⟨.comment, '/' :: '/' :: p⟩ :: scan v (b.drop p.length) := by
  refine ⟨?_, ?_, ?_⟩
  · intro h
    obtain ⟨u, hs, hu⟩ := List.infix_iff_suffix_prefix.mp h
    obtain ⟨p, hp⟩ := exists_shortest (P := (blockEnd <:+ ·)) hu hs
    have he := endsBefore_of_mem_blockBody hp.mem_blockBody (b.drop p.length)
    refine ⟨p, hp, ?_⟩
    calc scan v ('/' :: '*' :: b)
        = scan v ('/' :: '*' :: p ++ b.drop p.length) := by
          rw [List.cons_append, List.cons_append, ← List.prefix_append_drop hp.begins]
      _ = ⟨.comment, '/' :: '*' :: p⟩ :: scan v (b.drop p.length) := he.scan_append v
  · intro h
    obtain ⟨q, hb, hq⟩ := exists_open_of_endless h
    exact hb.scan_of_unterminated v hq
  · have hp : Longest (fun t => ∀ c ∈ t, isLineBreak c = false) b
        (b.takeWhile fun c => !isLineBreak c) := by
      simpa using longest_takeWhile (fun c => !isLineBreak c) b
    refine ⟨_, hp, ?_⟩
    calc scan v ('/' :: '/' :: b)
        = scan v ('/' :: '/' :: b.takeWhile (fun c => !isLineBreak c) ++ b.drop _) := by
          rw [List.cons_append, List.cons_append, ← List.prefix_append_drop hp.begins]
      _ = _ := (endsBefore_of_longest hp).scan_append v

/-- the slash behind the opening does not end the comment, and neither do two stars -/
theorem comments_end_first_behind_stars :
    let v := Vocabulary.ofWords []
    let b := ['/', '*', '*', '/', 'x']
    blockEnd <:+: b ∧ ∃ p, Shortest (blockEnd <:+ ·) b p ∧
      scan v ('/' :: '*' :: b) = ⟨.comment, '/' :: '*' :: p⟩ :: scan v (b.drop p.length) := by
  intro v b
  have h : blockEnd <:+: b := by decide
  exact ⟨h, (comments_end_first v b).1 h⟩

/-! ## active places -/

/-- the number of backslashes in a row at the end of a text -/
def backslashRun (t : Text) : Nat := (t.rtakeWhile (· == '\\')).length

/-- nothing in `before` escapes what stands behind it -/
def Active (before : Text) : Prop := Even (backslashRun before)

section
variable (x : Text) {c : Char}

theorem active_nil : Active [] := ⟨0, rfl⟩

theorem active_concat_backslash : Active (x ++ ['\\']) ↔ ¬ Active x := by
  have hr : backslashRun (x ++ ['\\']) = backslashRun x + 1 := by
    rw [backslashRun, List.rtakeWhile_concat_pos _ _ _ rfl, List.length_append]
    rfl
  rw [Active, hr, Nat.even_add_one]
  rfl

theorem active_concat_of_ne (hc : c ≠ '\\') : Active (x ++ [c]) := by
  have hr : backslashRun (x ++ [c]) = 0 := by
    rw [backslashRun, List.rtakeWhile_concat_neg _ _ _ (by simpa using hc)]
    rfl
  rw [Active, hr]
  exact active_nil

end

/-- a place that is not active is behind a backslash at an active one -/
theorem exists_of_not_active {x : Text} (h : ¬ Active x) :
    ∃ y, x = y ++ ['\\'] ∧ Active y := by
  rcases List.eq_nil_or_concat x with rfl | ⟨y, c, rfl⟩
  · exact absurd active_nil h
  · rw [List.concat_eq_append] at h ⊢
    by_cases hc : c = '\\'
    · subst hc
      exact ⟨y, rfl, not_not.mp (mt (active_concat_backslash y).mpr h)⟩
    · exact absurd (active_concat_of_ne y hc) h

/-! ## strings -/

/-- the text ends in a quote at an active place -/
def EndsString (t : Text) : Prop := ∃ before, t = before ++ ['"'] ∧ Active before

/-- the text ends in a backslash at an active place and a character that cannot be escaped -/
def SpoilsString (t : Text) : Prop :=
  ∃ before c, t = before ++ ['\\', c] ∧ Active before ∧ isEscape c = false

theorem endsString_iff (t : Text) :
    EndsString t ↔ t.getLast? = some '"' ∧ Active t.dropLast := by
  constructor
  · rintro ⟨x, rfl, hx⟩
    rw [List.getLast?_concat, List.dropLast_concat]
    exact ⟨rfl, hx⟩
  · rintro ⟨h, hx⟩
    exact ⟨t.dropLast, (List.dropLast_append_getLast? '"' h).symm, hx⟩

theorem spoilsString_iff (t : Text) :
    SpoilsString t ↔ t.getLast?.any (fun c => !isEscape c) = true ∧
      t.dropLast.getLast? = some '\\' ∧ Active t.dropLast.dropLast := by
  constructor
  · rintro ⟨x, c, rfl, hx, hc⟩
    rw [show x ++ ['\\', c] = x ++ ['\\'] ++ [c] from (List.append_assoc x ['\\'] [c]).symm,
      List.getLast?_concat, List.dropLast_concat, List.getLast?_concat, List.dropLast_concat]
    refine ⟨?_, rfl, hx⟩
    show (!isEscape c) = true
    rw [hc]
    rfl
  · rintro ⟨h, h', hx⟩
    obtain ⟨c, h, hc⟩ := (Option.any_eq_true _ _).mp h
    rw [Bool.not_eq_true'] at hc
    refine ⟨t.dropLast.dropLast, c, ?_, hx, hc⟩
    calc t = t.dropLast ++ [c] := (List.dropLast_append_getLast? c h).symm
      _ = t.dropLast.dropLast ++ ['\\'] ++ [c] := by
          rw [List.dropLast_append_getLast? '\\' h']
      _ = t.dropLast.dropLast ++ ['\\', c] := List.append_assoc _ _ _

instance : DecidablePred Active := fun t => inferInstanceAs (Decidable (Even (backslashRun t)))

instance : DecidablePred EndsString := fun t => decidable_of_iff' _ (endsString_iff t)

instance : DecidablePred SpoilsString := fun t => decidable_of_iff' _ (spoilsString_iff t)

/-- what stands behind an opening quote neither ends the string nor spoils it -/
def Unended (t : Text) : Prop := ∀ u, u <+: t → ¬ EndsString u ∧ ¬ SpoilsString u

section
variable {x : Text} {c : Char}

theorem Unended.of_prefix {t : Text} (h : Unended t) (hx : x <+: t) : Unended x :=
  fun u hu => h u (hu.trans hx)

/-- the string is open: at an active place anything may follow, and at any other place the end of
an escape -/
theorem Unended.open_string (h : Unended x) :
    (Active x → Open .string ('"' :: x)) ∧ (¬ Active x → Open .stringEscape ('"' :: x)) := by
  induction x using List.reverseRecOn with
  | nil =>
    refine ⟨fun _ => ?_, fun hn => absurd active_nil hn⟩
    have hq : Open .string ([] ++ ['"']) := open_idle.concat rfl
    exact hq
  | append_singleton x c ih =>
    obtain ⟨ha, hn⟩ := ih (h.of_prefix (List.prefix_append x [c]))
    obtain ⟨he, hs⟩ := h (x ++ [c]) (List.prefix_refl _)
    by_cases hx : Active x
    · have hb : Open .string ('"' :: x) := ha hx
      have hq : c ≠ '"' := by
        rintro rfl
        exact he ⟨x, rfl, hx⟩
      by_cases hc : c = '\\'
      · subst hc
        have hm : move .string '\\' = .stay .stringEscape := rfl
        exact ⟨fun hy => absurd hx ((active_concat_backslash x).mp hy), fun _ => hb.concat hm⟩
      · have hm : move .string c = .stay .string := by rw [move, if_neg hq, if_neg hc]
        exact ⟨fun _ => hb.concat hm, fun hy => absurd (active_concat_of_ne x hc) hy⟩
    · have hb : Open .stringEscape ('"' :: x) := hn hx
      have hc : isEscape c = true := by
        by_contra hc
        obtain ⟨y, rfl, hy⟩ := exists_of_not_active hx
        exact hs ⟨y, c, List.append_assoc _ _ _, hy, Bool.eq_false_iff.mpr hc⟩
      have hm : move .stringEscape c = .stay .string := by rw [move, afterBackslash, if_pos hc]
      have hy : Active (x ++ [c]) := by
        by_cases hc' : c = '\\'
        · subst hc'
          exact (active_concat_backslash x).mpr hx
        · exact active_concat_of_ne x hc'
      exact ⟨fun _ => hb.concat hm, fun hy' => absurd hy hy'⟩

theorem unended_of_length_lt {b : Text} (hx : x <+: b)
    (he : ∀ p, Shortest EndsString b p → x.length < p.length)
    (hs : ∀ q, Shortest SpoilsString b q → x.length < q.length) : Unended x :=
  fun _ hu => ⟨not_holds_of_length_lt hx he hu, not_holds_of_length_lt hx hs hu⟩

end

section
variable {b p q : Text}

theorem endsBefore_of_endsString (hp : Shortest EndsString b p)
    (hs : ∀ q, Shortest SpoilsString b q → p.length < q.length) (rest : Text) :
    Piece.EndsBefore ⟨.string, '"' :: p⟩ rest := by
  obtain ⟨x, rfl, hx⟩ := hp.holds
  have hl : (x ++ ['"']).length = x.length + 1 := List.length_append
  have hu : Unended x := by
    refine unended_of_length_lt ((List.prefix_append x ['"']).trans hp.begins) ?_ ?_
    · intro p' hp'
      have h := hp.least p' hp'.begins hp'.holds
      omega
    · intro q hq
      have h := hs q hq
      omega
  exact .completed (hu.open_string.1 hx) rfl

theorem endsBefore_of_spoilsString (hq : Shortest SpoilsString b q)
    (he : ∀ p, Shortest EndsString b p → q.length < p.length) (rest : Text) :
    Piece.EndsBefore ⟨.error, '"' :: q⟩ rest := by
  obtain ⟨x, c, rfl, hx, hc⟩ := hq.holds
  have e : x ++ ['\\', c] = x ++ ['\\'] ++ [c] := (List.append_assoc x ['\\'] [c]).symm
  rw [e] at hq he ⊢
  have hl : (x ++ ['\\'] ++ [c]).length = (x ++ ['\\']).length + 1 := List.length_append
  have hu : Unended (x ++ ['\\']) := by
    refine unended_of_length_lt ((List.prefix_append (x ++ ['\\']) [c]).trans hq.begins) ?_ ?_
    · intro p hp
      have h := he p hp
      omega
    · intro q' hq'
      have h := hq.least q' hq'.begins hq'.holds
      omega
  have hb : Open .stringEscape ('"' :: (x ++ ['\\'])) :=
    hu.open_string.2 fun h => (active_concat_backslash x).mp h hx
  have hm : move .stringEscape c = .stay .malformed := by
    rw [move, afterBackslash, hc]
    rfl
  exact .closed (hb.concat hm) rfl (by decide) fun d _ => rfl

/-- the last character of the one is a quote, which may be escaped, and that of the other may not -/
theorem length_ne_of_shortest (hp : Shortest EndsString b p) (hq : Shortest SpoilsString b q) :
    p.length ≠ q.length := by
  intro hl
  have e : p = q :=
    (List.prefix_of_prefix_length_le hp.begins hq.begins hl.le).eq_of_length hl
  obtain ⟨x, rfl, -⟩ := hp.holds
  obtain ⟨y, c, h, -, hc⟩ := hq.holds
  have h' : x ++ ['"'] = y ++ ['\\'] ++ [c] := by
    rw [e, h, List.append_assoc]
    rfl
  obtain ⟨-, hq⟩ := List.append_inj' h' rfl
  cases hq
  cases hc

end

/-- a string ends with the first quote at an active place, unless an escape spoils it before; then
the string up to that escape is an error; without the one and the other it is an error to the end of
the input; and what comes behind the string or the error is scanned as if it stood alone -/
theorem string_ends_at_active_quote (v : Vocabulary) (b : Text) :
    (∀ p, Shortest EndsString b p → (∀ q, Shortest SpoilsString b q → p.length < q.length) →
        scan v ('"' :: b) = ⟨.string, '"' :: p⟩ :: scan v (b.drop p.length)) ∧
      (∀ q, Shortest SpoilsString b q → (∀ p, Shortest EndsString b p → q.length < p.length) →
        scan v ('"' :: b) = ⟨.error, '"' :: q⟩ :: scan v (b.drop q.length)) ∧
      ((∀ p, ¬ Shortest EndsString b p) → (∀ q, ¬ Shortest SpoilsString b q) →
        scan v ('"' :: b) = [⟨.error, '"' :: b⟩]) ∧
      ∀ p q, Shortest EndsString b p → Shortest SpoilsString b q → p.length ≠ q.length := by
  refine ⟨?_, ?_, ?_, fun p q hp hq => length_ne_of_shortest hp hq⟩
  · intro p hp hs
    have h := (endsBefore_of_endsString hp hs (b.drop p.length)).scan_append v
    rwa [List.cons_append, ← List.prefix_append_drop hp.begins] at h
  · intro q hq he
    have h := (endsBefore_of_spoilsString hq he (b.drop q.length)).scan_append v
    rwa [List.cons_append, ← List.prefix_append_drop hq.begins] at h
  · intro he hs
    have hu : Unended b := unended_of_length_lt (List.prefix_refl b)
      (fun p hp => absurd hp (he p)) (fun q hq => absurd hq (hs q))
    by_cases hb : Active b
    · exact (hu.open_string.1 hb).scan_of_unterminated v rfl
    · exact (hu.open_string.2 hb).scan_of_unterminated v rfl

/-- an escaped quote and an escaped backslash before the end, an escape that spoils the string
before the end, and an escaped quote where there is no end -/
theorem string_ends_at_active_quote_behind_backslashes :
    let v := Vocabulary.ofWords []
    let whole := ['\\', '"', '\\', '\\', '"', '\\', 'x', '"']
    let spoilt := ['\\', 'x', '"']
    let lone := ['\\', '"']
    Shortest EndsString whole (whole.take 5) ∧ Shortest SpoilsString spoilt (spoilt.take 2) ∧
      scan v ('"' :: whole) = ⟨.string, '"' :: whole.take 5⟩ :: scan v (whole.drop 5) ∧
      scan v ('"' :: spoilt) = ⟨.error, '"' :: spoilt.take 2⟩ :: scan v (spoilt.drop 2) ∧
      scan v ('"' :: lone) = [⟨.error, '"' :: lone⟩] := by
  intro v whole spoilt lone
  have hw : Shortest EndsString whole (whole.take 5) := by decide +kernel
  have hw' : Shortest SpoilsString whole (whole.take 7) := by decide +kernel
  have hs : Shortest SpoilsString spoilt (spoilt.take 2) := by decide +kernel
  have hs' : Shortest EndsString spoilt spoilt := by decide +kernel
  have hl : ∀ u ∈ lone.inits, ¬ EndsString u ∧ ¬ SpoilsString u := by decide +kernel
  refine ⟨hw, hs, (string_ends_at_active_quote v whole).1 _ hw ?_,
    (string_ends_at_active_quote v spoilt).2.1 _ hs ?_,
    (string_ends_at_active_quote v lone).2.2.1 ?_ ?_⟩
  · intro q hq
    exact lt_of_lt_of_le (by decide) (hw'.least q hq.begins hq.holds)
  · intro p hp
    exact lt_of_lt_of_le (by decide) (hs'.least p hp.begins hp.holds)
  · intro p hp
    exact (hl p ((List.mem_inits p lone).mpr hp.begins)).1 hp.holds
  · intro q hq
    exact (hl q ((List.mem_inits q lone).mpr hq.begins)).2 hq.holds

end CurlyLex
