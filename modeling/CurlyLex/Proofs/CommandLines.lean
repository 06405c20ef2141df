import Mathlib.Data.List.Induction
import CurlyLex.Proofs.Arguments

/-!
# Command lines

Each command reads its arguments from left to right, but what they mean does not depend on their
order, except that of several options with one name the last holds.

* `InOrder offends args`, `FirstOffence offends args e`   none of the arguments offends against
                      those before it, and the leftmost one that does;
* `foldlM_eq_ok_iff`, `foldlM_eq_error_iff`   a reading from left to right fails there, and else
                      makes of the arguments what they describe together;
* `settingsOf args`, `inputs args`   the settings that the arguments describe, and the inputs;
* `OffendsBehind`, `OffendsAlone`   what `lex` and `keywords` hold against an argument;
* `LexOptions.read_eq_ok_iff`, `readSettings_eq_ok_iff`   the lists of arguments that each of the
                      two accepts, and what is read from them;
* `arguments_read_in_any_order`   all of this, with the errors, and with the orders in which the
                      same arguments are read alike.
-/

namespace CurlyLex

/-! ## from left to right -/

section
variable (offends : List Text → Text → UsageError → Prop)

/-- no argument offends against those before it -/
def InOrder (args : List Text) : Prop :=
  ∀ before arg after, args = before ++ arg :: after → ∀ e, ¬ offends before arg e

/-- the leftmost argument that offends against those before it, and how -/
def FirstOffence (args : List Text) (e : UsageError) : Prop :=
  ∃ before arg after, args = before ++ arg :: after ∧ InOrder offends before ∧
    offends before arg e

variable {offends} {args : List Text} {arg : Text}

theorem inOrder_nil : InOrder offends [] := by
  intro before arg after h
  cases before <;> cases h

theorem inOrder_concat :
    InOrder offends (args ++ [arg]) ↔ InOrder offends args ∧ ∀ e, ¬ offends args arg e := by
  constructor
  · intro h
    refine ⟨?_, h args arg [] rfl⟩
    rintro before x after rfl
    exact h before x (after ++ [arg]) (by simp)
  · rintro ⟨h, hl⟩ before x after e
    rcases List.eq_nil_or_concat after with rfl | ⟨after, y, rfl⟩
    · obtain ⟨rfl, hx⟩ := List.append_inj' e rfl
      cases hx
      exact hl
    · rw [List.concat_eq_append] at e
      have e' : args ++ [arg] = (before ++ x :: after) ++ [y] := by simpa using e
      exact h before x after (List.append_inj' e' rfl).1

theorem inOrder_or_exists_firstOffence (offends : List Text → Text → UsageError → Prop)
    (args : List Text) : InOrder offends args ∨ ∃ e, FirstOffence offends args e := by
  induction args using List.reverseRecOn with
  | nil => exact Or.inl inOrder_nil
  | append_singleton args arg ih =>
    rcases ih with h | ⟨e, before, x, after, rfl, h, hx⟩
    · by_cases hl : ∃ e, offends args arg e
      · obtain ⟨e, he⟩ := hl
        exact Or.inr ⟨e, args, arg, [], rfl, h, he⟩
      · exact Or.inl (inOrder_concat.mpr ⟨h, not_exists.mp hl⟩)
    · exact Or.inr ⟨e, before, x, after ++ [arg], by simp, h, hx⟩

-- what a reading makes of the arguments is given by `view`, as long as none offends
variable {σ : Type} {step : σ → Text → Except UsageError σ} {view : List Text → σ}
  (hok : ∀ args arg t, step (view args) arg = .ok t → t = view (args ++ [arg]))
  (herr : ∀ args arg e, step (view args) arg = .error e ↔ offends args arg e)
include hok herr

theorem InOrder.foldlM_eq (h : InOrder offends args) :
    args.foldlM step (view []) = .ok (view args) := by
  induction args using List.reverseRecOn with
  | nil => rfl
  | append_singleton args arg ih =>
    obtain ⟨h, hl⟩ := inOrder_concat.mp h
    rw [List.foldlM_append, ih h]
    show [arg].foldlM step (view args) = _
    rw [List.foldlM_cons]
    cases hs : step (view args) arg with
    | error e => exact absurd ((herr args arg e).mp hs) (hl e)
    | ok t =>
      rw [hok args arg t hs]
      rfl

theorem FirstOffence.foldlM_eq {e : UsageError} (h : FirstOffence offends args e) :
    args.foldlM step (view []) = .error e := by
  obtain ⟨before, arg, after, rfl, hb, he⟩ := h
  rw [List.foldlM_append, hb.foldlM_eq hok herr]
  show (arg :: after).foldlM step (view before) = _
  rw [List.foldlM_cons, (herr before arg e).mpr he]
  rfl

theorem foldlM_eq_ok_iff {t : σ} :
    args.foldlM step (view []) = .ok t ↔ InOrder offends args ∧ t = view args := by
  rcases inOrder_or_exists_firstOffence offends args with h | ⟨e, he⟩
  · rw [h.foldlM_eq hok herr, Except.ok.injEq, eq_comm]
    exact (and_iff_right h).symm
  · rw [he.foldlM_eq hok herr]
    refine ⟨nofun, ?_⟩
    rintro ⟨h, -⟩
    obtain ⟨before, arg, after, e', -, he⟩ := he
    exact absurd he (h before arg after e' e)

theorem foldlM_eq_error_iff {e : UsageError} :
    args.foldlM step (view []) = .error e ↔ FirstOffence offends args e := by
  refine ⟨?_, fun h => h.foldlM_eq hok herr⟩
  intro h
  rcases inOrder_or_exists_firstOffence offends args with hi | ⟨e', he⟩
  · rw [hi.foldlM_eq hok herr] at h
    cases h
  · rw [he.foldlM_eq hok herr] at h
    cases h
    exact he

end

/-! ## what the arguments describe -/

/-- the values of the options with the given name, from left to right -/
def values (name : Text) (args : List Text) : List Text := args.filterMap name.isPrefixOf?

def lastValue (name : Text) (args : List Text) : Option Text := (values name args).getLast?

/-- the texts before and behind the first comma -/
def aroundComma (value : Text) : Text × Text :=
  (value.takeWhile (· != ','), (value.dropWhile (· != ',')).tail)

def settingsOf (args : List Text) : Settings :=
  ⟨lastValue "--keywords=".toList args, lastValue "--null=".toList args,
    (lastValue "--booleans=".toList args).map aroundComma⟩

def inputs (args : List Text) : List Text := args.filter isInput

theorem TwoWords.aroundComma_eq {value truthy falsy : Text} (h : TwoWords value truthy falsy) :
    aroundComma value = (truthy, falsy) := by
  have ht : ∀ c ∈ truthy, (c != ',') = true := by
    intro c hc
    rw [bne_iff_ne]
    rintro rfl
    exact h.comma_not_mem_truthy hc
  rw [aroundComma, h.eq_append, List.takeWhile_append_of_pos ht, List.dropWhile_append_of_pos ht]
  simp

theorem lastValue_concat (name : Text) (args : List Text) (arg : Text) :
    lastValue name (args ++ [arg]) = (name.isPrefixOf? arg).or (lastValue name args) := by
  rw [lastValue, values, List.filterMap_append, List.getLast?_append]
  cases h : name.isPrefixOf? arg with
  | none => rw [List.filterMap_cons_none h]; rfl
  | some value => rw [List.filterMap_cons_some h]; rfl

section
variable {arg : Text} (args : List Text)

theorem settingsOf_concat_of_makes {s : Setting} (h : Makes arg s) :
    settingsOf (args ++ [arg]) = (settingsOf args).put s := by
  rw [settingsOf, lastValue_concat, lastValue_concat, lastValue_concat]
  cases h with
  | wordList h => rfl
  | null h => rfl
  | @booleans value truthy falsy h =>
    show Settings.mk _ _ (some (aroundComma value)) = _
    rw [h.aroundComma_eq]
    rfl

theorem settingsOf_concat_of_not_option (h : ∀ name ∈ optionNames, ¬ name <+: arg) :
    settingsOf (args ++ [arg]) = settingsOf args := by
  simp only [optionNames, List.forall_mem_cons] at h
  obtain ⟨hk, hn, hb, -⟩ := h
  rw [settingsOf, lastValue_concat, lastValue_concat, lastValue_concat,
    Argument.isPrefixOf?_eq_none hk, Argument.isPrefixOf?_eq_none hn,
    Argument.isPrefixOf?_eq_none hb]
  rfl

theorem settingsOf_concat_of_read {a : Argument} (h : Argument.read arg = .ok a) :
    settingsOf (args ++ [arg]) =
      match a with
      | .setting s => (settingsOf args).put s
      | _ => settingsOf args := by
  cases a with
  | setting s => exact settingsOf_concat_of_makes args (makes_iff.mpr h)
  | _ => exact settingsOf_concat_of_not_option args (not_prefix_of_read h nofun)

theorem inputs_concat (arg : Text) :
    inputs (args ++ [arg]) = inputs args ++ if isInput arg then [arg] else [] := by
  rw [inputs, List.filter_append, List.filter_singleton, inputs]
  cases isInput arg <;> rfl

end

/-! ## the arguments of `lex` -/

/-- the argument is out of place by itself, or it is an input behind another one -/
def OffendsBehind (before : List Text) (arg : Text) (e : UsageError) : Prop :=
  Faulty arg e ∨ isInput arg = true ∧ inputs before ≠ [] ∧ e = .unexpectedArgument arg

theorem not_offendsBehind_iff {before : List Text} {arg : Text} :
    (∀ e, ¬ OffendsBehind before arg e) ↔
      (∀ e, ¬ Faulty arg e) ∧ (isInput arg = true → inputs before = []) := by
  constructor
  · intro h
    refine ⟨fun e he => h e (Or.inl he), ?_⟩
    intro hi
    by_contra hb
    exact h (.unexpectedArgument arg) (Or.inr ⟨hi, hb, rfl⟩)
  · rintro ⟨hf, hi⟩ e (he | ⟨ha, hb, -⟩)
    · exact hf e he
    · exact hb (hi ha)

theorem inOrder_behind_iff {args : List Text} :
    InOrder OffendsBehind args ↔
      (∀ arg ∈ args, ∀ e, ¬ Faulty arg e) ∧ (inputs args).length ≤ 1 := by
  induction args using List.reverseRecOn with
  | nil => exact iff_of_true inOrder_nil ⟨List.forall_mem_nil _, Nat.zero_le 1⟩
  | append_singleton args arg ih =>
    rw [inOrder_concat, ih, not_offendsBehind_iff, inputs_concat, List.forall_mem_append,
      List.forall_mem_singleton, List.length_append, ← List.length_eq_zero_iff]
    cases isInput arg with
    | true =>
      show _ ↔ _ ∧ (inputs args).length + 1 ≤ 1
      have hl : ((inputs args).length ≤ 1 ∧ (inputs args).length = 0) ↔
          (inputs args).length + 1 ≤ 1 := by omega
      rw [← hl]
      tauto
    | false =>
      show _ ↔ _ ∧ (inputs args).length ≤ 1
      have ht : (false = true → (inputs args).length = 0) := nofun
      tauto

namespace LexOptions

/-- what the arguments describe, as far as they have been read -/
def draftOf (args : List Text) : Draft :=
  ⟨(inputs args).head?.map .ofName, settingsOf args, args.contains "--summary".toList,
    args.contains "--deny-errors".toList⟩

theorem draftOf_concat_of_read (args : List Text) {arg : Text} {a : Argument}
    (h : Argument.read arg = .ok a) :
    draftOf (args ++ [arg]) =
      ⟨((inputs args).head?.or (if a = .input arg then some arg else none)).map .ofName,
        settingsOf (args ++ [arg]), args.contains "--summary".toList || decide (a = .summary),
        args.contains "--deny-errors".toList || decide (a = .denyErrors)⟩ := by
  have hi : (inputs (args ++ [arg])).head? =
      (inputs args).head?.or (if isInput arg then some arg else none) := by
    rw [inputs_concat, List.head?_append]
    cases isInput arg <;> rfl
  rw [draftOf, hi]
  simp only [List.contains_eq_mem, List.mem_append, List.mem_singleton, Bool.decide_or,
    eq_comm (b := arg), isInput_iff, eq_summary_iff, eq_denyErrors_iff, h, Except.ok.injEq]

theorem input_draftOf_of_nil {args : List Text} (h : inputs args = []) :
    (draftOf args).input = none := by
  rw [draftOf, h]
  rfl

theorem input_draftOf_of_cons {args names : List Text} {name : Text}
    (h : inputs args = name :: names) : (draftOf args).input = some (.ofName name) := by
  rw [draftOf, h]
  rfl

/-- a further argument is added to what the arguments before it describe -/
theorem eq_draftOf_of_add (args : List Text) (arg : Text) (d : Draft)
    (h : (draftOf args).add arg = .ok d) : d = draftOf (args ++ [arg]) := by
  rw [Draft.add] at h
  cases hr : Argument.read arg with
  | error e =>
    rw [hr] at h
    cases h
  | ok a =>
    rw [hr] at h
    rw [draftOf_concat_of_read args hr, settingsOf_concat_of_read args hr]
    cases a with
    | setting s =>
      cases h
      simp [draftOf]
    | summary =>
      cases h
      simp [draftOf]
    | denyErrors =>
      cases h
      simp [draftOf]
    | input name =>
      obtain rfl := eq_of_read_input hr
      cases hi : inputs args with
      | nil =>
        simp only [input_draftOf_of_nil hi] at h
        cases h
        simp [draftOf]
      | cons name' names =>
        simp only [input_draftOf_of_cons hi] at h
        cases h

theorem add_eq_error_iff (args : List Text) (arg : Text) (e : UsageError) :
    (draftOf args).add arg = .error e ↔ OffendsBehind args arg e := by
  rw [OffendsBehind, faulty_iff, isInput_iff, Draft.add]
  cases hr : Argument.read arg with
  | error e' => simp
  | ok a =>
    cases a with
    | setting s => simp
    | summary => simp
    | denyErrors => simp
    | input name =>
      obtain rfl := eq_of_read_input hr
      cases hi : inputs args with
      | nil => simp [input_draftOf_of_nil hi]
      | cons name' names => simp [input_draftOf_of_cons hi, eq_comm]

theorem complete_draftOf_of_nil {args : List Text} (h : inputs args = []) :
    (draftOf args).complete = .error .missingInput := by
  rw [Draft.complete, input_draftOf_of_nil h]

theorem complete_draftOf_of_cons {args names : List Text} {name : Text}
    (h : inputs args = name :: names) :
    (draftOf args).complete = .ok ⟨.ofName name, settingsOf args,
      decide ("--summary".toList ∈ args), decide ("--deny-errors".toList ∈ args)⟩ := by
  rw [Draft.complete, input_draftOf_of_cons h, ← List.contains_eq_mem, ← List.contains_eq_mem]
  rfl

section
variable {args : List Text}

theorem foldlM_add_eq_ok_iff {d : Draft} :
    args.foldlM Draft.add .empty = .ok d ↔ InOrder OffendsBehind args ∧ d = draftOf args :=
  foldlM_eq_ok_iff eq_draftOf_of_add add_eq_error_iff

theorem foldlM_add_eq_error_iff {e : UsageError} :
    args.foldlM Draft.add .empty = .error e ↔ FirstOffence OffendsBehind args e :=
  foldlM_eq_error_iff eq_draftOf_of_add add_eq_error_iff

theorem read_of_inOrder (h : InOrder OffendsBehind args) : read args = (draftOf args).complete := by
  rw [read, foldlM_add_eq_ok_iff.mpr ⟨h, rfl⟩]
  rfl

theorem read_of_firstOffence {e : UsageError} (h : FirstOffence OffendsBehind args e) :
    read args = .error e := by
  rw [read, foldlM_add_eq_error_iff.mpr h]
  rfl

theorem read_eq_ok_iff {o : LexOptions} :
    read args = .ok o ↔
      (∀ arg ∈ args, ∀ e, ¬ Faulty arg e) ∧ ∃ name, inputs args = [name] ∧
        o = ⟨.ofName name, settingsOf args, decide ("--summary".toList ∈ args),
          decide ("--deny-errors".toList ∈ args)⟩ := by
  constructor
  · intro h
    rcases inOrder_or_exists_firstOffence OffendsBehind args with hi | ⟨e, he⟩
    · obtain ⟨hf, hl⟩ := inOrder_behind_iff.mp hi
      rw [read_of_inOrder hi] at h
      cases hn : inputs args with
      | nil =>
        rw [complete_draftOf_of_nil hn] at h
        cases h
      | cons name names =>
        rw [complete_draftOf_of_cons hn] at h
        cases h
        rw [hn, List.length_cons] at hl
        obtain rfl : names = [] := List.length_eq_zero_iff.mp (by omega)
        exact ⟨hf, name, rfl, rfl⟩
    · rw [read_of_firstOffence he] at h
      cases h
  · rintro ⟨hf, name, hn, rfl⟩
    have hl : (inputs args).length ≤ 1 := by rw [hn]; exact Nat.le_refl 1
    rw [read_of_inOrder (inOrder_behind_iff.mpr ⟨hf, hl⟩), complete_draftOf_of_cons hn]

theorem read_eq_error_iff {e : UsageError} :
    read args = .error e ↔ FirstOffence OffendsBehind args e ∨
      (∀ arg ∈ args, ∀ e, ¬ Faulty arg e) ∧ inputs args = [] ∧ e = .missingInput := by
  constructor
  · intro h
    rcases inOrder_or_exists_firstOffence OffendsBehind args with hi | ⟨e', he⟩
    · rw [read_of_inOrder hi] at h
      cases hn : inputs args with
      | nil =>
        rw [complete_draftOf_of_nil hn] at h
        cases h
        exact Or.inr ⟨(inOrder_behind_iff.mp hi).1, rfl, rfl⟩
      | cons name names =>
        rw [complete_draftOf_of_cons hn] at h
        cases h
    · rw [read_of_firstOffence he] at h
      cases h
      exact Or.inl he
  · rintro (he | ⟨hf, hn, rfl⟩)
    · exact read_of_firstOffence he
    · have hl : (inputs args).length ≤ 1 := by rw [hn]; exact Nat.zero_le 1
      rw [read_of_inOrder (inOrder_behind_iff.mpr ⟨hf, hl⟩), complete_draftOf_of_nil hn]

end

end LexOptions

/-! ## the arguments of `keywords` -/

/-- the argument is anything but a well-formed option; the flags are unknown here -/
def OffendsAlone (arg : Text) (e : UsageError) : Prop :=
  Faulty arg e ∨ arg ∈ flagNames ∧ e = .unknownOption arg ∨
    isInput arg = true ∧ e = .unexpectedArgument arg

theorem not_offendsAlone_iff {arg : Text} : (∀ e, ¬ OffendsAlone arg e) ↔ ∃ s, Makes arg s := by
  simp only [OffendsAlone, faulty_iff, mem_flagNames_iff, isInput_iff, makes_iff]
  cases hr : Argument.read arg with
  | error e => simp
  | ok a =>
    cases a with
    | setting s => simp
    | summary => simp
    | denyErrors => simp
    | input name =>
      obtain rfl := eq_of_read_input hr
      simp

theorem inOrder_alone_iff {args : List Text} :
    InOrder (fun _ => OffendsAlone) args ↔ ∀ arg ∈ args, ∃ s, Makes arg s := by
  induction args using List.reverseRecOn with
  | nil => exact iff_of_true inOrder_nil (List.forall_mem_nil _)
  | append_singleton args arg ih =>
    rw [inOrder_concat, ih, not_offendsAlone_iff, List.forall_mem_append,
      List.forall_mem_singleton]

namespace Settings

theorem eq_settingsOf_of_add (args : List Text) (arg : Text) (s : Settings)
    (h : (settingsOf args).add arg = .ok s) : s = settingsOf (args ++ [arg]) := by
  rw [add] at h
  cases hr : Argument.read arg with
  | error e =>
    rw [hr] at h
    cases h
  | ok a =>
    rw [hr] at h
    cases a with
    | setting setting =>
      cases h
      exact (settingsOf_concat_of_read args hr).symm
    | summary => cases h
    | denyErrors => cases h
    | input name => cases h

theorem add_eq_error_iff (args : List Text) (arg : Text) (e : UsageError) :
    (settingsOf args).add arg = .error e ↔ OffendsAlone arg e := by
  rw [OffendsAlone, faulty_iff, mem_flagNames_iff, isInput_iff, add]
  cases hr : Argument.read arg with
  | error e' => simp
  | ok a =>
    cases a with
    | setting s => simp
    | summary => simp [eq_comm]
    | denyErrors => simp [eq_comm]
    | input name =>
      obtain rfl := eq_of_read_input hr
      simp [eq_comm]

end Settings

theorem readSettings_eq_ok_iff {args : List Text} {s : Settings} :
    readSettings args = .ok s ↔ (∀ arg ∈ args, ∃ s, Makes arg s) ∧ s = settingsOf args := by
  rw [← inOrder_alone_iff]
  exact foldlM_eq_ok_iff Settings.eq_settingsOf_of_add Settings.add_eq_error_iff

theorem readSettings_eq_error_iff {args : List Text} {e : UsageError} :
    readSettings args = .error e ↔ FirstOffence (fun _ => OffendsAlone) args e :=
  foldlM_eq_error_iff Settings.eq_settingsOf_of_add Settings.add_eq_error_iff

/-! ## other orders -/

section
variable {args args' : List Text} (hp : args.Perm args')
include hp

theorem inputs_eq_singleton_iff {name : Text} : inputs args = [name] ↔ inputs args' = [name] := by
  have hi : (inputs args).Perm (inputs args') := hp.filter isInput
  rw [← List.perm_singleton, ← List.perm_singleton]
  exact ⟨fun h => hi.symm.trans h, fun h => hi.trans h⟩

theorem LexOptions.read_eq_ok_iff_of_perm
    (hv : ∀ name ∈ optionNames, values name args = values name args') {o : LexOptions} :
    read args = .ok o ↔ read args' = .ok o := by
  simp only [optionNames, List.forall_mem_cons] at hv
  obtain ⟨hk, hn, hb, -⟩ := hv
  have hs : settingsOf args = settingsOf args' := by
    rw [settingsOf, lastValue, lastValue, lastValue, hk, hn, hb]
    rfl
  rw [read_eq_ok_iff, read_eq_ok_iff, hs]
  simp only [hp.mem_iff, inputs_eq_singleton_iff hp]

end

/-- the arguments of `lex` are accepted if none is faulty and just one is an input; they then name
the input, each flag is set if it stands among them, and each setting is the last one made; so they
may be put in any order that keeps the values of each option in theirs.  Else the error is that of
the leftmost argument out of place, or that there is no input.  The arguments of `keywords` are
accepted if all are well-formed options, and make the same settings of them. -/
theorem arguments_read_in_any_order (args : List Text) :
    (∀ o, LexOptions.read args = .ok o ↔
        (∀ arg ∈ args, ∀ e, ¬ Faulty arg e) ∧ ∃ name, inputs args = [name] ∧
          o = ⟨if name = ['-'] then .standard else .file name, settingsOf args,
            decide ("--summary".toList ∈ args), decide ("--deny-errors".toList ∈ args)⟩) ∧
      (∀ e, LexOptions.read args = .error e ↔ FirstOffence OffendsBehind args e ∨
        (∀ arg ∈ args, ∀ e, ¬ Faulty arg e) ∧ inputs args = [] ∧ e = .missingInput) ∧
      (∀ args', args.Perm args' →
        (∀ name ∈ optionNames, values name args = values name args') →
        ∀ o, LexOptions.read args = .ok o ↔ LexOptions.read args' = .ok o) ∧
      (∀ s, readSettings args = .ok s ↔ (∀ arg ∈ args, ∃ s, Makes arg s) ∧ s = settingsOf args) ∧
      ∀ e, readSettings args = .error e ↔ FirstOffence (fun _ => OffendsAlone) args e :=
  ⟨fun _ => LexOptions.read_eq_ok_iff, fun _ => LexOptions.read_eq_error_iff,
    fun _ hp hv _ => LexOptions.read_eq_ok_iff_of_perm hp hv, fun _ => readSettings_eq_ok_iff,
    fun _ => readSettings_eq_error_iff⟩

/-- an option given twice, and between its two values the input, which may as well come first -/
theorem arguments_read_in_any_order_null_twice :
    let args := ["--null=a".toList, "-".toList, "--summary".toList, "--null=b".toList]
    let args' := ["-".toList, "--null=a".toList, "--null=b".toList, "--summary".toList]
    args.Perm args' ∧ (∀ name ∈ optionNames, values name args = values name args') ∧
      LexOptions.read args = .ok ⟨.standard, ⟨none, some ['b'], none⟩, true, false⟩ ∧
      LexOptions.read args' = .ok ⟨.standard, ⟨none, some ['b'], none⟩, true, false⟩ := by
  intro args args'
  have hp : args.Perm args' := by decide
  have hv : ∀ name ∈ optionNames, values name args = values name args' := by decide
  have hr : LexOptions.read args = .ok ⟨.standard, ⟨none, some ['b'], none⟩, true, false⟩ := by rfl
  exact ⟨hp, hv, hr, ((arguments_read_in_any_order args).2.2.1 args' hp hv _).mp hr⟩

end CurlyLex
