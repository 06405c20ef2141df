import Mathlib.Data.List.Basic
import CurlyLex.Command.Options
import CurlyLex.Proofs.WordLists

/-!
# Single arguments

What an argument of the command line is by itself, told by what it begins with.

* `TwoWords value truthy falsy`   the value of `--booleans`: two words and the comma between them;
* `Makes arg s`       the argument is a well-formed option, and makes the setting `s`;
* `Faulty arg e`      it is an ill-formed option, or an unknown one;
* `isInput arg`       it is neither option nor flag;
* `Reads arg r`       what an argument is, as the one or the other of these or as a flag;
* `Argument.reads_iff`   just this is read from it; the lemmas behind it say so for each kind.
-/

namespace CurlyLex

/-! ## single arguments -/

/-- what the options begin with that have a value -/
def optionNames : List Text := ["--keywords=".toList, "--null=".toList, "--booleans=".toList]

def flagNames : List Text := ["--summary".toList, "--deny-errors".toList]

/-- an input is no option and no flag: all of these begin with two dashes -/
def isInput (arg : Text) : Bool := !"--".toList.isPrefixOf arg

/-- the value is two words, and the one comma between them -/
structure TwoWords (value truthy falsy : Text) : Prop where
  eq_append : value = truthy ++ ',' :: falsy
  truthy_ne_nil : truthy ≠ []
  falsy_ne_nil : falsy ≠ []
  comma_not_mem_truthy : ',' ∉ truthy
  comma_not_mem_falsy : ',' ∉ falsy

/-- the argument is a well-formed option, and makes the setting -/
inductive Makes : Text → Setting → Prop where
  | wordList {path : Text} (h : path ≠ []) : Makes ("--keywords=".toList ++ path) (.wordList path)
  | null {spelling : Text} (h : spelling ≠ []) :
      Makes ("--null=".toList ++ spelling) (.null spelling)
  | booleans {value truthy falsy : Text} (h : TwoWords value truthy falsy) :
      Makes ("--booleans=".toList ++ value) (.booleans truthy falsy)

/-- the argument is an ill-formed option, or an unknown one -/
inductive Faulty : Text → UsageError → Prop where
  | wordList : Faulty "--keywords=".toList (.missingValue .wordList)
  | null : Faulty "--null=".toList (.missingValue .null)
  | booleans {value : Text} (h : ∀ truthy falsy, ¬ TwoWords value truthy falsy) :
      Faulty ("--booleans=".toList ++ value) (.badBooleans value)
  | unknown {arg : Text} (h : isInput arg = false) (ho : ∀ name ∈ optionNames, ¬ name <+: arg)
      (hf : arg ∉ flagNames) : Faulty arg (.unknownOption arg)

/-- what is read from an argument -/
inductive Reads : Text → Except UsageError Argument → Prop where
  | setting {arg : Text} {s : Setting} (h : Makes arg s) : Reads arg (.ok (.setting s))
  | faulty {arg : Text} {e : UsageError} (h : Faulty arg e) : Reads arg (.error e)
  | summary : Reads "--summary".toList (.ok .summary)
  | denyErrors : Reads "--deny-errors".toList (.ok .denyErrors)
  | input {arg : Text} (h : isInput arg = true) : Reads arg (.ok (.input arg))

namespace Argument

/-! ## the two booleans -/

section
variable {value truthy falsy : Text}

theorem readBooleans_of_twoWords (h : TwoWords value truthy falsy) :
    readBooleans value = .ok (.booleans truthy falsy) := by
  have hs : value.splitOn ',' = [truthy, falsy] := by
    rw [h.eq_append, List.splitOn_append_cons_self_of_not_mem h.comma_not_mem_truthy,
      List.splitOn_eq_singleton h.comma_not_mem_falsy]
  have hn : (truthy.isEmpty || falsy.isEmpty) = false := by
    simp [h.truthy_ne_nil, h.falsy_ne_nil]
  rw [readBooleans, hs]
  show (if (truthy.isEmpty || falsy.isEmpty) = true then _ else _) = _
  rw [hn]
  rfl

theorem comma_not_mem_of_mem_splitOn {w : Text} (h : w ∈ value.splitOn ',') : ',' ∉ w := by
  intro hc
  exact absurd (eq_false_of_mem_splitOnP h ',' hc) (by decide)

theorem readBooleans_of_not (h : ∀ truthy falsy, ¬ TwoWords value truthy falsy) :
    readBooleans value = .error (.badBooleans value) := by
  unfold readBooleans
  split
  · next truthy falsy hs =>
    split
    · rfl
    · next hn =>
      rw [Bool.or_eq_true, not_or, List.isEmpty_iff, List.isEmpty_iff] at hn
      have ht : truthy ∈ value.splitOn ',' := by rw [hs]; exact List.mem_cons_self
      have hf : falsy ∈ value.splitOn ',' := by rw [hs]; simp
      have e : [','].intercalate (value.splitOn ',') = value := List.intercalate_splitOn ','
      rw [hs] at e
      refine absurd ⟨?_, hn.1, hn.2, comma_not_mem_of_mem_splitOn ht,
        comma_not_mem_of_mem_splitOn hf⟩ (h truthy falsy)
      rw [← e]
      simp
  · rfl

end

/-! ## reading one argument -/

theorem isPrefixOf?_eq_none {name arg : Text} (h : ¬ name <+: arg) :
    name.isPrefixOf? arg = none := by
  rw [Option.eq_none_iff_forall_ne_some]
  intro value hv
  exact h ⟨value, List.isPrefixOf?_eq_some_iff_append_eq.mp hv⟩

section
variable {arg : Text}

theorem readSetting?_eq_none (h : ∀ name ∈ optionNames, ¬ name <+: arg) :
    readSetting? arg = none := by
  simp only [optionNames, List.forall_mem_cons] at h
  obtain ⟨hk, hn, hb, -⟩ := h
  rw [readSetting?, isPrefixOf?_eq_none hk, isPrefixOf?_eq_none hn, isPrefixOf?_eq_none hb]

theorem not_prefix_of_isInput (h : isInput arg = true) {name : Text}
    (hn : name ∈ optionNames ++ flagNames) : ¬ name <+: arg := by
  have hd : ∀ name ∈ optionNames ++ flagNames, "--".toList <+: name := by decide
  intro ha
  have hp : "--".toList.isPrefixOf arg = true :=
    List.isPrefixOf_iff_prefix.mpr ((hd name hn).trans ha)
  rw [isInput, hp] at h
  cases h

theorem not_prefix_of_mem_flagNames (h : arg ∈ flagNames) :
    ∀ name ∈ optionNames, ¬ name <+: arg := by
  have hd : ∀ arg ∈ flagNames, ∀ name ∈ optionNames, ¬ name <+: arg := by decide
  exact hd arg h

theorem read_of_makes {s : Setting} (h : Makes arg s) : read arg = .ok (.setting s) := by
  cases h with
  | @wordList path h =>
    have hv : value .wordList path = .ok path := if_neg (by simpa using h)
    show Argument.setting <$> Setting.wordList <$> value .wordList path = _
    rw [hv]
    rfl
  | @null spelling h =>
    have hv : value .null spelling = .ok spelling := if_neg (by simpa using h)
    show Argument.setting <$> Setting.null <$> value .null spelling = _
    rw [hv]
    rfl
  | @booleans words truthy falsy h =>
    show Argument.setting <$> readBooleans words = _
    rw [readBooleans_of_twoWords h]
    rfl

theorem read_of_not_option (h : ∀ name ∈ optionNames, ¬ name <+: arg) :
    read arg =
      if arg = "--summary".toList then .ok .summary
      else if arg = "--deny-errors".toList then .ok .denyErrors
      else if "--".toList.isPrefixOf arg then .error (.unknownOption arg)
      else .ok (.input arg) := by
  rw [read, readSetting?_eq_none h]

theorem read_of_isInput (h : isInput arg = true) : read arg = .ok (.input arg) := by
  have hn : ∀ name ∈ optionNames ++ flagNames, ¬ name <+: arg :=
    fun name => not_prefix_of_isInput h
  have hf : ∀ name ∈ flagNames, arg ≠ name := by
    rintro name hm rfl
    exact hn arg (List.mem_append_right optionNames hm) (List.prefix_refl arg)
  have hd : "--".toList.isPrefixOf arg = false := by simpa [isInput] using h
  rw [read_of_not_option fun name hm => hn name (List.mem_append_left flagNames hm),
    if_neg (hf _ List.mem_cons_self), if_neg (hf _ (by decide)), hd]
  rfl

theorem read_of_faulty {e : UsageError} (h : Faulty arg e) : read arg = .error e := by
  cases h with
  | wordList => rfl
  | null => rfl
  | @booleans words h =>
    show Argument.setting <$> readBooleans words = _
    rw [readBooleans_of_not h]
    rfl
  | unknown h ho hf =>
    have hf' : ∀ name ∈ flagNames, arg ≠ name := by
      rintro name hm rfl
      exact hf hm
    have hd : "--".toList.isPrefixOf arg = true := by simpa [isInput] using h
    rw [read_of_not_option ho, if_neg (hf' _ List.mem_cons_self), if_neg (hf' _ (by decide)), hd]
    rfl

end

/-! ## every argument is read -/

theorem reads_of_option {name value : Text} (h : name ∈ optionNames) :
    ∃ r, Reads (name ++ value) r := by
  simp only [optionNames, List.mem_cons, List.not_mem_nil, or_false] at h
  rcases h with rfl | rfl | rfl
  · by_cases hv : value = []
    · subst hv
      exact ⟨_, .faulty .wordList⟩
    · exact ⟨_, .setting (.wordList hv)⟩
  · by_cases hv : value = []
    · subst hv
      exact ⟨_, .faulty .null⟩
    · exact ⟨_, .setting (.null hv)⟩
  · by_cases hv : ∃ truthy falsy, TwoWords value truthy falsy
    · obtain ⟨truthy, falsy, hw⟩ := hv
      exact ⟨_, .setting (.booleans hw)⟩
    · simp only [not_exists] at hv
      exact ⟨_, .faulty (.booleans hv)⟩

theorem exists_reads (arg : Text) : ∃ r, Reads arg r := by
  by_cases ho : ∃ name ∈ optionNames, name <+: arg
  · obtain ⟨name, hm, value, rfl⟩ := ho
    exact reads_of_option hm
  · have hn : ∀ name ∈ optionNames, ¬ name <+: arg := fun name hm hp => ho ⟨name, hm, hp⟩
    cases hi : isInput arg with
    | true => exact ⟨_, .input hi⟩
    | false =>
      by_cases hf : arg ∈ flagNames
      · simp only [flagNames, List.mem_cons, List.not_mem_nil, or_false] at hf
        rcases hf with rfl | rfl
        · exact ⟨_, .summary⟩
        · exact ⟨_, .denyErrors⟩
      · exact ⟨_, .faulty (.unknown hi hn hf)⟩

theorem reads_iff {arg : Text} {r : Except UsageError Argument} :
    Reads arg r ↔ read arg = r := by
  have h : ∀ {r}, Reads arg r → read arg = r := by
    intro r hr
    cases hr with
    | setting h => exact read_of_makes h
    | faulty h => exact read_of_faulty h
    | summary => rfl
    | denyErrors => rfl
    | input h => exact read_of_isInput h
  refine ⟨h, ?_⟩
  rintro rfl
  obtain ⟨r, hr⟩ := exists_reads arg
  rwa [h hr]

end Argument

section
variable {arg : Text} {e : UsageError}

theorem makes_iff {s : Setting} : Makes arg s ↔ Argument.read arg = .ok (.setting s) := by
  rw [← Argument.reads_iff]
  refine ⟨.setting, ?_⟩
  intro h
  cases h with
  | setting h => exact h

theorem faulty_iff : Faulty arg e ↔ Argument.read arg = .error e := by
  rw [← Argument.reads_iff]
  refine ⟨.faulty, ?_⟩
  intro h
  cases h with
  | faulty h => exact h

theorem isInput_iff : isInput arg = true ↔ Argument.read arg = .ok (.input arg) := by
  rw [← Argument.reads_iff]
  refine ⟨.input, ?_⟩
  intro h
  cases h with
  | input h => exact h

theorem eq_summary_iff : arg = "--summary".toList ↔ Argument.read arg = .ok .summary := by
  rw [← Argument.reads_iff]
  constructor
  · rintro rfl
    exact .summary
  · intro h
    cases h
    rfl

theorem eq_denyErrors_iff : arg = "--deny-errors".toList ↔ Argument.read arg = .ok .denyErrors := by
  rw [← Argument.reads_iff]
  constructor
  · rintro rfl
    exact .denyErrors
  · intro h
    cases h
    rfl

theorem mem_flagNames_iff :
    arg ∈ flagNames ↔ Argument.read arg = .ok .summary ∨ Argument.read arg = .ok .denyErrors := by
  rw [flagNames, List.mem_cons, List.mem_singleton, eq_summary_iff, eq_denyErrors_iff]

theorem eq_of_read_input {name : Text} (h : Argument.read arg = .ok (.input name)) :
    name = arg := by
  cases Argument.reads_iff.mpr h
  rfl

theorem not_prefix_of_read {a : Argument} (h : Argument.read arg = .ok a)
    (ha : ∀ s, a ≠ .setting s) : ∀ name ∈ optionNames, ¬ name <+: arg := by
  intro name hm
  cases a with
  | setting s => exact absurd rfl (ha s)
  | summary =>
    exact Argument.not_prefix_of_mem_flagNames (mem_flagNames_iff.mpr (Or.inl h)) name hm
  | denyErrors =>
    exact Argument.not_prefix_of_mem_flagNames (mem_flagNames_iff.mpr (Or.inr h)) name hm
  | input name' =>
    obtain rfl := eq_of_read_input h
    exact Argument.not_prefix_of_isInput (isInput_iff.mpr h) (List.mem_append_left flagNames hm)

end

end CurlyLex
