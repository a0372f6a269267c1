import Mathlib.Tactic.ByContra
import Mathlib.Tactic.Tauto
import Pushdown.Dialect.CapabilitySet

/-!
# Histories of a set of capabilities

A set of capabilities changes by calls that add or remove any numbers. After any number of such
calls, the last call that mentions a number decides about it, and a number that no call mentions is
where it was at the start. Numbers that no capability has may leave a bit in the word, but they are
never members, and numbers beyond the word do not leave anything.
-/

namespace Pushdown

namespace CapabilitySet

/-- A call that changes a set, with the numbers that it is given. -/
inductive Change where
  | add (numbers : List Nat)
  | remove (numbers : List Nat)

namespace Change

/-- The numbers that the call mentions. -/
def numbers : Change → List Nat
  | add numbers | remove numbers => numbers

/-- Whether the call puts its numbers in. -/
def adds : Change → Bool
  | add _ => true
  | remove _ => false

/-- The call with only those of its numbers that have a place in the word. -/
def inWord : Change → Change
  | add numbers => add (numbers.filter (· < 64))
  | remove numbers => remove (numbers.filter (· < 64))

theorem mem_numbers_inWord {change : Change} {n : Nat} :
    n ∈ change.inWord.numbers ↔ n ∈ change.numbers ∧ n < 64 := by
  cases change <;> simp [inWord, numbers]

theorem adds_inWord (change : Change) : change.inWord.adds = change.adds := by
  cases change <;> rfl

end Change

/-- No call of the history mentions the number. -/
def Unmentioned (history : List Change) (n : Nat) : Prop := ∀ change ∈ history, n ∉ change.numbers

/-- The last call of the history that mentions the number adds it. -/
def AddedLast (history : List Change) (n : Nat) : Prop :=
  ∃ before numbers after, history = before ++ .add numbers :: after ∧ n ∈ numbers ∧
    Unmentioned after n

theorem unmentioned_cons {change : Change} {history : List Change} {n : Nat} :
    Unmentioned (change :: history) n ↔ n ∉ change.numbers ∧ Unmentioned history n :=
  List.forall_mem_cons

theorem addedLast_cons {change : Change} {history : List Change} {n : Nat} :
    AddedLast (change :: history) n ↔
      AddedLast history n ∨ change.adds ∧ n ∈ change.numbers ∧ Unmentioned history n := by
  constructor
  · rintro ⟨before, numbers, after, split, mentioned, later⟩
    rcases List.cons_eq_append_iff.mp split with ⟨-, here⟩ | ⟨earlier, rfl, rest⟩
    · obtain ⟨rfl, rfl⟩ := List.cons.inj here.symm
      exact .inr ⟨rfl, mentioned, later⟩
    · exact .inl ⟨earlier, numbers, after, rest, mentioned, later⟩
  · rintro (⟨before, numbers, after, rfl, mentioned, later⟩ | ⟨adds, mentioned, later⟩)
    · exact ⟨change :: before, numbers, after, rfl, mentioned, later⟩
    · cases change with
      | add numbers => exact ⟨[], numbers, history, rfl, mentioned, later⟩
      | remove numbers => contradiction

/-- The set after one call. -/
def apply (s : CapabilitySet) : Change → CapabilitySet
  | .add numbers => s.insertAll numbers
  | .remove numbers => s.eraseAll numbers

/-- The set after all calls of a history. -/
def run (start : CapabilitySet) (history : List Change) : CapabilitySet :=
  history.foldl apply start

/-! ## One call -/

theorem getLsbD_bit {n i : Nat} (inside : i < 64) : (bit n).getLsbD i = decide (n = i) := by
  rw [bit, ← BitVec.twoPow_eq, BitVec.getLsbD_twoPow]
  by_cases here : n = i
  · simp [here, inside]
  · simp [here]

theorem getLsbD_insertAll (s : CapabilitySet) (numbers : List Nat) {i : Nat} (inside : i < 64) :
    (s.insertAll numbers).bits.getLsbD i = (decide (i ∈ numbers) || s.bits.getLsbD i) := by
  unfold insertAll
  induction numbers generalizing s with
  | nil => simp
  | cons n numbers ih =>
    rw [List.foldl_cons, ih, BitVec.getLsbD_or, getLsbD_bit inside]
    by_cases here : n = i
    · simp [here]
    · simp [here, Ne.symm here]

theorem getLsbD_eraseAll (s : CapabilitySet) (numbers : List Nat) {i : Nat} (inside : i < 64) :
    (s.eraseAll numbers).bits.getLsbD i = (!decide (i ∈ numbers) && s.bits.getLsbD i) := by
  unfold eraseAll
  induction numbers generalizing s with
  | nil => simp
  | cons n numbers ih =>
    rw [List.foldl_cons, ih, BitVec.getLsbD_and, BitVec.getLsbD_not, getLsbD_bit inside]
    by_cases here : n = i
    · simp [here]
    · simp [here, Ne.symm here, inside]

/-- A call writes its numbers and leaves every other place of the word alone. -/
theorem getLsbD_apply (s : CapabilitySet) (change : Change) {i : Nat} (inside : i < 64) :
    (s.apply change).bits.getLsbD i =
      if i ∈ change.numbers then change.adds else s.bits.getLsbD i := by
  cases change with
  | add numbers =>
    rw [apply, getLsbD_insertAll s numbers inside]
    by_cases mentioned : i ∈ numbers <;> simp [Change.numbers, Change.adds, mentioned]
  | remove numbers =>
    rw [apply, getLsbD_eraseAll s numbers inside]
    by_cases mentioned : i ∈ numbers <;> simp [Change.numbers, Change.adds, mentioned]

theorem eq_of_getLsbD {s t : CapabilitySet}
    (same : ∀ i < 64, s.bits.getLsbD i = t.bits.getLsbD i) : s = t := by
  cases s
  cases t
  exact congrArg mk (BitVec.eq_of_getLsbD_eq same)

/-- Numbers beyond the word do not change anything. -/
theorem apply_inWord (s : CapabilitySet) (change : Change) :
    s.apply change.inWord = s.apply change := by
  apply eq_of_getLsbD
  intro i inside
  rw [getLsbD_apply _ _ inside, getLsbD_apply _ _ inside, change.adds_inWord]
  simp only [Change.mem_numbers_inWord, inside, and_true]

/-! ## Histories -/

theorem run_inWord (start : CapabilitySet) (history : List Change) :
    start.run (history.map Change.inWord) = start.run history := by
  simp only [run, List.foldl_map, apply_inWord]

theorem getLsbD_run (start : CapabilitySet) (history : List Change) {i : Nat} (inside : i < 64) :
    (start.run history).bits.getLsbD i ↔
      AddedLast history i ∨ Unmentioned history i ∧ start.bits.getLsbD i := by
  induction history generalizing start with
  | nil => simp [run, AddedLast, Unmentioned]
  | cons change history ih =>
    have next : start.run (change :: history) = (start.apply change).run history := rfl
    rw [next, ih, getLsbD_apply start change inside, addedLast_cons, unmentioned_cons]
    by_cases mentioned : i ∈ change.numbers
    · rw [if_pos mentioned]
      tauto
    · rw [if_neg mentioned]
      tauto

/-! ## Members -/

/-- The mask of a number finds the bit of the number, and nothing beyond the word. -/
theorem and_bit_ne_zero_iff (word : BitVec 64) (n : Nat) :
    word &&& bit n ≠ 0 ↔ word.getLsbD n := by
  rw [bit, ← BitVec.twoPow_eq, BitVec.and_twoPow]
  constructor
  · intro found
    by_contra unset
    exact found (if_neg unset)
  · intro set empty
    have inside : n < 64 := BitVec.lt_of_getLsbD set
    rw [if_pos set] at empty
    have bits := congrArg (·.getLsbD n) empty
    simp [inside] at bits

theorem hasNumber_iff (s : CapabilitySet) (n : Nat) :
    s.hasNumber n ↔ n < Capability.all.length ∧ s.bits.getLsbD n := by
  rw [hasNumber, Bool.and_eq_true, decide_eq_true_iff, bne_iff_ne, and_bit_ne_zero_iff]

theorem not_hasNumber_empty (n : Nat) : ¬ (⟨0⟩ : CapabilitySet).hasNumber n := by
  simp [hasNumber_iff]

theorem hasNumber_full_iff (n : Nat) : full.hasNumber n ↔ n < Capability.all.length := by
  constructor
  · intro member
    exact ((hasNumber_iff _ n).mp member).1
  · have known : ∀ m < Capability.all.length, full.hasNumber m := by decide +kernel
    exact known n

/-- The last call that mentions a number decides whether it is a member. -/
theorem hasNumber_run (start : CapabilitySet) (history : List Change) (n : Nat) :
    (start.run history).hasNumber n ↔ n < Capability.all.length ∧
      (AddedLast history n ∨ Unmentioned history n ∧ start.hasNumber n) := by
  have fits : Capability.all.length ≤ 64 := by decide
  rw [hasNumber_iff, hasNumber_iff]
  by_cases known : n < Capability.all.length
  · rw [getLsbD_run start history (by omega)]
    tauto
  · tauto

theorem numbers_all : Capability.all.map Capability.number = List.range Capability.all.length := by
  decide

theorem numbers_toList (s : CapabilitySet) :
    s.toList.map Capability.number = (List.range Capability.all.length).filter s.hasNumber := by
  rw [← numbers_all, List.filter_map]
  rfl

/-- A set of capabilities, whatever its history, has the numbers that were added last and those that
were there at the start and have not been mentioned since. -/
theorem run_is_set (start : CapabilitySet) (history : List Change) :
    (∀ n, (start.run history).hasNumber n ↔ n < Capability.all.length ∧
      (AddedLast history n ∨ Unmentioned history n ∧ start.hasNumber n)) ∧
    (∀ n, ¬ (⟨0⟩ : CapabilitySet).hasNumber n) ∧
    (∀ n, full.hasNumber n ↔ n < Capability.all.length) ∧
    ((start.run history).toList.map Capability.number).Pairwise (· < ·) ∧
    (∀ n, n ∈ (start.run history).toList.map Capability.number ↔
      (start.run history).hasNumber n) ∧
    start.run (history.map Change.inWord) = start.run history := by
  refine ⟨hasNumber_run start history, not_hasNumber_empty, hasNumber_full_iff, ?_, ?_,
    run_inWord start history⟩
  · rw [numbers_toList]
    exact List.pairwise_lt_range.filter _
  · intro n
    rw [numbers_toList, List.mem_filter, List.mem_range]
    constructor
    · rintro ⟨-, member⟩
      exact member
    · intro member
      exact ⟨((hasNumber_iff _ n).mp member).1, member⟩

end CapabilitySet

end Pushdown
