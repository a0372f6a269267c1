import Pushdown.Text.Case

/-!
# Capital letters

A run of small letters moves to characters that are in no run, and so stay as they are. Hence
capitalizing twice is capitalizing once, and what has been capitalized can be told from what has
not.
-/

namespace Pushdown.Text

namespace CaseRun

/-- The first character that the run moves to. -/
def target (run : CaseRun) : Nat := (run.first + run.shift).toNat

/-- Whether the members of the run are all even or all odd. -/
def skips (run : CaseRun) : Bool := run.step.beq 2 || run.first.beq run.last

/-- Whether the run, once it has moved, has no character in common with the other. This looks at
the ends of the runs only, because a look at every character would take long. -/
def misses (run other : CaseRun) : Bool :=
  other.last.blt run.target || ((run.target + (run.last - run.first)).blt other.first ||
    (run.skips && (other.skips && !((run.target + other.first) % 2).beq 0)))

/-- Whether the run moves to characters that are all behind or all before a stretch. -/
def avoids (run : CaseRun) (first last : Nat) : Bool :=
  last.blt run.target || (run.target + (run.last - run.first)).blt first

/-- Whether the run, once it has moved, has no character in common with any of the others. They are
only looked at one by one if the run does not avoid the whole stretch that they lie in. -/
def missesAll (run : CaseRun) (others : List CaseRun) (first last : Nat) : Bool :=
  run.avoids first last || others.all run.misses

/-- Whether the run moves to characters that exist. -/
def inside (run : CaseRun) : Bool :=
  -run.shift ≤ run.first && run.first ≤ run.last &&
    ((run.target + (run.last - run.first)).blt 0xD800 ||
      (Nat.blt 0xDFFF run.target && (run.target + (run.last - run.first)).blt 0x110000))

variable {run other : CaseRun} {n : Nat}

theorem contains_iff : run.contains n ↔
    run.first ≤ n ∧ n ≤ run.last ∧ (n - run.first) % run.step = 0 := by
  simp [contains, and_assoc]

/-- The members of a run that skips differ by even numbers. -/
theorem even_of_skips (skips : run.skips) (member : run.contains n) :
    (n - run.first) % 2 = 0 := by
  obtain ⟨low, high, step⟩ := contains_iff.mp member
  simp only [CaseRun.skips, Bool.or_eq_true, Nat.beq_eq] at skips
  rcases skips with two | single
  · rwa [two] at step
  · omega

theorem shifted (inside : run.inside) (member : run.contains n) :
    (n + run.shift).toNat = run.target + (n - run.first) := by
  obtain ⟨low, high, -⟩ := contains_iff.mp member
  simp only [CaseRun.inside, Bool.and_eq_true, decide_eq_true_eq] at inside
  rw [target]
  omega

theorem not_contains_of_misses (misses : run.misses other) (member : run.contains n) :
    ¬ other.contains (run.target + (n - run.first)) := by
  intro moved
  obtain ⟨low, high, -⟩ := contains_iff.mp member
  obtain ⟨low', high', -⟩ := contains_iff.mp moved
  simp only [CaseRun.misses, Bool.or_eq_true, Bool.and_eq_true, Bool.not_eq_true',
    Nat.blt_eq] at misses
  rcases misses with above | below | ⟨skips, skips', odd⟩
  · omega
  · omega
  · have even := even_of_skips skips member
    have even' := even_of_skips skips' moved
    have odd : (run.target + other.first) % 2 ≠ 0 := Nat.ne_of_beq_eq_false odd
    omega

theorem misses_of_avoids {first last : Nat} (avoids : run.avoids first last)
    (low : first ≤ other.first) (high : other.last ≤ last) : run.misses other := by
  simp only [CaseRun.avoids, misses, Bool.or_eq_true, Nat.blt_eq] at avoids ⊢
  omega

theorem misses_of_missesAll {others : List CaseRun} {first last : Nat}
    (lies : others.all fun other => first.ble other.first && other.last.ble last)
    (misses : run.missesAll others first last) (member : other ∈ others) : run.misses other := by
  rcases Bool.or_eq_true_iff.mp misses with avoids | each
  · have inside := List.all_eq_true.mp lies other member
    simp only [Bool.and_eq_true, Nat.ble_eq] at inside
    exact misses_of_avoids avoids inside.1 inside.2
  · exact List.all_eq_true.mp each other member

end CaseRun

/-- The mappings to capital letters that are in use. -/
def capitalRuns : List CaseRun := upperRuns ++ recentUpperRuns

theorem capitalRuns_inside : ∀ run ∈ capitalRuns, run.inside :=
  List.all_eq_true.mp (by decide +kernel)

/-- Cut a list into parts of the given size. -/
def parts {α : Type} (size : Nat) : (count : Nat) → List α → List (List α)
  | 0, l => [l]
  | count + 1, l => l.take size :: parts size count (l.drop size)

theorem flatten_parts {α : Type} (size count : Nat) (l : List α) :
    (parts size count l).flatten = l := by
  induction count generalizing l with
  | zero => simp [parts]
  | succ count ih => simp [parts, ih]

theorem capitalRuns_misses : ∀ run ∈ capitalRuns, ∀ other ∈ capitalRuns, run.misses other := by
  -- The long table is in ascending order, so its parts lie in short stretches.
  have checked : (parts 14 14 upperRuns ++ [recentUpperRuns]).all fun others =>
      let first := (others.head?.map (·.first)).getD 0
      let last := (others.getLast?.map (·.last)).getD 0
      (others.all fun other => first.ble other.first && other.last.ble last) &&
        capitalRuns.all fun run => run.missesAll others first last := by
    decide +kernel
  have whole : capitalRuns = (parts 14 14 upperRuns ++ [recentUpperRuns]).flatten := by
    simp [capitalRuns, flatten_parts]
  intro run member other member'
  rw [whole, List.mem_flatten] at member'
  obtain ⟨others, part, member'⟩ := member'
  obtain ⟨lies, misses⟩ := Bool.and_eq_true_iff.mp (List.all_eq_true.mp checked others part)
  exact CaseRun.misses_of_missesAll lies (List.all_eq_true.mp misses run member) member'

/-- A character that is in no run is a capital letter or has none. -/
theorem upperChar_of_not_contains {c : Char}
    (fixed : ∀ run ∈ capitalRuns, ¬ run.contains c.toNat) : upperChar c = c := by
  unfold upperChar
  split
  · have other : ¬ (c.val ≥ 'a'.val ∧ c.val ≤ 'z'.val) := by
      rintro ⟨low, high⟩
      refine fixed ⟨0x61, 0x7a, 1, -32⟩ (List.mem_cons_self ..) (CaseRun.contains_iff.mpr ?_)
      exact ⟨UInt32.le_iff_toNat_le.mp low, UInt32.le_iff_toNat_le.mp high, Nat.mod_one _⟩
    exact dif_neg other
  · have none : (upperRuns ++ recentUpperRuns).find? (·.contains c.toNat) = none :=
      List.find?_eq_none.mpr fixed
    rw [shiftCase, none]

/-- A run moves its members to characters that stay as they are. -/
theorem upperChar_shifted {run : CaseRun} (listed : run ∈ capitalRuns) {n : Nat}
    (member : run.contains n) :
    upperChar (Char.ofNat (n + run.shift).toNat) = Char.ofNat (n + run.shift).toNat := by
  have inside := capitalRuns_inside run listed
  obtain ⟨low, high, -⟩ := CaseRun.contains_iff.mp member
  rw [CaseRun.shifted inside member]
  simp only [CaseRun.inside, Bool.and_eq_true, Bool.or_eq_true, Nat.blt_eq] at inside
  have valid : (run.target + (n - run.first)).isValidChar := by
    unfold Nat.isValidChar
    omega
  have number : (Char.ofNat (run.target + (n - run.first))).toNat =
      run.target + (n - run.first) := by
    rw [Char.ofNat, dif_pos valid]
    rfl
  refine upperChar_of_not_contains fun other listed' => ?_
  rw [number]
  exact CaseRun.not_contains_of_misses (capitalRuns_misses run listed other listed') member

theorem upperChar_upperChar (c : Char) : upperChar (upperChar c) = upperChar c := by
  by_cases ascii : isAscii c
  · have all : ∀ n < 0x80, upperChar (upperChar (Char.ofNat n)) = upperChar (Char.ofNat n) := by
      decide +kernel
    simpa using all c.toNat (by simpa [isAscii] using ascii)
  have moved : upperChar c = shiftCase capitalRuns c := by
    rw [upperChar, if_neg ascii, capitalRuns]
  rw [moved, shiftCase]
  split
  · rename_i run found
    exact upperChar_shifted (List.mem_of_find?_eq_some found)
      (List.find?_eq_some_iff_append.mp found).1
  · rename_i none
    exact upperChar_of_not_contains (List.find?_eq_none.mp none)

theorem upper_upper (s : String) : upper (upper s) = upper s := by
  simp [upper, Function.comp_def, upperChar_upperChar]

theorem upper_of_forall {s : String} (fixed : ∀ c ∈ s.toList, upperChar c = c) : upper s = s := by
  rw [upper, List.map_congr_left fixed, List.map_id', String.ofList_toList]

/-- No capital form of an ASCII character is longer. -/
theorem upperFully_of_ascii {s : String} (ascii : ∀ c ∈ s.toList, isAscii c) :
    upperFully s = upper s := by
  have single : s.toList.map capitals = s.toList.map fun c => [upperChar c] :=
    List.map_congr_left fun c member => by
      rw [capitals, upperChar, if_pos (ascii c member), if_pos (ascii c member)]
  rw [upperFully, upper, List.flatMap_def, single, ← List.flatMap_def, List.map_eq_flatMap]

/-- A text is in capital letters if it has been capitalized. -/
theorem upper_eq_self_iff {s : String} : upper s = s ↔ ∃ given, s = upper given :=
  ⟨fun same => ⟨s, same.symm⟩, by rintro ⟨given, rfl⟩; exact upper_upper given⟩

end Pushdown.Text
