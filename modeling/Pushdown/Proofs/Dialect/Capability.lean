import Pushdown.Dialect.Builtin

/-!
# What the built-in dialects have

Taking capabilities out of a set leaves the others in it. So whatever no version of a database
lacks, its dialect has, no matter what the notes say.
-/

namespace Pushdown

namespace CapabilitySet

theorem bit_and_erase (word : BitVec 64) {m n : Nat} (other : m ≠ n) :
    (word &&& ~~~ bit n) &&& bit m = word &&& bit m := by
  ext i bound
  simp [bit]
  grind

theorem has_eraseAll {s : CapabilitySet} {numbers : List Nat} {c : Capability}
    (kept : c.number ∉ numbers) : (s.eraseAll numbers).has c = s.has c := by
  unfold eraseAll
  induction numbers generalizing s with
  | nil => rfl
  | cons n numbers ih =>
    rw [List.mem_cons, not_or] at kept
    rw [List.foldl_cons, ih kept.2]
    simp only [has, hasNumber, bit_and_erase _ kept.1]

theorem has_without {s : CapabilitySet} {cs : List Capability} {c : Capability}
    (kept : c.number ∉ cs.map (·.number)) : (s.without cs).has c = s.has c := has_eraseAll kept

theorem bit_and_erase_self (word : BitVec 64) (n : Nat) : (word &&& ~~~ bit n) &&& bit n = 0 := by
  rw [BitVec.and_assoc, BitVec.and_comm (~~~ bit n), BitVec.and_not_self]
  exact BitVec.and_zero

theorem has_eraseAll_of_mem {s : CapabilitySet} {numbers : List Nat} {c : Capability}
    (erased : c.number ∈ numbers) : (s.eraseAll numbers).has c = false := by
  unfold eraseAll
  induction numbers generalizing s with
  | nil => contradiction
  | cons n numbers ih =>
    rw [List.foldl_cons]
    by_cases later : c.number ∈ numbers
    · exact ih later
    · have kept := has_eraseAll (s := ⟨s.bits &&& ~~~ bit n⟩) later
      obtain rfl : c.number = n := (List.mem_cons.mp erased).resolve_right later
      rw [eraseAll] at kept
      rw [kept, has, hasNumber, bit_and_erase_self]
      simp

/-- The fewer capabilities are taken out, the more are left. -/
theorem has_without_mono {s : CapabilitySet} {cs ds : List Capability} (fewer : ds ⊆ cs)
    {c : Capability} (has : (s.without cs).has c) : (s.without ds).has c := by
  have kept : c.number ∉ cs.map (·.number) := by
    intro erased
    rw [without, has_eraseAll_of_mem erased] at has
    contradiction
  rw [has_without kept] at has
  rwa [has_without fun erased => kept (List.map_subset _ fewer erased)]

end CapabilitySet

namespace Builtin

/-- The capabilities that depend on the version of the database. -/
def versioned : Builtin → List Capability
  | mySql => [.windowFunctions]
  | oracle => [.limit, .limitWithOffset]
  | sqlite => sqliteReleases.flatMap (·.2)
  | _ => []

/-- The notes decide only about capabilities that depend on the version. -/
theorem has_eq (b : Builtin) (notes : Notes) {c : Capability}
    (fixed : c.number ∉ b.versioned.map (·.number)) :
    (b.build notes).has c = (b.build {}).has c := by
  have kept {cs : List Capability} (known : ∀ a ∈ cs, a ∈ b.versioned) :
      c.number ∉ cs.map (·.number) := fun listed => fixed (List.map_subset _ known listed)
  have same (s : CapabilitySet) {cs ds : List Capability} (known : ∀ a ∈ cs, a ∈ b.versioned)
      (other : ∀ a ∈ ds, a ∈ b.versioned) : (s.without cs).has c = (s.without ds).has c := by
    rw [CapabilitySet.has_without (kept known), CapabilitySet.has_without (kept other)]
  cases b with
  | mySql | oracle =>
    refine same _ ?_ ?_
    all_goals
      intro a member
      split at member
      · contradiction
      · exact member
  | sqlite =>
    refine same _ ?_ ?_
    all_goals
      intro a member
      obtain ⟨release, listed, inside⟩ := List.mem_flatMap.mp member
      exact List.mem_flatMap.mpr ⟨release, (List.mem_filter.mp listed).1, inside⟩
  | bigQuery | exasol | generic | postgreSql | sqlServer =>
    simp only [Dialect.has, Profile.has, build, genericProfile]

/-- Every database has a CASE with a basis. -/
theorem has_simpleCase (b : Builtin) (notes : Notes) : (b.build notes).has .simpleCase := by
  rw [b.has_eq notes (by cases b <;> decide)]
  cases b <;> decide +kernel

/-- Two databases have no truth values. -/
theorem has_booleanLiterals_iff (b : Builtin) (notes : Notes) :
    (b.build notes).has .booleanLiterals ↔ b ≠ .sqlServer ∧ b ≠ .oracle := by
  rw [b.has_eq notes (by cases b <;> decide)]
  cases b <;> decide +kernel

end Builtin

end Pushdown
