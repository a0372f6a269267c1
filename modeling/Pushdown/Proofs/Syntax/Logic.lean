/-!
# Logical connectives

Trees of NOT, AND and OR over leaves of any kind, with what they come to once the connectives are
given a meaning. One such meaning is three-valued truth, in which a condition may be unknown.

A conjunction or disjunction of a single operand says nothing and can be left out; no truth value
depends on it.
-/

namespace Pushdown

/-- What the connectives mean. -/
structure Connectives (α : Type) where
  not : α → α
  and : List α → α
  or : List α → α

namespace Connectives

variable {α : Type}

/-- A connective that vanishes if it has one operand only. -/
def joined (combine : List α → α) : List α → α
  | [one] => one
  | many => combine many

/-- The connectives of which those with one operand vanish. -/
def joining (c : Connectives α) : Connectives α := ⟨c.not, joined c.and, joined c.or⟩

theorem joined_of_single {combine : List α → α} (single : ∀ a, combine [a] = a) :
    joined combine = combine := by
  funext as
  rcases as with _ | ⟨a, _ | ⟨b, as⟩⟩
  · rfl
  · exact (single a).symm
  · rfl

/-- A function that is compatible with a connective is so if single operands vanish. -/
theorem joined_map {β : Type} (f : α → β) (combine : List α → α) (combine' : List β → β)
    (compatible : ∀ as, f (combine as) = combine' (as.map f)) (as : List α) :
    f (joined combine as) = joined combine' (as.map f) := by
  rcases as with _ | ⟨a, _ | ⟨b, as⟩⟩
  · exact compatible []
  · rfl
  · exact compatible (a :: b :: as)

end Connectives

/-! ## Three-valued truth -/

/-- A truth value, or nothing where the truth is unknown. -/
abbrev Truth := Option Bool

namespace Truth

/-- A conjunction is false if an operand is, and else unknown if an operand is. -/
def all (ts : List Truth) : Truth :=
  if some false ∈ ts then some false else if none ∈ ts then none else some true

/-- A disjunction is true if an operand is, and else unknown if an operand is. -/
def any (ts : List Truth) : Truth :=
  if some true ∈ ts then some true else if none ∈ ts then none else some false

def connectives : Connectives Truth := ⟨Option.map (! ·), all, any⟩

theorem all_singleton : ∀ t, all [t] = t := by rintro (_ | _ | _) <;> decide

theorem any_singleton : ∀ t, any [t] = t := by rintro (_ | _ | _) <;> decide

/-- A single operand decides by itself. -/
theorem connectives_joining : connectives.joining = connectives := by
  rw [Connectives.joining, connectives, Connectives.joined_of_single all_singleton,
    Connectives.joined_of_single any_singleton]

end Truth

/-! ## Trees of connectives -/

/-- A tree of connectives. -/
inductive Logic (α : Type) where
  | leaf (a : α)
  | not (operand : Logic α)
  | and (operands : List (Logic α))
  | or (operands : List (Logic α))
deriving Inhabited

namespace Logic

variable {α β : Type}

/-- What a tree comes to. -/
def eval (c : Connectives β) (v : α → β) : Logic α → β
  | leaf a => v a
  | not operand => c.not (operand.eval c v)
  | and operands => c.and (operands.map fun o => o.eval c v)
  | or operands => c.or (operands.map fun o => o.eval c v)

def leaves : Logic α → List α
  | leaf a => [a]
  | not operand => operand.leaves
  | and operands | or operands => operands.flatMap fun o => o.leaves

@[elab_as_elim]
theorem induction {P : Logic α → Prop} (leaf : ∀ a, P (.leaf a))
    (not : ∀ operand, P operand → P (.not operand))
    (and : ∀ operands, (∀ o ∈ operands, P o) → P (.and operands))
    (or : ∀ operands, (∀ o ∈ operands, P o) → P (.or operands)) : ∀ l, P l
  | .leaf a => leaf a
  | .not operand => not operand (induction leaf not and or operand)
  | .and operands => and operands fun o _ => induction leaf not and or o
  | .or operands => or operands fun o _ => induction leaf not and or o

/-- The trees themselves as a meaning of the connectives. -/
def connectives : Connectives (Logic α) := ⟨.not, .and, .or⟩

/-- The same tree over other leaves. -/
def map (f : α → β) (l : Logic α) : Logic β := l.eval connectives fun a => .leaf (f a)

/-- The tree without the conjunctions and disjunctions of a single operand. -/
def collapse (l : Logic α) : Logic α := l.eval connectives.joining .leaf

/-- The truth of a tree, given that of its leaves. -/
def truth (v : α → Truth) (l : Logic α) : Truth := l.eval Truth.connectives v

theorem eval_congr {c : Connectives β} {v w : α → β} {l : Logic α}
    (same : ∀ a ∈ l.leaves, v a = w a) : l.eval c v = l.eval c w := by
  induction l using induction with
  | leaf a => simpa [eval, leaves] using same
  | not operand ih =>
    rw [eval, eval, ih (by simpa [leaves] using same)]
  | and operands ih | or operands ih =>
    have each : ∀ o ∈ operands, o.eval c v = o.eval c w := fun o member =>
      ih o member fun a inside => same a (by
        rw [leaves, List.mem_flatMap]
        exact ⟨o, member, inside⟩)
    rw [eval, eval, List.map_congr_left each]

/-- Whatever the connectives mean, the collapsed tree comes to what the tree comes to if single
operands vanish. -/
theorem eval_collapse (c : Connectives β) (v : α → β) (l : Logic α) :
    l.collapse.eval c v = l.eval c.joining v := by
  unfold collapse
  induction l using induction with
  | leaf a => simp [eval]
  | not operand ih =>
    rw [eval, eval, ← ih]
    exact eval.eq_2 c v _
  | and operands ih =>
    have joined := Connectives.joined_map (eval c v) .and c.and (fun as => by rw [eval])
      (operands.map fun o => o.eval connectives.joining .leaf)
    simp only [eval, ← List.map_congr_left ih]
    rw [List.map_map] at joined
    exact joined
  | or operands ih =>
    have joined := Connectives.joined_map (eval c v) .or c.or (fun as => by rw [eval])
      (operands.map fun o => o.eval connectives.joining .leaf)
    simp only [eval, ← List.map_congr_left ih]
    rw [List.map_map] at joined
    exact joined

/-- Single operands make no difference to the truth. -/
theorem truth_collapse (v : α → Truth) (l : Logic α) : l.collapse.truth v = l.truth v := by
  rw [truth, eval_collapse, Truth.connectives_joining, truth]

theorem truth_map (v : β → Truth) (f : α → β) (l : Logic α) :
    (l.map f).truth v = l.truth (v ∘ f) := by
  unfold map truth
  induction l using induction with
  | leaf a => simp [eval]
  | not operand ih =>
    simp only [eval, ← ih, connectives]
  | and operands ih | or operands ih =>
    simp only [eval, ← List.map_congr_left ih, connectives, List.map_map]
    rfl

theorem leaves_eq_eval (l : Logic α) :
    l.leaves = l.eval ⟨id, List.flatten, List.flatten⟩ fun a => [a] := by
  induction l using induction with
  | leaf a => simp [leaves, eval]
  | not operand ih =>
    rw [leaves, eval, ih]
    rfl
  | and operands ih | or operands ih =>
    rw [leaves, eval, List.flatMap_def, List.map_congr_left ih]

theorem leaves_collapse (l : Logic α) : l.collapse.leaves = l.leaves := by
  have single : Connectives.joined List.flatten = (List.flatten : List (List α) → List α) :=
    Connectives.joined_of_single fun as => by simp
  rw [leaves_eq_eval, eval_collapse, Connectives.joining, single, ← leaves_eq_eval]

theorem leaves_map (f : α → β) (l : Logic α) : (l.map f).leaves = l.leaves.map f := by
  unfold map
  induction l using induction with
  | leaf a => simp [eval, leaves]
  | not operand ih => simp only [eval, connectives, leaves, ← ih]
  | and operands ih | or operands ih =>
    simp only [eval, connectives, leaves, List.flatMap_map, List.map_flatMap]
    rw [List.flatMap_def, List.flatMap_def]
    exact congrArg List.flatten (List.map_congr_left ih)

end Logic

end Pushdown
