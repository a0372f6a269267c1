import Pushdown.Proofs.Syntax.Logic
import Pushdown.Proofs.Syntax.WellFormed

/-!
# The truth of conditions over truth values

Conditions whose values are truth values themselves have a truth of their own, given that of their
columns. Truth values are compared with FALSE before TRUE, and a comparison with an unknown value is
unknown.

Databases without truth values have numbers in their place: 1, 0 and NULL. Numbers compare as the
truth values do that they stand for.
-/

namespace Pushdown

/-- Compare two values, either of which may be unknown. -/
def ComparisonOp.compare {α : Type} [DecidableEq α] [LT α] [LE α] [DecidableLT α] [DecidableLE α]
    (op : ComparisonOp) (x y : Option α) : Truth :=
  match x, y with
  | some a, some b =>
    match op with
    | equal => some (a = b)
    | notEqual => some (a ≠ b)
    | less => some (a < b)
    | lessEqual => some (a ≤ b)
    | greater => some (b < a)
    | greaterEqual => some (b ≤ a)
    | other _ => none
  | _, _ => none

/-- The number that stands for a truth value. -/
def Truth.code (t : Truth) : Option Int := t.map fun b => if b then 1 else 0

/-- Numbers compare as the truth values do that they stand for. -/
theorem Truth.compare_code (op : ComparisonOp) (s t : Truth) :
    op.compare s.code t.code = op.compare s t := by
  rcases s with _ | _ | _ <;> rcases t with _ | _ | _ <;> cases op <;> rfl

theorem Truth.isNone_code (t : Truth) : t.code.isNone = t.isNone := by
  simp [code]

theorem Truth.isSome_code (t : Truth) : t.code.isSome = t.isSome := by
  simp [code]

/-- A truth value is what its number says about being 1. -/
theorem Truth.compare_one (t : Truth) :
    ComparisonOp.equal.compare t.code (Truth.code (some true)) = t := by
  rcases t with _ | _ | _ <;> rfl

namespace Node

/-- The truth of a condition over truth values, given that of its columns. -/
def truth (ρ : Column → Truth) (n : Node) : Truth :=
  match n with
  | .column c => ρ c
  | .literal l => if l.type = .bool then some (l.value = "true") else none
  | .and operands => Truth.all (operands.map fun o => o.truth ρ)
  | .or operands => Truth.any (operands.map fun o => o.truth ρ)
  | .not operand => (operand.truth ρ).map (! ·)
  | .comparison op left right => op.compare (left.truth ρ) (right.truth ρ)
  | .between expr low high =>
    Truth.all [ComparisonOp.greaterEqual.compare (expr.truth ρ) (low.truth ρ),
      ComparisonOp.lessEqual.compare (expr.truth ρ) (high.truth ρ)]
  | .inList expr values =>
    Truth.any (values.map fun v => ComparisonOp.equal.compare (expr.truth ρ) (v.truth ρ))
  | .isNull expr => some (expr.truth ρ).isNone
  | .isNotNull expr => some (expr.truth ρ).isSome
  | _ => none
termination_by sizeOf n
decreasing_by all_goals exact Node.sizeOf_lt_of_mem_children (by simp_all [Node.children])

/-- Only the columns in the tree matter. -/
theorem truth_congr {ρ τ : Column → Truth} {n : Node}
    (same : ∀ c, .column c ∈ n.nodes → ρ c = τ c) : n.truth ρ = n.truth τ := by
  induction n using Node.induction with
  | step n ih =>
    have below : ∀ o ∈ n.children, o.truth ρ = o.truth τ := fun o child =>
      ih o child fun c member => same c (mem_nodes_of_mem_children child member)
    cases n with
    | column c =>
      rw [truth, truth]
      exact same c (mem_nodes_self _)
    | and operands | or operands =>
      have each : ∀ o ∈ operands, o.truth ρ = o.truth τ := below
      rw [truth, truth, List.map_congr_left each]
    | inList expr values =>
      have each : ∀ v ∈ values, v.truth ρ = v.truth τ := fun v member =>
        below v (by simp [children, member])
      rw [truth, truth, below expr (by simp [children])]
      exact congrArg Truth.any (List.map_congr_left fun v member => by rw [each v member])
    | not operand | isNull operand | isNotNull operand =>
      rw [truth, truth, below operand (by simp [children])]
    | comparison op left right =>
      rw [truth, truth, below left (by simp [children]), below right (by simp [children])]
    | between expr low high =>
      rw [truth, truth, below expr (by simp [children]), below low (by simp [children]),
        below high (by simp [children])]
    | _ => simp only [truth]

/-- Whether the node is a NULL constant. -/
def isNullLiteral : Node → Bool
  | .literal l => l.type = .null
  | _ => false

/-- A condition over boolean columns and constants. Where a condition is expected, a NULL constant
does not stand. -/
inductive IsBoolean : Node → Prop where
  | column {c : Column} (type : c.type.kind = .boolean) : IsBoolean (.column c)
  | literal {l : Literal} (type : l.type = .bool) : IsBoolean (.literal l)
  | null {l : Literal} (type : l.type = .null) : IsBoolean (.literal l)
  | and {operands : List Node} (each : ∀ o ∈ operands, IsBoolean o)
      (proper : ∀ o ∈ operands, o.isNullLiteral = false) : IsBoolean (.and operands)
  | or {operands : List Node} (each : ∀ o ∈ operands, IsBoolean o)
      (proper : ∀ o ∈ operands, o.isNullLiteral = false) : IsBoolean (.or operands)
  | not {operand : Node} (each : IsBoolean operand) (proper : operand.isNullLiteral = false) :
      IsBoolean (.not operand)
  | comparison {op : ComparisonOp} {left right : Node} (hl : IsBoolean left)
      (hr : IsBoolean right) : IsBoolean (.comparison op left right)
  | between {expr low high : Node} (he : IsBoolean expr) (hl : IsBoolean low)
      (hh : IsBoolean high) : IsBoolean (.between expr low high)
  | inList {expr : Node} {values : List Node} (he : IsBoolean expr)
      (each : ∀ v ∈ values, IsBoolean v) : IsBoolean (.inList expr values)
  | isNull {expr : Node} (he : IsBoolean expr) : IsBoolean (.isNull expr)
  | isNotNull {expr : Node} (he : IsBoolean expr) : IsBoolean (.isNotNull expr)

end Node

end Pushdown
