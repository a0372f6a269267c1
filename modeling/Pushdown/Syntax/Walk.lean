import Pushdown.Syntax.Node

/-!
# Walking a syntax tree

Every child is smaller than its parent, so a property that passes from all children of a node
to the node holds of every tree (`Node.induction`), and a walk from the root down ends.
-/

namespace Pushdown.Node

theorem sizeOf_toList_lt {α : Type} [SizeOf α] {a : α} {o : Option α} (h : a ∈ o.toList) :
    sizeOf a < sizeOf o := by
  cases o with
  | none => simp at h
  | some b => simp at h; subst h; simp

theorem sizeOf_key_lt {a : Node} {keys : List (SortKey Node)} (h : a ∈ keys.map (·.expr)) :
    sizeOf a < sizeOf keys := by
  obtain ⟨key, member, rfl⟩ := List.mem_map.mp h
  have := List.sizeOf_lt_of_mem member
  cases key
  simp at this ⊢
  omega

theorem sizeOf_item_lt {a : Node} {items : List (SelectItem Node)}
    (h : a ∈ items.map (·.expr)) : sizeOf a < sizeOf items := by
  obtain ⟨item, member, rfl⟩ := List.mem_map.mp h
  have := List.sizeOf_lt_of_mem member
  cases item
  simp at this ⊢
  omega

theorem sizeOf_branch_lt {a : Node} {branches : List (Branch Node)}
    (h : a ∈ branches.flatMap fun b => [b.condition, b.result]) : sizeOf a < sizeOf branches := by
  obtain ⟨branch, member, part⟩ := List.mem_flatMap.mp h
  have := List.sizeOf_lt_of_mem member
  cases branch
  simp at this part
  rcases part with rfl | rfl <;> omega

/-- A child is smaller than its parent. -/
theorem sizeOf_lt_of_mem_children {c n : Node} (h : c ∈ n.children) : sizeOf c < sizeOf n := by
  cases n with
  | select s =>
    rcases s with ⟨list, source, filter, grouping, having, order, limit, aggregation⟩
    simp only [children, List.mem_cons, List.mem_append, Option.mem_toList,
      Option.map_eq_some_iff] at h
    rcases h with rfl | (((((h | h) | ⟨_, h, rfl⟩) | h) | ⟨_, h, rfl⟩) | ⟨_, h, rfl⟩) <;>
      (try subst h) <;> simp <;> omega
  | selectList l =>
    rcases l with ⟨star, items⟩
    have : sizeOf c < sizeOf items := sizeOf_item_lt h
    simp
    omega
  | and operands | or operands | groupBy operands | function _ operands =>
    have : sizeOf c < sizeOf operands := List.sizeOf_lt_of_mem h
    simp
    omega
  | orderBy keys =>
    have := sizeOf_key_lt h
    simp
    omega
  | inList expr values =>
    simp only [children, List.mem_cons] at h
    rcases h with rfl | h
    · simp
      omega
    · have := List.sizeOf_lt_of_mem h
      simp
      omega
  | like expr pattern escape =>
    simp only [children, List.mem_cons] at h
    rcases h with rfl | rfl | h
    · simp
      omega
    · simp
      omega
    · have := sizeOf_toList_lt h
      simp
      omega
  | case basis branches otherwise =>
    simp only [children, List.mem_append] at h
    rcases h with (h | h) | h
    · have := sizeOf_toList_lt h
      simp
      omega
    · have := sizeOf_branch_lt h
      simp
      omega
    · have := sizeOf_toList_lt h
      simp
      omega
  | aggregate name distinct args filter =>
    simp only [children, List.mem_append] at h
    rcases h with h | h
    · have := List.sizeOf_lt_of_mem h
      simp
      omega
    · have := sizeOf_toList_lt h
      simp
      omega
  | groupConcat arg distinct order separator =>
    simp only [children, List.mem_cons, Option.mem_toList, Option.map_eq_some_iff] at h
    rcases h with rfl | ⟨keys, rfl, rfl⟩ <;> simp <;> omega
  | window name args partition order frame =>
    simp only [children, List.mem_append, Option.mem_toList, Option.map_eq_some_iff] at h
    rcases h with (h | h) | ⟨keys, rfl, rfl⟩
    · have := List.sizeOf_lt_of_mem h
      simp
      omega
    · have := List.sizeOf_lt_of_mem h
      simp
      omega
    · simp
      omega
  | join type left right condition =>
    simp only [children, List.mem_cons, List.not_mem_nil, or_false] at h
    rcases h with rfl | rfl | rfl <;> simp <;> omega
  | between expr low high =>
    simp only [children, List.mem_cons, List.not_mem_nil, or_false] at h
    rcases h with rfl | rfl | rfl <;> simp <;> omega
  | comparison op left right | regexpLike left right =>
    simp only [children, List.mem_cons, List.not_mem_nil, or_false] at h
    rcases h with rfl | rfl <;> simp only [comparison.sizeOf_spec, regexpLike.sizeOf_spec] <;> omega
  | inSubquery expr s =>
    simp only [children, List.mem_cons, List.not_mem_nil, or_false] at h
    rcases h with rfl | rfl
    · simp
      omega
    · have : sizeOf expr ≠ 0 := by cases expr <;> simp
      simp
      omega
  | subSelect s aliasName =>
    simp only [children, List.mem_singleton] at h
    have : sizeOf aliasName ≠ 0 := by cases aliasName; simp
    subst h
    simp
    omega
  | not operand | isNull operand | isNotNull operand | extract _ operand | cast operand _ =>
    simp only [children, List.mem_singleton] at h
    subst h
    simp <;> omega
  | table _ | column _ | literal _ | limit _ => simp [children] at h

theorem condition_mem_children {basis otherwise : Option Node} {branches : List (Branch Node)}
    {b : Branch Node} (h : b ∈ branches) :
    b.condition ∈ (Node.case basis branches otherwise).children := by
  simp only [children, List.mem_append, List.mem_flatMap]
  exact .inl (.inr ⟨b, h, by simp⟩)

theorem result_mem_children {basis otherwise : Option Node} {branches : List (Branch Node)}
    {b : Branch Node} (h : b ∈ branches) :
    b.result ∈ (Node.case basis branches otherwise).children := by
  simp only [children, List.mem_append, List.mem_flatMap]
  exact .inl (.inr ⟨b, h, by simp⟩)

/-- A property that passes from the children of a node to the node holds of every tree. -/
theorem induction {motive : Node → Prop}
    (step : ∀ n, (∀ c ∈ n.children, motive c) → motive n) (n : Node) : motive n :=
  step n fun c _ => induction step c
termination_by sizeOf n
decreasing_by exact sizeOf_lt_of_mem_children ‹_›

/-- The nodes of a tree from the root down, without what stands below a node that `descend`
refuses. -/
def walk (descend : Node → Bool) (n : Node) : List Node :=
  n :: if descend n then n.children.attach.flatMap fun ⟨c, _⟩ => walk descend c else []
termination_by sizeOf n
decreasing_by exact sizeOf_lt_of_mem_children ‹_›

theorem walk_eq (descend : Node → Bool) (n : Node) :
    n.walk descend = n :: if descend n then n.children.flatMap (walk descend) else [] := by
  rw [walk]
  simp [List.flatMap_def]

/-- All nodes of a tree from the root down. -/
def nodes (n : Node) : List Node := n.walk fun _ => true

end Pushdown.Node
