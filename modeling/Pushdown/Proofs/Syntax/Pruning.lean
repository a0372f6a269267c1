import Mathlib.Data.List.Pairwise
import Mathlib.Data.Prod.Lex
import Mathlib.Tactic.Choose
import Pushdown.Proofs.Syntax.Scoping

/-!
# What a walk comes to

A position in a tree is the list of the fields that lead to it from the root. A walk with a predicate
comes to every position once, in the order in which the fields of nodes are evaluated, unless the
predicate refuses a node above the position. The columns that a join checks are those of such a walk
through its condition.
-/

namespace Pushdown

/-- A field of a node that holds another node. -/
inductive Field where
  | list | source | filter | grouping | having | order | limit
  | item (index : Nat) | operand (index : Nat) | argument (index : Nat) | partition (index : Nat)
  | value (index : Nat) | key (index : Nat)
  | left | right | condition | statement
  | subject | pattern | escape | low | high
  | basis | branchCondition (index : Nat) | branchResult (index : Nat) | otherwise

namespace Field

/-- The place of the field among those of its node, and then that in its list. -/
def place : Field → Nat × Nat
  | list | left | subject | basis => (0, 0)
  | item i | operand i | argument i | key i => (0, i)
  | source | right | statement | pattern | low => (1, 0)
  | value i | partition i => (1, i)
  | branchCondition i => (1, 2 * i)
  | branchResult i => (1, 2 * i + 1)
  | filter | condition | escape | high | otherwise => (2, 0)
  | grouping => (3, 0)
  | having => (4, 0)
  | order => (5, 0)
  | limit => (6, 0)

/-- The field is evaluated before the other one. -/
def Before (f g : Field) : Prop := Prod.Lex (· < ·) (· < ·) f.place g.place

end Field

namespace Node

/-! ## Fields -/

/-- What the field of a node holds. -/
def field? : Node → Field → Option Node
  | select s => fun
    | .list => some (selectList s.list)
    | .source => s.source
    | .filter => s.filter
    | .grouping => s.grouping.map groupBy
    | .having => s.having
    | .order => s.order.map orderBy
    | .limit => s.limit.map limit
    | _ => none
  | selectList l => fun
    | .item i => l.items[i]?.map (·.expr)
    | _ => none
  | join _ left right condition => fun
    | .left => some left
    | .right => some right
    | .condition => some condition
    | _ => none
  | subSelect s _ => fun
    | .statement => some (select s)
    | _ => none
  | and operands | or operands | groupBy operands => fun
    | .operand i => operands[i]?
    | _ => none
  | not operand | isNull operand | isNotNull operand | extract _ operand | cast operand _ => fun
    | .subject => some operand
    | _ => none
  | comparison _ left right => fun
    | .left => some left
    | .right => some right
    | _ => none
  | like expr pattern escape => fun
    | .subject => some expr
    | .pattern => some pattern
    | .escape => escape
    | _ => none
  | regexpLike expr pattern => fun
    | .subject => some expr
    | .pattern => some pattern
    | _ => none
  | between expr low high => fun
    | .subject => some expr
    | .low => some low
    | .high => some high
    | _ => none
  | inList expr values => fun
    | .subject => some expr
    | .value i => values[i]?
    | _ => none
  | inSubquery expr s => fun
    | .subject => some expr
    | .statement => some (select s)
    | _ => none
  | function _ args => fun
    | .argument i => args[i]?
    | _ => none
  | case basis branches otherwise => fun
    | .basis => basis
    | .branchCondition i => branches[i]?.map (·.condition)
    | .branchResult i => branches[i]?.map (·.result)
    | .otherwise => otherwise
    | _ => none
  | aggregate _ _ args filter => fun
    | .argument i => args[i]?
    | .filter => filter
    | _ => none
  | groupConcat arg _ order _ => fun
    | .subject => some arg
    | .order => order.map orderBy
    | _ => none
  | window _ args partition order _ => fun
    | .argument i => args[i]?
    | .partition i => partition[i]?
    | .order => order.map orderBy
    | _ => none
  | orderBy keys => fun
    | .key i => keys[i]?.map (·.expr)
    | _ => none
  | table _ | column _ | literal _ | limit _ => fun _ => none

/-- The fields that a node may have, in the order in which they are evaluated. -/
def slots : Node → List Field
  | select _ => [.list, .source, .filter, .grouping, .having, .order, .limit]
  | selectList l => (List.range l.items.length).map .item
  | join .. => [.left, .right, .condition]
  | subSelect .. => [.statement]
  | and operands | or operands | groupBy operands => (List.range operands.length).map .operand
  | not _ | isNull _ | isNotNull _ | extract .. | cast .. => [.subject]
  | comparison .. => [.left, .right]
  | like .. => [.subject, .pattern, .escape]
  | regexpLike .. => [.subject, .pattern]
  | between .. => [.subject, .low, .high]
  | inList _ values => .subject :: (List.range values.length).map .value
  | inSubquery .. => [.subject, .statement]
  | function _ args => (List.range args.length).map .argument
  | case _ branches _ =>
    .basis :: (List.range branches.length).flatMap (fun i => [.branchCondition i, .branchResult i]) ++
      [.otherwise]
  | aggregate _ _ args _ => (List.range args.length).map .argument ++ [.filter]
  | groupConcat .. => [.subject, .order]
  | window _ args partition _ _ =>
    (List.range args.length).map .argument ++ (List.range partition.length).map .partition ++
      [.order]
  | orderBy keys => (List.range keys.length).map .key
  | table _ | column _ | literal _ | limit _ => []

theorem map_range_getElem? {α : Type} (l : List α) :
    (List.range l.length).map (l[·]?) = l.map some := by
  apply List.ext_getElem
  · simp
  · intro i first second
    simp

/-- The children of a node are what its fields hold. -/
theorem children_eq_filterMap (n : Node) : n.children = n.slots.filterMap n.field? := by
  have each {α : Type} (l : List α) (f : α → Node) :
      (List.range l.length).filterMap (fun i => l[i]?.map f) = l.map f := by
    have held := congrArg (List.filterMap (Option.map f)) (map_range_getElem? l)
    simpa [List.filterMap_map, Function.comp_def] using held
  have all (l : List Node) : (List.range l.length).filterMap (l[·]?) = l := by
    simpa using each l id
  cases n with
  | select s =>
    rcases s with ⟨list, source, filter, grouping, having, order, limit, aggregation⟩
    cases source <;> cases filter <;> cases grouping <;> cases having <;> cases order <;>
      cases limit <;> rfl
  | case basis branches otherwise =>
    have pairs : (List.range branches.length).flatMap (fun i =>
        [Field.branchCondition i, .branchResult i].filterMap
          (Node.case basis branches otherwise).field?) =
        branches.flatMap fun b => [b.condition, b.result] := by
      have held := congrArg (List.flatMap fun o : Option (Branch Node) =>
        [o.map (·.condition), o.map (·.result)].filterMap id) (map_range_getElem? branches)
      simpa [List.flatMap_map, field?, List.filterMap_cons] using held
    rw [children, ← pairs]
    cases basis <;> cases otherwise <;>
      simp [slots, field?, List.filterMap_flatMap, List.filterMap_cons]
  | like expr pattern escape => cases escape <;> rfl
  | groupConcat arg distinct order separator => cases order <;> rfl
  | aggregate name distinct args filter =>
    cases filter <;> simp [children, slots, field?, List.filterMap_map, all]
  | window name args partition order frame =>
    cases order <;> simp [children, slots, field?, List.filterMap_map, all]
  | _ => simp [children, slots, field?, List.filterMap_map, all, each]

/-- No other field holds anything. -/
theorem mem_slots {n c : Node} {f : Field} (held : n.field? f = some c) : f ∈ n.slots := by
  cases n <;> cases f <;> simp_all [field?, slots]
  all_goals grind

theorem slots_pairwise (n : Node) : n.slots.Pairwise Field.Before := by
  have row (p k : Nat) : ((List.range k).map (p, ·)).Pairwise (Prod.Lex (· < ·) (· < ·)) := by
    rw [List.pairwise_map]
    exact List.pairwise_lt_range.imp fun less => .right _ less
  have places : (n.slots.map Field.place).Pairwise (Prod.Lex (· < ·) (· < ·)) := by
    cases n with
    | case basis branches otherwise =>
      have inner : ((List.range branches.length).flatMap fun i => [(1, 2 * i), (1, 2 * i + 1)]).Pairwise
          (Prod.Lex (· < ·) (· < ·)) := by
        rw [List.pairwise_flatMap]
        constructor
        · simp [Prod.lex_def]
        · apply List.pairwise_lt_range.imp
          intro i j less
          simp [Prod.lex_def]
          omega
      simp [slots, Field.place, List.map_flatMap, inner, List.pairwise_append, Prod.lex_def]
      grind
    | window name args partition order frame =>
      simp [slots, Field.place, Function.comp_def, row, List.pairwise_append, Prod.lex_def]
      grind
    | _ => simp [slots, Field.place, Function.comp_def, row, List.pairwise_append, Prod.lex_def]
  rwa [List.pairwise_map] at places

/-- A node holds its children in its fields, in the order in which they are evaluated. -/
theorem mem_children_iff {c n : Node} : c ∈ n.children ↔ ∃ f, n.field? f = some c := by
  rw [children_eq_filterMap, List.mem_filterMap]
  constructor
  · rintro ⟨f, -, held⟩
    exact ⟨f, held⟩
  · rintro ⟨f, held⟩
    exact ⟨f, mem_slots held, held⟩

/-! ## Positions -/

/-- The node that the fields lead to, one after the other. -/
def at? : Node → List Field → Option Node
  | n, [] => some n
  | n, f :: position => (n.field? f).bind (·.at? position)

/-- The predicate does not refuse any node above the position. -/
def Unrefused (descend : Node → Bool) (n : Node) (position : List Field) : Prop :=
  ∀ above m, above <+: position → above ≠ position → n.at? above = some m → descend m

theorem unrefused_nil (descend : Node → Bool) (n : Node) : n.Unrefused descend [] := by
  intro above m initial proper
  exact absurd (List.prefix_nil.mp initial) proper

theorem unrefused_cons {descend : Node → Bool} {n c : Node} {f : Field} {position : List Field}
    (held : n.field? f = some c) : n.Unrefused descend (f :: position) ↔
      descend n ∧ c.Unrefused descend position := by
  have step (above : List Field) : n.at? (f :: above) = c.at? above := by
    rw [at?, held, Option.bind_some]
  constructor
  · intro unrefused
    constructor
    · exact unrefused [] n (List.nil_prefix ..) (by simp) rfl
    · intro above m initial proper found
      apply unrefused (f :: above) m
      · exact List.cons_prefix_cons.mpr ⟨rfl, initial⟩
      · simpa using proper
      · rw [step, found]
  · rintro ⟨root, below⟩ above m initial proper found
    rcases List.prefix_cons_iff.mp initial with rfl | ⟨rest, rfl, inner⟩
    · obtain rfl : n = m := Option.some.inj found
      exact root
    · rw [step] at found
      exact below rest m inner (by simpa using proper) found

/-- The positions below a node, if those in what its fields hold are given. -/
def through (inner : Node → List (List Field)) (n : Node) : List (List Field) :=
  n.slots.flatMap fun f => (n.field? f).toList.flatMap fun c => (inner c).map (f :: ·)

theorem mem_through {inner : Node → List (List Field)} {n : Node} {f : Field}
    {position : List Field} : f :: position ∈ n.through inner ↔
      ∃ c, n.field? f = some c ∧ position ∈ inner c := by
  simp only [through, List.mem_flatMap, Option.mem_toList, List.mem_map]
  constructor
  · rintro ⟨g, -, c, held, rest, listed, same⟩
    obtain ⟨rfl, rfl⟩ := List.cons.inj same
    exact ⟨c, held, listed⟩
  · rintro ⟨c, held, listed⟩
    exact ⟨f, mem_slots held, c, held, position, listed, rfl⟩

theorem nil_notMem_through (inner : Node → List (List Field)) (n : Node) : [] ∉ n.through inner := by
  simp [through]

theorem through_pairwise {inner : Node → List (List Field)} {n : Node}
    (sorted : ∀ c ∈ n.children, (inner c).Pairwise (List.Lex Field.Before)) :
    (n.through inner).Pairwise (List.Lex Field.Before) := by
  rw [through, List.pairwise_flatMap]
  constructor
  · intro f _
    cases held : n.field? f with
    | none => exact .nil
    | some c =>
      rw [Option.toList_some, List.flatMap_singleton, List.pairwise_map]
      exact (sorted c (mem_children_iff.mpr ⟨f, held⟩)).imp .cons
  · apply n.slots_pairwise.imp
    intro f g before first inFirst second inSecond
    simp only [List.mem_flatMap, List.mem_map] at inFirst inSecond
    obtain ⟨-, -, rest, -, rfl⟩ := inFirst
    obtain ⟨-, -, others, -, rfl⟩ := inSecond
    exact .rel before

theorem map_at?_through {inner : Node → List (List Field)} {list : Node → List Node} {n : Node}
    (below : ∀ c ∈ n.children, (list c).map some = (inner c).map c.at?) :
    (n.children.flatMap list).map some = (n.through inner).map n.at? := by
  rw [children_eq_filterMap, List.filterMap_eq_flatMap_toList, List.flatMap_assoc, through,
    List.map_flatMap, List.map_flatMap]
  apply List.flatMap_congr
  intro f _
  cases held : n.field? f with
  | none => rfl
  | some c =>
    have step : n.at? ∘ (f :: ·) = c.at? := by
      funext position
      rw [Function.comp_apply, at?, held, Option.bind_some]
    rw [Option.toList_some, List.flatMap_singleton, List.flatMap_singleton, List.map_map, step]
    exact below c (mem_children_iff.mpr ⟨f, held⟩)

/-- A walk comes to the positions above which nothing is refused, once each and in the order of
evaluation. -/
theorem walk_visits (descend : Node → Bool) (n : Node) :
    ∃ visited : List (List Field), visited.Pairwise (List.Lex Field.Before) ∧
      (∀ position, position ∈ visited ↔ (n.at? position).isSome ∧ n.Unrefused descend position) ∧
      (n.walk descend).map some = visited.map n.at? := by
  induction n using Node.induction with
  | step n ih =>
    choose! visited sorted member walked using ih
    refine ⟨[] :: if descend n then n.through visited else [], ?_, ?_, ?_⟩
    · rw [List.pairwise_cons]
      constructor
      · intro position inside
        cases position with
        | nil =>
          split at inside
          · exact absurd inside (n.nil_notMem_through visited)
          · contradiction
        | cons f rest => exact .nil
      · split
        · exact through_pairwise sorted
        · exact .nil
    · intro position
      cases position with
      | nil => simp [at?, unrefused_nil]
      | cons f rest =>
        cases held : n.field? f with
        | none =>
          have outside : f :: rest ∉ n.through visited := by simp [mem_through, held]
          split <;> simp [at?, held, outside]
        | some c =>
          have below := member c (mem_children_iff.mpr ⟨f, held⟩) rest
          split
          · rename_i accepted
            simp [mem_through, held, below, at?, unrefused_cons held, accepted]
          · rename_i refused
            simp [unrefused_cons held, refused]
    · rw [walk_eq, List.map_cons, List.map_cons]
      congr 1
      split
      · exact map_at?_through walked
      · rfl

/-- A walk that refuses nothing lists what stands at any position. -/
theorem mem_nodes_iff_at? {m n : Node} : m ∈ n.nodes ↔ ∃ position, n.at? position = some m := by
  obtain ⟨visited, -, member, walked⟩ := n.walk_visits fun _ => true
  have listed : m ∈ n.nodes ↔ some m ∈ visited.map n.at? := by
    rw [← walked, nodes]
    simp
  rw [listed, List.mem_map]
  constructor
  · rintro ⟨position, -, found⟩
    exact ⟨position, found⟩
  · rintro ⟨position, found⟩
    exact ⟨position, (member position).mpr ⟨by rw [found]; rfl, fun _ _ _ _ _ => rfl⟩, found⟩

end Node

/-! ## Conditions of joins -/

namespace Build

/-- The columns that the condition of a join is checked for stand outside of nested statements. -/
def checked (condition : Node) : List Node := condition.walk fun n => n.kind != .select

theorem dangling?_eq_some_iff {names : List String} {condition : Node}
    (formed : condition.WellFormed) {q : String} :
    dangling? names condition = some q ↔
      ∃ before c after, checked condition = before ++ Node.column c :: after ∧ c.qualifier = q ∧
        q ∉ names ∧ ∀ b, .column b ∈ before → b.qualifier ∈ names := by
  have named {c : Column} (member : .column c ∈ checked condition) : c.qualifier ≠ "" :=
    formed.qualifier_ne (Node.mem_nodes_of_mem_walk member)
  rw [dangling?, List.findSome?_eq_some_iff]
  constructor
  · rintro ⟨before, m, after, split, here, earlier⟩
    cases m with
    | column c =>
      simp only [List.contains_iff_mem, Option.ite_none_right_eq_some, Option.some.injEq] at here
      obtain ⟨⟨-, outside⟩, rfl⟩ := here
      refine ⟨before, c, after, split, rfl, outside, ?_⟩
      intro b member
      have inside := earlier _ member
      have nonempty := named (c := b) (by rw [checked, split]; exact List.mem_append_left _ member)
      simpa [nonempty] using inside
    | _ => contradiction
  · rintro ⟨before, c, after, split, rfl, outside, earlier⟩
    refine ⟨before, .column c, after, split, ?_, ?_⟩
    · have nonempty := named (c := c) (by simp [split])
      simp [nonempty, outside]
    · intro m member
      cases m with
      | column b => simp [earlier b member]
      | _ => rfl

theorem dangling?_eq_none_iff {names : List String} {condition : Node}
    (formed : condition.WellFormed) : dangling? names condition = none ↔
      ∀ c, .column c ∈ checked condition → c.qualifier ∈ names := by
  constructor
  · intro none c member
    exact Node.dangling?_eq_none none member
      (formed.qualifier_ne (Node.mem_nodes_of_mem_walk member))
  · intro inside
    cases found : dangling? names condition with
    | none => rfl
    | some q =>
      obtain ⟨before, c, after, split, rfl, outside, -⟩ := (dangling?_eq_some_iff formed).mp found
      exact absurd (inside c (by simp [split])) outside

theorem join_of_items {type : JoinType} {left right : Node} (known : ∀ name, type ≠ .other name)
    (leftItem : left.isFromItem) (rightItem : right.isFromItem) (condition : Node) :
    join type (some left) (some right) (some condition) =
      match dangling? (left.sources ++ right.sources) condition with
      | some table => fail .join (.joinConditionOutside table)
      | none => .ok (.join type left right condition) := by
  cases type with
  | other name => exact absurd rfl (known name)
  | _ => exact if_pos ⟨leftItem, rightItem⟩

end Build

/-- A walk calls its predicate for the positions of a tree above which it refuses nothing, once each
and in the order of evaluation; one that refuses nothing comes to all that is reached through
fields. A join refuses a condition if such a walk, which leaves out nested statements, comes to a
column of a table that neither side introduces, and it names the first. -/
theorem Node.walk_is_pruned_preorder {type : JoinType} {left right condition : Node}
    (known : ∀ name, type ≠ .other name) (leftItem : left.isFromItem)
    (rightItem : right.isFromItem) (formed : condition.WellFormed) (n : Node)
    (descend : Node → Bool) :
    (∃ visited : List (List Field), visited.Pairwise (List.Lex Field.Before) ∧
      (∀ position, position ∈ visited ↔ (n.at? position).isSome ∧ n.Unrefused descend position) ∧
      (n.walk descend).map some = visited.map n.at?) ∧
    (∀ m, m ∈ n.walk (fun _ => true) ↔ ∃ position, n.at? position = some m) ∧
    (∀ q, Build.join type (some left) (some right) (some condition) =
        Build.fail .join (.joinConditionOutside q) ↔
      ∃ before c after, condition.walk (fun m => m.kind != .select) = before ++ .column c :: after ∧
        c.qualifier = q ∧ q ∉ left.sources ++ right.sources ∧
        ∀ b, .column b ∈ before → b.qualifier ∈ left.sources ++ right.sources) ∧
    (Build.join type (some left) (some right) (some condition) =
        .ok (.join type left right condition) ↔
      ∀ c, .column c ∈ condition.walk (fun m => m.kind != .select) →
        c.qualifier ∈ left.sources ++ right.sources) := by
  refine ⟨n.walk_visits descend, fun m => mem_nodes_iff_at?, ?_, ?_⟩
  · intro q
    rw [Build.join_of_items known leftItem rightItem]
    apply Iff.trans _ (Build.dangling?_eq_some_iff formed)
    cases Build.dangling? (left.sources ++ right.sources) condition <;> simp [Build.fail]
  · rw [Build.join_of_items known leftItem rightItem]
    apply Iff.trans _ (Build.dangling?_eq_none_iff formed)
    cases Build.dangling? (left.sources ++ right.sources) condition <;> simp [Build.fail]

theorem Node.join_condition_outside :
    Build.join .inner (some (.table { name := "A" })) (some (.table { name := "B" }))
      (some (.comparison .equal (.column { table := "A", name := "X" })
        (.column { table := "C", name := "Y" }))) =
      Build.fail .join (.joinConditionOutside "C") := by
  let known := Node.column { table := "A", name := "X" }
  let foreign := Node.column { table := "C", name := "Y" }
  have nodes : (Node.comparison .equal known foreign).nodes =
      [.comparison .equal known foreign, known, foreign] := by
    simp [known, foreign, nodes_eq, children]
  have formed : (Node.comparison .equal known foreign).WellFormed := by
    rw [WellFormed, Everywhere, nodes]
    simp [known, foreign, KeepsRules]
  have inner : ∀ name, JoinType.inner ≠ .other name := by simp
  have left : (Node.table { name := "A" }).isFromItem := rfl
  have right : (Node.table { name := "B" }).isFromItem := rfl
  apply ((walk_is_pruned_preorder inner left right formed known fun _ => true).2.2.1 "C").mpr
  refine ⟨[.comparison .equal known foreign, known], { table := "C", name := "Y" }, [], ?_, rfl,
    ?_, ?_⟩
  · simp [known, foreign, walk_eq, children, kind]
  · simp [sources, Table.reference]
  · simp [known, sources, Table.reference, Column.qualifier]

end Pushdown
