import Pushdown.Proofs.Request.Qualification

/-!
# What join conditions refer to

The scope that a join condition is read in holds everything that the FROM clause has introduced so
far, which is more than the two sides of the join. Building the join looks for columns of other items,
but not inside the statements that stand in the condition. So such a statement may refer to an item
to the left of the join that is no part of it, and this is the only way out.
-/

namespace Pushdown

namespace Node

/-! ## Where FROM items stand -/

/-- FROM items stand in the FROM clauses of statements and on the sides of joins. -/
theorem inner_of_isFromItem {levels : List Level} {n : Node} (placed : n.Placed)
    {p : List Level × Node} (child : p ∈ n.inner levels) (item : p.2.isFromItem) :
    (∃ s, n = select s ∧ s.source = some p.2 ∧ p.1 = .opening s :: levels) ∨
      ∃ type left right condition, n = join type left right condition ∧
        (p = (levels, left) ∨ p = (levels.modifyHead (·.introduce left.fromItems), right)) := by
  have other (operand : p.2 ∈ n.operands) : False := by
    have expression := placed p.2 operand
    cases same : p.2 <;>
      simp_all [isExpression, isFromItem, kind, Kind.isExpression]
  cases n with
  | select s =>
    simp only [inner, List.mem_cons, List.mem_append, List.mem_map, Option.mem_toList] at child
    rcases child with rfl | ⟨source, given, rfl⟩ | ⟨clause, given, rfl⟩
    · simp [isFromItem, kind] at item
    · exact .inl ⟨s, rfl, given, rfl⟩
    · simp only [Select.after, List.mem_append, Option.mem_toList, Option.map_eq_some_iff] at given
      rcases given with (((filter | ⟨_, -, rfl⟩) | having) | ⟨_, -, rfl⟩) | ⟨_, -, rfl⟩
      · exact (other (by simp [operands, filter])).elim
      · simp [isFromItem, kind] at item
      · exact (other (by simp [operands, having])).elim
      · simp [isFromItem, kind] at item
      · simp [isFromItem, kind] at item
  | join type left right condition =>
    simp only [inner, List.mem_cons, List.not_mem_nil, or_false] at child
    rcases child with rfl | rfl | rfl
    · exact .inr ⟨_, _, _, _, rfl, .inl rfl⟩
    · exact .inr ⟨_, _, _, _, rfl, .inr rfl⟩
    · exact (other (by simp [operands])).elim
  | subSelect s _ =>
    obtain rfl : p = (levels.tail, select s) := by simpa [inner] using child
    simp [isFromItem, kind] at item
  | inSubquery expr s =>
    simp only [inner, children, List.map_cons, List.map_nil, List.mem_cons, List.not_mem_nil,
      or_false] at child
    rcases child with rfl | rfl
    · exact (other (by simp [operands])).elim
    · simp [isFromItem, kind] at item
  | groupConcat arg _ order _ =>
    simp only [inner, children, List.map_cons, List.mem_cons, List.mem_map, Option.mem_toList,
      Option.map_eq_some_iff] at child
    rcases child with rfl | ⟨_, ⟨_, -, rfl⟩, rfl⟩
    · exact (other (by simp [operands])).elim
    · simp [isFromItem, kind] at item
  | window _ args parts order _ =>
    simp only [inner, children, List.mem_map, List.mem_append, Option.mem_toList,
      Option.map_eq_some_iff] at child
    obtain ⟨c, member | ⟨_, -, rfl⟩, rfl⟩ := child
    · exact (other (by simpa [operands] using member)).elim
    · simp [isFromItem, kind] at item
  | _ => exact (other (mem_children_of_mem_inner child)).elim

/-- Places below a place are places of the whole tree. -/
theorem places_trans {levels : List Level} {n : Node} {p q : List Level × Node}
    (outer : p ∈ n.places levels) (inner : q ∈ p.2.places p.1) : q ∈ n.places levels := by
  induction n using Node.induction generalizing levels with
  | step n ih =>
    rw [places_eq, List.mem_cons, List.mem_flatMap] at outer
    rcases outer with rfl | ⟨below, child, outer⟩
    · exact inner
    · rw [places_eq]
      exact List.mem_cons_of_mem _ (List.mem_flatMap.mpr
        ⟨below, child, ih below.2 (mem_children_of_mem_inner child) outer⟩)

theorem Everywhere.of_mem_places {P : Node → Prop} {levels : List Level} {n : Node}
    (all : n.Everywhere P) {p : List Level × Node} (member : p ∈ n.places levels) :
    p.2.Everywhere P := by
  intro m inside
  rw [← map_snd_places p.1] at inside
  obtain ⟨q, below, rfl⟩ := List.mem_map.mp inside
  refine all _ ?_
  rw [← map_snd_places levels]
  exact List.mem_map_of_mem (places_trans member below)

/-- What stands around a node also stands around everything below it; a derived table in a FROM
clause leaves the statement of the clause. -/
theorem suffix_of_mem_places {levels : List Level} {n : Node} (wellPlaced : n.WellPlaced)
    {p : List Level × Node} (member : p ∈ n.places levels) :
    (if n.isFromItem then levels.tail else levels) <:+ p.1 := by
  induction n using Node.induction generalizing levels with
  | step n ih =>
    rw [places_eq, List.mem_cons, List.mem_flatMap] at member
    rcases member with rfl | ⟨below, child, member⟩
    · split
      · exact List.tail_suffix _
      · exact List.suffix_rfl
    · have listed := mem_children_of_mem_inner child
      have inside := ih below.2 listed (wellPlaced.child listed) member
      have parent := inner_of_isFromItem wellPlaced.root.2 child
      cases n with
      | select s =>
        rw [if_neg (by simp [isFromItem, kind])]
        simp only [inner, List.mem_cons, List.mem_append, List.mem_map, Option.mem_toList] at child
        rcases child with rfl | ⟨item, given, rfl⟩ | ⟨clause, given, rfl⟩
        all_goals
          split at inside
          · exact inside
          · exact (List.suffix_cons ..).trans inside
      | join type left right condition =>
        rw [if_pos (by simp [isFromItem, kind])]
        have same : below.1.tail = levels.tail := by
          simp only [inner, List.mem_cons, List.not_mem_nil, or_false] at child
          rcases child with rfl | rfl | rfl <;> cases levels <;> rfl
        split at inside
        · exact same ▸ inside
        · exact same ▸ (List.tail_suffix _).trans inside
      | subSelect s aliasName =>
        obtain rfl : below = (levels.tail, select s) := by simpa [inner] using child
        rw [if_pos (by simp [isFromItem, kind])]
        rwa [if_neg (by simp [isFromItem, kind])] at inside
      | table t => simp [inner, children] at child
      | _ =>
        obtain ⟨c, given, rfl⟩ := List.mem_map.mp child
        rw [if_neg (by simp [isFromItem, kind])]
        rw [if_neg (fun item => by simpa using parent item)] at inside
        exact inside

/-- What is introduced before a FROM item and by it is at the beginning of the FROM clause. -/
def Continues (levels : List Level) (n : Node) : Prop :=
  n.isFromItem → ∃ level outer, levels = level :: outer ∧
    level.introduced.items ++ n.fromItems <+: level.items

theorem continues_of_wellPlaced {levels : List Level} {n : Node} (wellPlaced : n.WellPlaced)
    (start : Continues levels n) : n.Throughout Continues levels := by
  induction n using Node.induction generalizing levels with
  | step n ih =>
    refine throughout_iff.mpr ⟨start, fun below child => ?_⟩
    have listed := mem_children_of_mem_inner child
    refine ih below.2 listed (wellPlaced.child listed) fun item => ?_
    rcases inner_of_isFromItem wellPlaced.root.2 child item with
      ⟨s, rfl, source, opened⟩ | ⟨type, left, right, condition, rfl, side⟩
    · refine ⟨.opening s, levels, opened, ?_⟩
      simp [Level.opening, Level.items, Select.fromItems, source]
    · obtain ⟨level, outer, rfl, introduced⟩ := start rfl
      rw [fromItems, ← List.append_assoc] at introduced
      rcases side with rfl | rfl
      · exact ⟨level, outer, rfl, (List.prefix_append ..).trans introduced⟩
      · exact ⟨level.introduce left.fromItems, outer, rfl, introduced⟩

end Node

/-! ## Columns in join conditions -/

/-- Of an item that a join condition may refer to, the name belongs to a side of the join exactly if
the item was not introduced before the join. -/
theorem Level.Sound.mem_sources_iff {level : Level} {left right : Node}
    (sound : (level.joining left right).Sound)
    (opened : level.introduced.items ++ (left.fromItems ++ right.fromItems) <+: level.items)
    {item : FromItem} (member : item ∈ (level.joining left right).introduced.items) :
    item.reference ∈ left.sources ++ right.sources ↔ item ∉ level.introduced.items := by
  have apart : ((level.introduced.items ++ (left.fromItems ++ right.fromItems)).map
      (·.reference)).Nodup := List.Nodup.sublist (opened.map _).sublist sound.apart
  rw [List.map_append, List.nodup_append] at apart
  rw [Node.sources_eq_map, Node.sources_eq_map, ← List.map_append]
  constructor
  · intro named before
    exact apart.2.2 _ (List.mem_map_of_mem before) _ named rfl
  · intro fresh
    exact List.mem_map_of_mem ((List.mem_append.mp member).resolve_left fresh)

/-- Only what the levels have introduced matters for what a column is resolved to. -/
theorem Level.resolve?_eq_nearest? (levels : List Level) (table aliasName : String) :
    resolve? levels table aliasName =
      nearest? (fun items => (Scope.mk items).find? table aliasName)
        (levels.map (·.introduced.items)) := by
  induction levels with
  | nil => rfl
  | cons level levels ih =>
    unfold resolve? at ih ⊢
    rw [List.map_cons, nearest?, nearest?, ih]

namespace Request

variable {text : String} {r : PushdownRequest} {s : Statement} {around : List Level}
  {type : JoinType} {left right condition : Node}

/-- The columns in a join condition are among those of the request, and the join is among what stands
around them. -/
theorem mem_columns_of_condition {level : Level} {outer levels : List Level} {c : Column}
    (read : Request.readPushdown text = .ok r) (stated : r.statement = some s)
    (joined : (level :: outer, .join type left right condition) ∈ (Node.select s).places [])
    (placed : (levels, .column c) ∈ condition.places (level.joining left right :: outer)) :
    (levels, c) ∈ r.columns ∧ ∃ inside, levels = inside ++ level.joining left right :: outer := by
  obtain ⟨s', stated', wellPlaced⟩ := Request.readPushdown_wellPlaced read
  obtain rfl : s = s' := Option.some.inj (stated.symm.trans stated')
  have join : (Node.join type left right condition).WellPlaced := wellPlaced.of_mem_places joined
  have below : (level.joining left right :: outer, condition) ∈
      (Node.join type left right condition).inner (level :: outer) := by
    simp [Node.inner]
  constructor
  · refine (PushdownRequest.mem_columns stated).mpr (Node.places_trans joined ?_)
    rw [Node.places_eq]
    exact List.mem_cons_of_mem _ (List.mem_flatMap.mpr ⟨_, below, placed⟩)
  · have other : condition.isFromItem = false := by
      have expression := join.root.2 condition (by simp [Node.operands])
      cases condition <;>
        simp_all [Node.isExpression, Node.isFromItem, Node.kind, Kind.isExpression]
    have suffix := Node.suffix_of_mem_places
      (join.child (Node.mem_children_of_mem_inner below)) placed
    rw [other, if_neg (by simp)] at suffix
    obtain ⟨inside, rfl⟩ := suffix
    exact ⟨inside, rfl⟩

/-- A join: what is introduced before it, the names of its sides, and the columns in its condition,
each with what the statements around it have introduced. -/
structure JoinColumns where
  before : List FromItem
  names : List String
  columns : List (Column × List (List FromItem))
deriving DecidableEq

def joinColumns (s : Statement) : List JoinColumns :=
  ((Node.select s).places []).filterMap fun p =>
    match p with
    | (level :: outer, .join _ left right condition) =>
      some ⟨level.introduced.items, left.sources ++ right.sources,
        (condition.places (level.joining left right :: outer)).filterMap fun q =>
          q.2.column?.map fun c => (c, q.1.map (·.introduced.items))⟩
    | _ => none

theorem exists_of_mem_joinColumns {join : JoinColumns} (listed : join ∈ joinColumns s)
    {c : Column} {scopes : List (List FromItem)} (column : (c, scopes) ∈ join.columns) :
    ∃ level outer type left right condition levels,
      (level :: outer, .join type left right condition) ∈ (Node.select s).places [] ∧
      (levels, .column c) ∈ condition.places (level.joining left right :: outer) ∧
      level.introduced.items = join.before ∧ left.sources ++ right.sources = join.names ∧
      levels.map (·.introduced.items) = scopes := by
  obtain ⟨⟨around, n⟩, placed, found⟩ := List.mem_filterMap.mp listed
  split at found
  · rename_i level outer type left right condition same
    cases same
    cases found
    obtain ⟨⟨levels, m⟩, inside, found⟩ := List.mem_filterMap.mp column
    obtain ⟨c', given, same⟩ := Option.map_eq_some_iff.mp found
    cases same
    cases m <;> simp [Node.column?] at given
    exact ⟨level, outer, type, left, right, condition, levels, placed, given ▸ inside, rfl, rfl, rfl⟩
  · contradiction

/-- Where one statement in a condition is around a column, the join is the second thing around it. -/
theorem inside_of_introduced {level : Level} {inside outer : List Level} {a b c d : FromItem}
    (other : a ≠ d) (before : level.introduced.items = [a])
    (introduced : (inside ++ level.joining left right :: outer).map (·.introduced.items) =
      [[d], [a, b, c]]) : inside.length = 1 ∧ outer = [] := by
  rcases inside with _ | ⟨first, _ | ⟨second, rest⟩⟩
  · simp [Level.joining, Level.introduce, before, other] at introduced
  · simp at introduced
    exact ⟨rfl, introduced.2.2⟩
  · simp at introduced

end Request

end Pushdown
