import Mathlib.Data.List.Nodup
import Pushdown.Proofs.Syntax.WellFormed
import Pushdown.Request.Scope

/-!
# The statements around a place

Which FROM items a column may refer to depends on where it stands. `Node.places` goes through a tree
and gives for every node the statements around it, from the innermost outwards: a statement sees its
own FROM items and those of the statements around it, a join condition sees the two sides of its
join, and a derived table sees nothing of the FROM clause that it stands in.
-/

namespace Pushdown

/-! ## FROM items -/

/-- What a node of a FROM clause introduces. -/
def Node.fromItems : Node → List FromItem
  | table t => [{ table := t.name, aliasName := t.aliasName }]
  | subSelect _ aliasName => [{ table := aliasName, aliasName, derived := true }]
  | join _ left right _ => fromItems left ++ fromItems right
  | _ => []

/-- The sources of a FROM clause are the names of what it introduces. -/
theorem Node.sources_eq_map (n : Node) : n.sources = n.fromItems.map (·.reference) := by
  induction n using Node.induction with
  | step n ih =>
    cases n with
    | table t => simp [sources, fromItems, Table.reference, FromItem.reference]
    | subSelect s aliasName => simp [sources, fromItems, FromItem.reference]
    | join type left right condition =>
      rw [sources, fromItems, List.map_append, ih left (by simp [children]),
        ih right (by simp [children])]
    | _ => rfl

/-- What the FROM clause of a statement introduces. -/
def Select.fromItems (s : Statement) : List FromItem := (s.source.map Node.fromItems).getD []

/-! ## Levels -/

/-- A statement around a place. -/
structure Level where
  statement : Statement
  /-- The FROM items that a name at the place may refer to. -/
  visible : List FromItem
  /-- The FROM items that are introduced before the place. -/
  introduced : Scope

namespace Level

def items (l : Level) : List FromItem := l.statement.fromItems

/-- Behind the FROM clause of a statement. -/
def behind (s : Statement) : Level := ⟨s, s.fromItems, ⟨s.fromItems⟩⟩

/-- At the beginning of the FROM clause of a statement. -/
def opening (s : Statement) : Level := ⟨s, [], {}⟩

def introduce (l : Level) (items : List FromItem) : Level :=
  { l with introduced := ⟨l.introduced.items ++ items⟩ }

/-- At the condition of a join. -/
def joining (l : Level) (left right : Node) : Level :=
  { l.introduce (left.fromItems ++ right.fromItems) with
    visible := left.fromItems ++ right.fromItems }

/-- The names of a level are apart, and what it sees has been introduced. -/
structure Sound (l : Level) : Prop where
  visible : l.visible ⊆ l.introduced.items
  introduced : l.introduced.items ⊆ l.items
  apart : (l.items.map (·.reference)).Nodup

theorem Sound.behind {s : Statement} (apart : (s.fromItems.map (·.reference)).Nodup) :
    (Level.behind s).Sound := ⟨fun _ member => member, fun _ member => member, apart⟩

theorem Sound.opening {s : Statement} (apart : (s.fromItems.map (·.reference)).Nodup) :
    (Level.opening s).Sound := ⟨by simp [Level.opening], by simp [Level.opening], apart⟩

theorem Sound.introduce {l : Level} (h : l.Sound) {items : List FromItem}
    (listed : l.introduced.items ++ items ⊆ l.items) : (l.introduce items).Sound :=
  ⟨fun _ member => List.mem_append_left _ (h.visible member), listed, h.apart⟩

theorem Sound.joining {l : Level} (h : l.Sound) {left right : Node}
    (listed : l.introduced.items ++ (left.fromItems ++ right.fromItems) ⊆ l.items) :
    (l.joining left right).Sound :=
  ⟨fun _ member => List.mem_append_right _ member, listed, h.apart⟩

/-- Only one item of a level has a name. -/
theorem Sound.eq_of_reference {l : Level} (h : l.Sound) {i j : FromItem} (first : i ∈ l.items)
    (second : j ∈ l.items) (same : i.reference = j.reference) : i = j :=
  List.inj_on_of_nodup_map h.apart first second same

/-- The name finds the only visible item that has it. -/
theorem Sound.find?_visible {l : Level} (h : l.Sound) {item : FromItem}
    (visible : item ∈ l.visible) :
    l.visible.find? (·.reference == item.reference) = some item := by
  cases found : l.visible.find? (·.reference == item.reference) with
  | none =>
    have other := List.find?_eq_none.mp found item visible
    simp at other
  | some other =>
    have same : other.reference = item.reference := by simpa using List.find?_some found
    have listed := h.introduced (h.visible (List.mem_of_find?_eq_some found))
    rw [h.eq_of_reference listed (h.introduced (h.visible visible)) same]

end Level

/-! ## Places -/

namespace Node

/-- The children of a node, each with the statements around it. -/
def inner (levels : List Level) : Node → List (List Level × Node)
  | select s =>
    (.behind s :: levels, selectList s.list) ::
      (s.source.toList.map (.opening s :: levels, ·) ++ s.after.map (.behind s :: levels, ·))
  | join _ left right condition =>
    [(levels, left), (levels.modifyHead (·.introduce left.fromItems), right),
      (levels.modifyHead (·.joining left right), condition)]
  | subSelect s _ => [(levels.tail, select s)]
  | n => n.children.map (levels, ·)

theorem map_snd_inner (levels : List Level) (n : Node) :
    (n.inner levels).map (·.2) = n.children := by
  cases n with
  | select s => simp [inner, children, Select.after, Function.comp_def]
  | _ => simp [inner, children, Function.comp_def]

theorem mem_children_of_mem_inner {levels : List Level} {n : Node} {p : List Level × Node}
    (h : p ∈ n.inner levels) : p.2 ∈ n.children := by
  rw [← map_snd_inner levels n]
  exact List.mem_map_of_mem h

/-- All nodes of a tree from the root down, each with the statements around it. -/
def places (levels : List Level) (n : Node) : List (List Level × Node) :=
  (levels, n) :: (n.inner levels).attach.flatMap fun ⟨p, _⟩ => places p.1 p.2
termination_by sizeOf n
decreasing_by exact sizeOf_lt_of_mem_children (mem_children_of_mem_inner ‹_›)

theorem places_eq (levels : List Level) (n : Node) :
    n.places levels = (levels, n) :: (n.inner levels).flatMap fun p => p.2.places p.1 := by
  rw [places, List.flatMap_def, List.flatMap_def,
    ← List.attach_map_val (f := fun p : List Level × Node => p.2.places p.1)]

/-- No node is left out. -/
theorem map_snd_places (levels : List Level) (n : Node) :
    (n.places levels).map (·.2) = n.nodes := by
  induction n using Node.induction generalizing levels with
  | step n ih =>
    have below : (n.inner levels).flatMap (fun p => (p.2.places p.1).map (·.2)) =
        (n.inner levels).flatMap fun p => p.2.nodes := by
      rw [List.flatMap_def, List.flatMap_def]
      exact congrArg List.flatten (List.map_congr_left fun p member =>
        ih p.2 (mem_children_of_mem_inner member) p.1)
    rw [places_eq, nodes_eq, List.map_cons, List.map_flatMap, below, ← map_snd_inner levels n,
      List.flatMap_map]

/-- Every node of the tree has the property where it stands. -/
def Throughout (P : List Level → Node → Prop) (levels : List Level) (n : Node) : Prop :=
  ∀ p ∈ n.places levels, P p.1 p.2

theorem throughout_iff {P : List Level → Node → Prop} {levels : List Level} {n : Node} :
    n.Throughout P levels ↔ P levels n ∧ ∀ p ∈ n.inner levels, p.2.Throughout P p.1 := by
  simp only [Throughout, places_eq levels n, List.mem_cons, List.mem_flatMap, forall_eq_or_imp]
  refine and_congr_right fun _ => ⟨fun all p member q inside => all q ⟨p, member, inside⟩, ?_⟩
  rintro below q ⟨p, member, inside⟩
  exact below p member q inside

/-! ## Join conditions -/

theorem mem_nodes_of_mem_walk {descend : Node → Bool} {m n : Node} (h : m ∈ n.walk descend) :
    m ∈ n.nodes := by
  induction n using Node.induction with
  | step n ih =>
    rw [walk_eq] at h
    rcases List.mem_cons.mp h with rfl | below
    · exact mem_nodes_self _
    · split at below
      · obtain ⟨c, child, inside⟩ := List.mem_flatMap.mp below
        exact mem_nodes_of_mem_children child (ih c child inside)
      · simp at below

/-- A column of a well-formed tree has something to be qualified with. -/
theorem WellFormed.qualifier_ne {n : Node} (h : n.WellFormed) {c : Column}
    (member : .column c ∈ n.nodes) : c.qualifier ≠ "" := by
  have rules : (Node.column c).KeepsRules := h _ member
  unfold Column.qualifier
  split
  · assumption
  · exact rules.2

theorem dangling?_eq_none {names : List String} {condition : Node}
    (h : Build.dangling? names condition = none) {c : Column}
    (member : .column c ∈ condition.walk fun n => n.kind != .select) (named : c.qualifier ≠ "") :
    c.qualifier ∈ names := by
  have inside := List.findSome?_eq_none_iff.mp h _ member
  by_cases listed : c.qualifier ∈ names
  · exact listed
  · simp [named, listed] at inside

/-- A name that refers to the innermost statement at all refers to something visible there. -/
def Shows (levels : List Level) (c : Column) : Prop :=
  ∀ level ∈ levels.head?, c.qualifier ∈ level.items.map (·.reference) →
    c.qualifier ∈ level.visible.map (·.reference)

theorem shows_behind (s : Statement) (levels : List Level) (c : Column) :
    Shows (.behind s :: levels) c := by
  simp only [Shows, List.head?_cons, Option.mem_some_iff, forall_eq']
  exact id

/-- Conditions of joins have been checked, so that names in well-formed trees show what they refer
to in the innermost statement. -/
theorem shows_of_wellFormed {n : Node} (wellFormed : n.WellFormed) {levels : List Level}
    (start : n.isFromItem ∨ ∀ c, .column c ∈ n.walk (fun m => m.kind != .select) → Shows levels c) :
    n.Throughout (fun levels m => ∀ c, m = .column c → Shows levels c) levels := by
  induction n using Node.induction generalizing levels with
  | step n ih =>
    refine throughout_iff.mpr ⟨?_, fun p member => ?_⟩
    · rintro c rfl
      rcases start with absurdity | start
      · simp [isFromItem, kind] at absurdity
      · refine start c ?_
        rw [walk_eq]
        exact List.mem_cons_self ..
    · have child := mem_children_of_mem_inner member
      refine ih p.2 child (wellFormed.child child) ?_
      have rules : n.KeepsRules := wellFormed.root
      cases n with
      | select s =>
        simp only [inner, List.mem_cons, List.mem_append, List.mem_map, Option.mem_toList] at member
        rcases member with rfl | ⟨item, given, rfl⟩ | ⟨clause, given, rfl⟩
        · exact .inr fun c _ => shows_behind s levels c
        · exact .inl (rules.source item given)
        · exact .inr fun c _ => shows_behind s levels c
      | join type left right condition =>
        obtain ⟨-, leftItem, rightItem, inside⟩ := rules
        simp only [inner, List.mem_cons, List.not_mem_nil, or_false] at member
        rcases member with rfl | rfl | rfl
        · exact .inl leftItem
        · exact .inl rightItem
        · refine .inr fun c column level given _ => ?_
          have conditionFormed : condition.WellFormed := wellFormed.child child
          have named := conditionFormed.qualifier_ne (mem_nodes_of_mem_walk column)
          have listed := dangling?_eq_none inside column named
          rw [sources_eq_map, sources_eq_map, ← List.map_append] at listed
          cases levels with
          | nil => simp at given
          | cons top outer =>
            simp only [List.modifyHead_cons, List.head?_cons, Option.mem_some_iff] at given
            subst given
            exact listed
      | subSelect s aliasName =>
        simp only [inner, List.mem_singleton] at member
        subst member
        exact .inr fun c column => by simp [walk_eq, kind] at column
      | table t => simp [inner, children] at member
      | _ =>
        obtain ⟨c, given, rfl⟩ := List.mem_map.mp member
        refine .inr fun column inside => ?_
        rcases start with absurdity | start
        · simp [isFromItem, kind] at absurdity
        · refine start column ?_
          rw [walk_eq, if_pos (by simp [kind])]
          exact List.mem_cons_of_mem _ (List.mem_flatMap.mpr ⟨c, given, inside⟩)

end Node

end Pushdown
