import Mathlib.Data.List.Nodup
import Pushdown.Proofs.Dialect.Capability
import Pushdown.Proofs.Dictionary
import Pushdown.Proofs.Sql.Expressible

/-!
# The report of a dialect

A dialect reports its capabilities, and with a mark in front the functions, aggregates and window
functions that it has. The report is a list of names, while the generator looks at the nodes of a
tree one by one, so both are compared here: what is reported is what is generated.
-/

namespace Pushdown

/-! ## The names of a report -/

theorem Dictionary.mem_keys_iff {κ α : Type} [BEq κ] [LawfulBEq κ] {d : Dictionary κ α} {key : κ} :
    key ∈ d.keys ↔ d.contains key := by
  simp only [keys, contains, get?]
  induction d.entries with
  | nil => simp
  | cons entry entries ih =>
    by_cases same : key = entry.1
    · simp [same]
    · simp [same, ih]

namespace Capability

/-- The marks of functions, aggregates and window functions. -/
def marks : List String := ["FN_", "AGG_", "WIN_"]

theorem name_ne_marked (c : Capability) {mark : String} (known : mark ∈ marks) (name : String) :
    c.name ≠ mark ++ name := by
  intro same
  have start : (mark ++ name).toList.take mark.toList.length = mark.toList := by
    rw [String.toList_append, List.take_left]
  rw [← same] at start
  simp only [marks, List.mem_cons, List.not_mem_nil, or_false] at known
  revert start
  rcases known with rfl | rfl | rfl <;> cases c <;> decide

theorem name_injective {c c' : Capability} (same : c.name = c'.name) : c = c' := by
  revert same
  cases c <;> cases c' <;> decide

theorem mem_all (c : Capability) : c ∈ all := by cases c <;> decide

end Capability

/-- Names behind different marks are different. -/
theorem marked_eq_iff {mark mark' name name' : String} (known : mark ∈ Capability.marks)
    (known' : mark' ∈ Capability.marks) :
    mark ++ name = mark' ++ name' ↔ mark = mark' ∧ name = name' := by
  refine ⟨fun same => ?_, by rintro ⟨rfl, rfl⟩; rfl⟩
  have heads := congrArg (fun s : String => s.toList.head?) same
  have equal : mark = mark' := by
    simp only [Capability.marks, List.mem_cons, List.not_mem_nil, or_false] at known known'
    rcases known with rfl | rfl | rfl <;> rcases known' with rfl | rfl | rfl <;>
      first | rfl | simp at heads
  subst equal
  exact ⟨rfl, by simpa using same⟩

namespace Profile

variable {p : Profile}

/-- The names of the functions, aggregates and window functions, each list with its mark. -/
def spellings (p : Profile) : List (String × List String) :=
  [("FN_", p.functions.keys), ("AGG_", p.aggregates.keys),
    ("WIN_", if p.has .windowFunctions then p.windowFunctions.keys else [])]

theorem names_eq (p : Profile) : p.names = sortTexts (p.supported.toList.map (·.name) ++
    p.spellings.flatMap fun s => s.2.map (s.1 ++ ·)) := by
  unfold names spellings
  split <;> simp

theorem mark_of_mem_spellings {s : String × List String} (listed : s ∈ p.spellings) :
    s.1 ∈ Capability.marks := by
  simp only [spellings, List.mem_cons, List.not_mem_nil, or_false] at listed
  rcases listed with rfl | rfl | rfl <;> simp [Capability.marks]

/-- A capability is reported if the dialect has it. -/
theorem mem_names_capability (c : Capability) : c.name ∈ p.names ↔ p.has c := by
  rw [names_eq, mem_sortTexts, List.mem_append, List.mem_map]
  constructor
  · rintro (⟨c', has, same⟩ | marked)
    · rw [Capability.name_injective same] at has
      exact (List.mem_filter.mp has).2
    · obtain ⟨s, listed, inside⟩ := List.mem_flatMap.mp marked
      obtain ⟨name, -, same⟩ := List.mem_map.mp inside
      exact absurd same.symm (c.name_ne_marked (mark_of_mem_spellings listed) name)
  · exact fun has => .inl ⟨c, List.mem_filter.mpr ⟨c.mem_all, has⟩, rfl⟩

/-- A name behind a mark is reported if it is spelled. -/
theorem mem_names_marked {mark name : String} {names : List String}
    (listed : (mark, names) ∈ p.spellings) : mark ++ name ∈ p.names ↔ name ∈ names := by
  have known := mark_of_mem_spellings listed
  rw [names_eq, mem_sortTexts, List.mem_append, List.mem_map]
  constructor
  · rintro (⟨c, -, same⟩ | marked)
    · exact absurd same (c.name_ne_marked known name)
    · obtain ⟨⟨mark', names'⟩, listed', inside⟩ := List.mem_flatMap.mp marked
      obtain ⟨name', member, same⟩ := List.mem_map.mp inside
      obtain ⟨rfl, rfl⟩ := (marked_eq_iff (mark_of_mem_spellings listed') known).mp same
      obtain rfl : names' = names := by
        simp only [spellings, List.mem_cons, List.not_mem_nil, or_false, Prod.mk.injEq]
          at listed listed'
        rcases listed with ⟨rfl, rfl⟩ | ⟨rfl, rfl⟩ | ⟨rfl, rfl⟩ <;> simpa using listed'
      exact member
  · exact fun member => .inr (List.mem_flatMap.mpr ⟨_, listed, List.mem_map_of_mem member⟩)

/-- No name is spelled twice. -/
structure Distinct (p : Profile) : Prop where
  functions : p.functions.keys.Nodup
  aggregates : p.aggregates.keys.Nodup
  windowFunctions : p.windowFunctions.keys.Nodup

theorem Distinct.spellings_nodup (distinct : p.Distinct) {s : String × List String}
    (listed : s ∈ p.spellings) : s.2.Nodup := by
  simp only [spellings, List.mem_cons, List.not_mem_nil, or_false] at listed
  rcases listed with rfl | rfl | rfl
  · exact distinct.functions
  · exact distinct.aggregates
  · dsimp only
    split
    · exact distinct.windowFunctions
    · exact List.nodup_nil

theorem Distinct.names_nodup (distinct : p.Distinct) : p.names.Nodup := by
  rw [names_eq, sortTexts, (List.mergeSort_perm _ _).nodup_iff, List.nodup_append]
  refine ⟨?_, ?_, ?_⟩
  · refine List.Nodup.map (fun c c' => Capability.name_injective) (List.Nodup.filter _ ?_)
    decide
  · rw [List.nodup_flatMap]
    refine ⟨fun s listed => ?_, ?_⟩
    · refine (distinct.spellings_nodup listed).map fun name name' same => ?_
      have known := mark_of_mem_spellings listed
      exact ((marked_eq_iff known known).mp same).2
    · have marks : p.spellings.Pairwise fun s s' => s.1 ≠ s'.1 := by simp [spellings]
      refine marks.imp_of_mem fun {s s'} listed listed' different text first second => ?_
      obtain ⟨name, -, rfl⟩ := List.mem_map.mp first
      obtain ⟨name', -, same⟩ := List.mem_map.mp second
      exact different ((marked_eq_iff (mark_of_mem_spellings listed')
        (mark_of_mem_spellings listed)).mp same).1.symm
  · rintro _ capability _ marked rfl
    obtain ⟨c, -, rfl⟩ := List.mem_map.mp capability
    obtain ⟨s, listed, inside⟩ := List.mem_flatMap.mp marked
    obtain ⟨name, -, same⟩ := List.mem_map.mp inside
    exact c.name_ne_marked (mark_of_mem_spellings listed) name same.symm

/-- A report without duplicates is in ascending order. -/
theorem Distinct.names_pairwise (distinct : p.Distinct) : p.names.Pairwise (· < ·) := by
  have nodup := distinct.names_nodup
  rw [names_eq, sortTexts, (List.mergeSort_perm _ _).nodup_iff] at nodup
  rw [names_eq]
  exact sortTexts_pairwise_lt nodup

end Profile

open Dictionary in
/-- The built-in dialects spell no name twice, whatever the notes say. -/
theorem Builtin.distinct (b : Builtin) (notes : Notes) : (b.build notes).profile.Distinct := by
  have functions : standardFunctions.keys.Nodup := by decide +kernel
  have aggregates : standardAggregates.keys.Nodup := by decide +kernel
  have windows : standardWindowFunctions.keys.Nodup := by decide +kernel
  refine ⟨?_, ?_, ?_⟩
  · cases b with
    | generic => exact functions
    | bigQuery | exasol | mySql | postgreSql => exact nodup_keys_insertMany functions _
    | oracle => exact nodup_keys_insert functions ..
    | sqlite => exact nodup_keys_insertMany (functions.sublist (keys_filter_sublist _)) _
    | sqlServer => exact (nodup_keys_insertMany functions _).sublist (keys_eraseAll_sublist _)
  · cases b with
    | bigQuery | generic | mySql | postgreSql => exact aggregates
    | exasol | sqlServer => exact nodup_keys_insertMany aggregates _
    | oracle => exact nodup_keys_insert aggregates ..
    | sqlite => exact (by decide : ["COUNT", "SUM", "MIN", "MAX", "AVG"].Nodup)
  · cases b with
    | exasol | oracle => exact nodup_keys_insertMany windows _
    | bigQuery | generic | mySql | postgreSql | sqlite | sqlServer => exact windows

/-! ## What the generator accepts -/

/-- The dialect has a text for the tree. -/
def Dialect.Renders (d : Dialect) (ctx : Context) (n : Node) : Prop :=
  ∃ sql, d.generate ctx (some n) = .ok sql

namespace Render

variable {d : Dialect} {ctx : Context}

theorem renders_iff {n : Node} : d.Renders ctx n ↔ refusal (node d ctx n) = none := by
  simp only [Dialect.Renders, Dialect.generate, bind_eq_ok, pure_eq_ok]
  cases node d ctx n <;> simp [refusal]

/-- Columns are never refused. -/
theorem refusal_column (unmarked : d.marked = []) (c : Column) :
    refusal (asOperand d (.column c) (node d ctx (.column c))) = none := by
  rw [asOperand_refusal, node_column unmarked]
  rfl

theorem renders_function_iff (lossless : d.Lossless) (name : String) (columns : List Column) :
    d.Renders ctx (.function name (columns.map .column)) ↔ d.calls name columns.length := by
  rw [renders_iff, node_function lossless.unmarked, (function_decided lossless _ _).succeeds]
  simp [refusal_column lossless.unmarked]

theorem renders_aggregate_iff (unmarked : d.marked = []) (name : String) (distinct : Bool)
    (c : Column) : d.Renders ctx (.aggregate name distinct [.column c] none) ↔
      d.profile.aggregates.contains name := by
  rw [renders_iff, node_aggregate unmarked, (aggregate_decided _ _ _ _).succeeds]
  simp [refusal_column unmarked]

theorem renders_window_iff (unmarked : d.marked = []) (name : String) (c : Column) :
    d.Renders ctx (.window name [.column c] [] none none) ↔
      d.has .windowFunctions ∧ d.profile.windowFunctions.contains name := by
  rw [renders_iff, node_window unmarked, (window_decided _ _ _ _ _).succeeds]
  simp [refusal_column unmarked]

end Render

namespace Dialect

variable {d : Dialect} {ctx : Context}

/-- A function is reported if there is a number of columns that it can be applied to. -/
theorem function_reported_iff (lossless : d.Lossless) (name : String) :
    "FN_" ++ name ∈ d.profile.names ↔
      ∃ columns : List Column, d.Renders ctx (.function name (columns.map .column)) := by
  rw [Profile.mem_names_marked (.head _), Dictionary.mem_keys_iff]
  simp only [Render.renders_function_iff lossless, calls, Dictionary.contains]
  cases d.profile.functions.get? name with
  | none => simp
  | some spec =>
    -- A function of any number of arguments is applied to one.
    refine iff_of_true rfl
      ⟨List.replicate (if spec.arity < 0 then 1 else spec.arity.toNat)
        { table := "T", name := "A" }, ?_⟩
    simp only [FunctionSpec.takes, List.length_replicate]
    split <;> simp <;> omega

theorem aggregate_reported_iff (unmarked : d.marked = []) (name : String) (distinct : Bool)
    (c : Column) : "AGG_" ++ name ∈ d.profile.names ↔
      d.Renders ctx (.aggregate name distinct [.column c] none) := by
  rw [Profile.mem_names_marked (.tail _ (.head _)), Dictionary.mem_keys_iff,
    Render.renders_aggregate_iff unmarked]

theorem window_reported_iff (unmarked : d.marked = []) (name : String) (c : Column) :
    "WIN_" ++ name ∈ d.profile.names ↔ d.Renders ctx (.window name [.column c] [] none none) := by
  rw [Profile.mem_names_marked (.tail _ (.tail _ (.head _))), Render.renders_window_iff unmarked,
    ← Dictionary.mem_keys_iff, Dialect.has]
  split <;> simp [*]

end Dialect

/-! ## Features of single nodes -/

/-- The capabilities that decide whether a node has a text. The others decide only how it looks. -/
def Capability.gates : List Capability :=
  [.fullOuterJoin, .rightOuterJoin, .limit, .limitWithOffset, .aggregateFilter, .inSubquery,
    .derivedTables, .intervalLiterals, .extract, .groupConcat, .groupConcatOrderBy, .regexpLike,
    .windowFunctions]

/-- Whether the node itself makes use of the feature. -/
def Node.uses : Capability → Node → Bool
  | .fullOuterJoin, .join type .. => type = .full
  | .rightOuterJoin, .join type .. => type = .right
  | .limit, .limit _ => true
  | .limitWithOffset, .limit l => 0 < l.offset
  | .aggregateFilter, .aggregate _ _ _ filter => filter.isSome
  | .inSubquery, .inSubquery .. => true
  | .derivedTables, .subSelect .. => true
  | .intervalLiterals, .literal l => l.type = .interval
  | .extract, .extract .. => true
  | .groupConcat, .groupConcat .. => true
  | .groupConcatOrderBy, .groupConcat _ _ order _ => order.isSome
  | .regexpLike, .regexpLike .. => true
  | .windowFunctions, .window .. => true
  | _, _ => false

/-- The dialect that has the feature and is the same in all else. -/
def Dialect.gaining (d : Dialect) (c : Capability) : Dialect :=
  { d with profile := { d.profile with supported := d.profile.supported.insertAll [c.number] } }

theorem CapabilitySet.insertAll_of_has {s : CapabilitySet} {c : Capability} (has : s.has c) :
    s.insertAll [c.number] = s := by
  have member : s.bits &&& bit c.number ≠ 0 := by
    simp only [CapabilitySet.has, hasNumber, Bool.and_eq_true, bne_iff_ne] at has
    exact has.2
  have set : s.bits.getLsbD c.number = true := by
    by_contra unset
    apply member
    ext i bound
    simp [bit]
    grind
  have kept : s.bits ||| bit c.number = s.bits := by
    ext i bound
    simp [bit]
    grind
  simp only [insertAll, List.foldl_cons, List.foldl_nil, kept]

theorem Dialect.gaining_of_has {d : Dialect} {c : Capability} (has : d.has c) :
    d.gaining c = d := by
  rw [gaining, CapabilitySet.insertAll_of_has has]

namespace Builtin

/-- Every database can take a field out of a date. -/
theorem has_extract (b : Builtin) (notes : Notes) : (b.build notes).has .extract := by
  rw [b.has_eq notes (by cases b <;> decide)]
  cases b <;> decide +kernel

/-- A node that is expressible uses no feature that the dialect lacks. -/
theorem has_of_uses (b : Builtin) (notes : Notes) {c : Capability} {n : Node} (uses : n.uses c)
    (expressible : n.expressible (b.build notes)) : (b.build notes).has c := by
  unfold Node.uses at uses
  -- The cases are those of `Node.uses`, one feature after the other.
  split at uses
  case h_1 | h_2 =>
    obtain rfl := of_decide_eq_true uses
    exact expressible
  case h_4 l =>
    have skips : ¬ l.offset ≤ 0 := by simpa using uses
    simp only [Node.expressible, skips, decide_false, Bool.false_or,
      Bool.and_eq_true] at expressible
    exact expressible.2.1
  case h_5 filter =>
    obtain ⟨filter, rfl⟩ := Option.isSome_iff_exists.mp uses
    simp only [Node.expressible, Option.isNone_some, Bool.false_or, Bool.and_eq_true] at expressible
    exact expressible.2
  case h_8 l =>
    have interval : l.type = .interval := of_decide_eq_true uses
    simpa [Node.expressible, Dialect.writes, interval] using expressible
  case h_9 => exact b.has_extract notes
  case h_11 =>
    obtain ⟨order, rfl⟩ := Option.isSome_iff_exists.mp uses
    simp only [Node.expressible, Option.isNone_some, Bool.false_or,
      Bool.and_eq_true] at expressible
    exact expressible.1.2
  case h_14 => contradiction
  all_goals simp_all [Node.expressible]

end Builtin

/-! ## A tree for each feature -/

namespace Sample

def value : Node := .column { table := "T", name := "A" }

def condition : Node := .isNull value

def statement : Statement :=
  { list := { items := [{ expr := value }] }, source := some (.table { name := "T" }) }

def keys : List (SortKey Node) := [{ expr := value, ascending := true, nullsLast := true }]

/-- A small tree that uses the feature. -/
def tree : Capability → Node
  | .fullOuterJoin => .join .full (.table { name := "T" }) (.table { name := "U" }) condition
  | .rightOuterJoin => .join .right (.table { name := "T" }) (.table { name := "U" }) condition
  | .limit => .limit { count := 1 }
  | .limitWithOffset => .limit { count := 1, offset := 1 }
  | .aggregateFilter => .aggregate "COUNT" false [value] (some condition)
  | .inSubquery => .inSubquery value statement
  | .derivedTables => .subSelect statement "S"
  | .intervalLiterals => .literal
      { type := .interval, value := "1", interval := { kind := .interval, range := .yearToMonth } }
  | .extract => .extract .year value
  | .groupConcat => .groupConcat value false none none
  | .groupConcatOrderBy => .groupConcat value false (some keys) none
  | .regexpLike => .regexpLike value value
  | .windowFunctions => .window "COUNT" [value] [] none none
  | .booleanLiterals | .nullsOrdering | .simpleCase => value

/-- What the trees are made of. -/
def parts : List Node :=
  [value, condition, .table { name := "T" }, .table { name := "U" }, .select statement,
    .selectList statement.list, .orderBy keys]

theorem nodes_tree (c : Capability) : ∀ m ∈ (tree c).nodes, m = tree c ∨ m ∈ parts := by
  cases c <;>
    simp [tree, parts, statement, keys, condition, value, Node.nodes_eq, Node.children]

theorem keepsRules_parts : ∀ m ∈ parts, m.KeepsRules := by
  have select : statement.KeepsRules :=
    ⟨by simp [statement, Node.isFromItem, Node.kind], by simp [statement], by simp [statement],
      by simp [statement], by simp [statement]⟩
  simp [parts, value, condition, keys, Node.KeepsRules, select]
  simp [statement]

theorem expressible_parts (d : Dialect) : ∀ m ∈ parts, m.expressible d := by
  simp [parts, value, condition, Node.expressible]

theorem wellFormed_tree (c : Capability) : (tree c).WellFormed := by
  intro m member
  rcases nodes_tree c m member with rfl | part
  · cases c with
    | fullOuterJoin | rightOuterJoin =>
      refine ⟨nofun, rfl, rfl, ?_⟩
      decide +kernel
    | limit | limitWithOffset => exact ⟨by decide, by decide⟩
    | aggregateFilter => exact ⟨⟨"COUNT", by decide +kernel⟩, nofun⟩
    | inSubquery => rfl
    | derivedTables => exact nofun
    | intervalLiterals => exact ⟨rfl, rfl, rfl⟩
    | extract => exact nofun
    | windowFunctions => exact ⟨⟨"COUNT", by decide +kernel⟩, nofun, nofun⟩
    | groupConcat | groupConcatOrderBy | regexpLike => trivial
    | booleanLiterals | nullsOrdering | simpleCase =>
      exact keepsRules_parts _ (by simp [tree, parts])
  · exact keepsRules_parts m part

theorem uses_tree {c : Capability} (gate : c ∈ Capability.gates) : (tree c).uses c := by
  revert c
  decide

end Sample

namespace Builtin

/-- A database that can skip rows can also limit them, and does not do so in front of the
projection. -/
theorem limit_of_limitWithOffset (b : Builtin) (notes : Notes)
    (skips : (b.build notes).has .limitWithOffset) :
    (b.build notes).has .limit ∧ (b.build notes).profile.limitStyle ≠ .top := by
  cases b with
  | oracle =>
    refine ⟨?_, by rintro ⟨⟩⟩
    by_cases recent : notes.atLeast "v12.0.0"
    · simp only [Dialect.has, Profile.has, build, oracleProfile, recent, if_true]
      decide +kernel
    · simp only [Dialect.has, Profile.has, build, oracleProfile, recent] at skips
      exact absurd skips (by decide +kernel)
  | sqlServer =>
    rw [has_eq _ notes (by decide)] at skips
    exact absurd skips (by decide +kernel)
  | bigQuery | exasol | generic | mySql | postgreSql | sqlite =>
    refine ⟨?_, by rintro ⟨⟩⟩
    rw [has_eq _ notes (by decide)]
    decide +kernel

/-- A database that can join texts in an order can join texts. -/
theorem groupConcat_of_groupConcatOrderBy (b : Builtin) (notes : Notes)
    (ordered : (b.build notes).has .groupConcatOrderBy) : (b.build notes).has .groupConcat := by
  cases b with
  | generic =>
    rw [has_eq _ notes (by decide)] at ordered
    exact absurd ordered (by decide +kernel)
  | bigQuery | exasol | mySql | oracle | postgreSql | sqlite | sqlServer =>
    rw [has_eq _ notes (by decide)]
    decide +kernel

/-- The tree for a feature has a text in every dialect that has the feature. -/
theorem expressible_tree (b : Builtin) (notes : Notes) {c : Capability}
    (has : (b.build notes).has c) : (Sample.tree c).expressible (b.build notes) := by
  have aggregates : (b.build notes).profile.aggregates = (b.build {}).profile.aggregates := by
    cases b <;> rfl
  have windows : (b.build notes).profile.windowFunctions =
      (b.build {}).profile.windowFunctions := by cases b <;> rfl
  cases c with
  | fullOuterJoin | rightOuterJoin | inSubquery | derivedTables | intervalLiterals => exact has
  | booleanLiterals | nullsOrdering | simpleCase => rfl
  | limit => simpa [Sample.tree, Node.expressible] using has
  | limitWithOffset =>
    obtain ⟨limits, behind⟩ := b.limit_of_limitWithOffset notes has
    simp [Sample.tree, Node.expressible, has, limits, behind]
  | aggregateFilter =>
    have counts : (b.build {}).profile.aggregates.contains "COUNT" := by cases b <;> decide +kernel
    simp [Sample.tree, Node.expressible, has, aggregates, counts]
  | windowFunctions =>
    have counts : (b.build {}).profile.windowFunctions.contains "COUNT" := by
      cases b <;> decide +kernel
    simp [Sample.tree, Node.expressible, has, windows, counts]
  | extract =>
    simp only [Sample.tree, Node.expressible, Dialect.extracts]
    split
    · exact has
    · contradiction
    · rfl
  | groupConcat => simpa [Sample.tree, Node.expressible] using has
  | groupConcatOrderBy =>
    have joins := b.groupConcat_of_groupConcatOrderBy notes has
    simp [Sample.tree, Node.expressible, has, joins]
  | regexpLike =>
    have regexp : (b.build notes).profile.regexp = (b.build {}).profile.regexp := by
      cases b <;> rfl
    have takes : (b.build {}).profile.regexp.takes 2 := by cases b <;> decide +kernel
    simp [Sample.tree, Node.expressible, has, regexp, takes]

/-- No node that uses an unreported feature has a text, and a reported one is good for a tree. -/
theorem feature_reported_iff (b : Builtin) (notes : Notes) (ctx : Context) {c : Capability}
    (gate : c ∈ Capability.gates) : c.name ∈ (b.build notes).profile.names ↔
      ∃ n : Node, n.WellFormed ∧ n.uses c ∧ (b.build notes).Renders ctx n := by
  have lossless := b.lossless notes
  rw [Profile.mem_names_capability]
  constructor
  · intro has
    refine ⟨Sample.tree c, Sample.wellFormed_tree c, Sample.uses_tree gate, ?_⟩
    rw [Render.renders_iff, Render.node_succeeds_iff lossless (Sample.wellFormed_tree c)]
    intro m member
    rcases Sample.nodes_tree c m member with rfl | part
    · exact b.expressible_tree notes has
    · exact Sample.expressible_parts _ m part
  · rintro ⟨n, rules, uses, renders⟩
    rw [Render.renders_iff, Render.node_succeeds_iff lossless rules] at renders
    exact b.has_of_uses notes uses renders.root

/-- If nothing but the feature may be missing, the report decides whether a tree has a text. -/
theorem renders_iff_reported (b : Builtin) (notes : Notes) (ctx : Context) {c : Capability}
    {n : Node} (gate : c ∈ Capability.gates) (rules : n.WellFormed) (uses : n.uses c)
    (otherwise : ((b.build notes).gaining c).Renders ctx n) :
    (b.build notes).Renders ctx n ↔ c.name ∈ (b.build notes).profile.names := by
  constructor
  · intro renders
    exact (b.feature_reported_iff notes ctx gate).mpr ⟨n, rules, uses, renders⟩
  · intro reported
    rwa [Dialect.gaining_of_has (Profile.mem_names_capability c |>.mp reported)] at otherwise

end Builtin

end Pushdown
