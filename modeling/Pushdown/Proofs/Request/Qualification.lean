import Pushdown.Dialect.Builtin
import Pushdown.Proofs.Request.Resolution
import Pushdown.Sql.Render

/-!
# Columns in statements

A statement shows a column by its name alone or behind the name of its FROM item. Two things may go
wrong: a name alone may mean a column of another item, and the name of an item may mean another item
nearer to the column. This module says exactly when neither happens.

Columns are qualified if the request describes several tables, whatever the FROM clauses introduce.
A request may call an item by the name of its table, but the statement calls it by its alias.
-/

namespace Pushdown

/-- A column stands without a qualifier if it has no alias and there are not several tables. -/
theorem Render.column_eq_name_iff {d : Dialect} {ctx : Context} {c : Column} (named : c.table ≠ "") :
    Render.column d ctx c = [.name c.name] ↔ c.aliasName = "" ∧ ctx.multipleTables = false := by
  have tabled : (tableName d ctx c.table ++ Sql.raw "." ++ [.name c.name]) ≠ [.name c.name] := by
    intro same
    have length := congrArg List.length same
    simp [Sql.raw] at length
  unfold column
  split
  · rename_i given
    simp [given, Sql.raw]
  · rename_i absent
    have absent : c.aliasName = "" := by simpa using absent
    split
    · rename_i several
      simpa [several.1] using tabled
    · rename_i single
      simpa [absent, named] using single

example : let c : Column := { table := "T", name := "A" }
    Render.column (Builtin.sqlite.build {}) {} c = [.name "A"] ∧
      Render.column (Builtin.sqlite.build {}) {} { c with aliasName := "S" } ≠ [.name "A"] := by
  decide +kernel

namespace Request

variable {text : String} {r : PushdownRequest} (read : Request.readPushdown text = .ok r)
  {levels : List Level} {c : Column} (placed : (levels, c) ∈ r.columns)

include read placed

theorem column_keepsRules : (Node.column c).KeepsRules := by
  obtain ⟨s, stated, wellPlaced⟩ := Request.readPushdown_wellPlaced read
  have place := (PushdownRequest.mem_columns stated).mp placed
  have member : Node.column c ∈ (Node.select s).nodes := by
    rw [← Node.map_snd_places []]
    exact List.mem_map_of_mem place
  exact (wellPlaced _ member).1

theorem column_shows : Node.Shows levels c := by
  obtain ⟨s, stated, wellPlaced⟩ := Request.readPushdown_wellPlaced read
  refine Node.shows_of_wellFormed wellPlaced.wellFormed (.inr fun c inside => ?_) _
    ((PushdownRequest.mem_columns stated).mp placed) c rfl
  -- A walk that does not enter statements ends at the root.
  rw [Node.walk_eq, if_neg (by simp [Node.kind])] at inside
  simp at inside

/-- A column that stands without a qualifier belongs to the only FROM item of the innermost
statement around it exactly if it was resolved there and that statement has no more FROM items than
the request describes tables, or one. -/
theorem unqualified_column_iff (d : Dialect) {ctx : Context}
    (counted : ctx.multipleTables = r.hasMultipleTables)
    (bare : Render.column d ctx c = [.name c.name]) :
    ∃ table aliasName depth item level,
      Level.resolve? levels table aliasName = some (depth, item) ∧ c.IsOf r.catalog item ∧
      levels.head? = some level ∧
      (depth = 0 ∧ level.items = [item] ↔
        depth = 0 ∧ level.items.length ≤ max 1 r.tables.length) := by
  obtain ⟨sound, table, aliasName, depth, item, resolved, known⟩ :=
    Request.readPushdown_resolved read placed
  obtain ⟨level, here, found, -⟩ := Level.exists_of_resolve? resolved
  have single : r.tables.length ≤ 1 := by
    have rules := column_keepsRules read placed
    have count := ((Render.column_eq_name_iff rules.2).mp bare).2
    rw [counted, PushdownRequest.hasMultipleTables, decide_eq_false_iff_not] at count
    omega
  cases levels with
  | nil => simp at here
  | cons top outer =>
    refine ⟨table, aliasName, depth, item, top, resolved, known, rfl,
      and_congr_right fun innermost => ?_⟩
    subst innermost
    obtain rfl : top = level := by simpa using here
    have member : item ∈ top.items := (sound top (by simp)).introduced (Scope.mem_of_find? found)
    constructor
    · intro alone
      rw [alone]
      exact Nat.le_max_left ..
    · intro few
      obtain ⟨other, alone⟩ := List.length_eq_one_iff.mp
        (Nat.le_antisymm (by omega) (List.length_pos_of_mem member))
      rw [alone, List.mem_singleton] at member
      rw [alone, member]

set_option maxRecDepth 10000 in
omit read placed in
/-- The only table of a statement needs no qualifier. -/
theorem unqualified_column_of_single_table :
    let text := "\x7b\"type\":\"pushdown\",\"involvedTables\":[\x7b\"name\":\"T\",
      \"columns\":[\x7b\"name\":\"A\",\"dataType\":\x7b\"type\":\"BOOLEAN\"\x7d\x7d]\x7d],
      \"pushdownRequest\":\x7b\"type\":\"select\",\"from\":\x7b\"type\":\"table\",
      \"name\":\"T\"\x7d,\"selectList\":[\x7b\"type\":\"column\",\"name\":\"A\",
      \"tableName\":\"T\"\x7d]\x7d\x7d"
    ∃ r levels c item level, Request.readPushdown text = .ok r ∧ (levels, c) ∈ r.columns ∧
      Render.column (Builtin.postgreSql.build {}) { multipleTables := r.hasMultipleTables } c =
        [.name "A"] ∧
      c.IsOf r.catalog item ∧ levels.head? = some level ∧ level.items = [item] := by
  intro text
  have same : text = String.ofList _ := rfl
  have shown : (Request.readPushdown text).toOption.map (fun r => (r.hasMultipleTables,
      r.columns.map fun p => (p.2, p.1.map (·.items)))) =
      some (false, [({ table := "T", name := "A", type := { kind := .boolean } }, [[{ table := "T" }]])]) := by
    rw [same, Request.readPushdown, Request.read, Object.readDocument_ofList]
    decide +kernel
  obtain ⟨r, read, listed⟩ := Request.exists_of_toOption shown
  obtain ⟨several, listed⟩ := Prod.mk.inj listed
  obtain ⟨⟨levels, c⟩, whole, found⟩ := List.map_eq_singleton_iff.mp listed
  obtain ⟨rfl, items⟩ := Prod.mk.inj found
  obtain ⟨level, rfl, introduced⟩ := List.map_eq_singleton_iff.mp items
  have placed : ([level], { table := "T", name := "A", type := { kind := .boolean } }) ∈ r.columns :=
    whole ▸ List.mem_singleton_self _
  have bare : Render.column (Builtin.postgreSql.build {})
      { multipleTables := r.hasMultipleTables }
      { table := "T", name := "A", type := { kind := .boolean } } = [.name "A"] :=
    (Render.column_eq_name_iff (by decide)).mpr ⟨rfl, several⟩
  obtain ⟨table, aliasName, depth, item, first, resolved, known, innermost, alone⟩ :=
    unqualified_column_iff read placed (Builtin.postgreSql.build {}) rfl bare
  obtain rfl : level = first := Option.some.inj innermost
  obtain ⟨_, here, -⟩ := Level.exists_of_resolve? resolved
  have nearest : depth = 0 := by
    have inside := (List.getElem?_eq_some_iff.mp here).1
    simpa using inside
  have few : level.items.length ≤ max 1 r.tables.length := by
    rw [introduced]
    exact Nat.le_max_left ..
  exact ⟨r, _, _, item, level, read, placed, bare, known, rfl, (alone.mpr ⟨nearest, few⟩).2⟩

set_option maxRecDepth 10000 in
omit read placed in
/-- A table that the request does not describe makes a name ambiguous: with both tables in the FROM
clause, columns stand without a qualifier. -/
theorem unqualified_column_of_two_tables :
    let text := "\x7b\"type\":\"pushdown\",\"involvedTables\":[\x7b\"name\":\"T\",
      \"columns\":[\x7b\"name\":\"A\",\"dataType\":\x7b\"type\":\"BOOLEAN\"\x7d\x7d]\x7d],
      \"pushdownRequest\":\x7b\"type\":\"select\",\"from\":\x7b\"type\":\"join\",
      \"join_type\":\"inner\",\"left\":\x7b\"type\":\"table\",\"name\":\"T\"\x7d,
      \"right\":\x7b\"type\":\"table\",\"name\":\"U\"\x7d,
      \"condition\":\x7b\"type\":\"predicate_equal\",\"left\":\x7b\"type\":\"column\",
      \"name\":\"A\",\"tableName\":\"T\"\x7d,\"right\":\x7b\"type\":\"column\",\"name\":\"B\",
      \"tableName\":\"U\"\x7d\x7d\x7d,\"selectList\":[\x7b\"type\":\"column\",\"name\":\"A\",
      \"tableName\":\"T\"\x7d]\x7d\x7d"
    ∃ r levels c level, Request.readPushdown text = .ok r ∧ (levels, c) ∈ r.columns ∧
      Render.column (Builtin.postgreSql.build {}) { multipleTables := r.hasMultipleTables } c =
        [.name "A"] ∧
      levels.head? = some level ∧ level.items = [{ table := "T" }, { table := "U" }] := by
  intro text
  have same : text = String.ofList _ := rfl
  have shown : (Request.readPushdown text).toOption.map (fun r => (r.hasMultipleTables,
      (r.columns.map fun p => (p.2, p.1.map (·.items))).head?)) =
      some (false, some ({ table := "T", name := "A", type := { kind := .boolean } },
        [[{ table := "T" }, { table := "U" }]])) := by
    rw [same, Request.readPushdown, Request.read, Object.readDocument_ofList]
    decide +kernel
  obtain ⟨r, read, listed⟩ := Request.exists_of_toOption shown
  obtain ⟨several, listed⟩ := Prod.mk.inj listed
  rw [List.head?_map, Option.map_eq_some_iff] at listed
  obtain ⟨⟨levels, c⟩, first, found⟩ := listed
  obtain ⟨first_eq, items⟩ := Prod.mk.inj found
  obtain ⟨level, rfl, introduced⟩ := List.map_eq_singleton_iff.mp items
  have bare : Render.column (Builtin.postgreSql.build {})
      { multipleTables := r.hasMultipleTables } c = [.name "A"] := by
    have of : c = { table := "T", name := "A", type := { kind := .boolean } } := first_eq
    rw [of]
    exact (Render.column_eq_name_iff (by decide)).mpr ⟨rfl, several⟩
  exact ⟨r, _, c, level, read, List.mem_of_head? first, bare, rfl, introduced⟩

end Request

end Pushdown
