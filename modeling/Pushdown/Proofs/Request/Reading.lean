import Pushdown.Proofs.Syntax.WellFormed
import Pushdown.Request.Request

/-!
# What reading keeps

`Reading.Closed` says of a property of trees that it passes from the parts of an object to the node
that is made of them: inside the same scopes for most nodes, and inside those of a statement for its
clauses. One level of reading keeps such a property, so readers with any number of levels do, and
with them every request.
-/

namespace Pushdown

open Build (BuiltFrom)

theorem Read.build_eq_ok {α : Type} {result : Except ConstructionError α} {a : α} :
    Read.build result = .ok a ↔ result = .ok a := by
  cases result with
  | ok b => constructor <;> intro h <;> cases h <;> rfl
  | error e => constructor <;> intro h <;> cases h

theorem Object.refuse_ne_ok {α : Type} {o : Object} {flaw : Flaw} {a : α} :
    (o.refuse flaw : Read α) ≠ .ok a := by simp [Object.refuse, Read.refuse]

theorem Object.refuseAt_ne_ok {α : Type} {o : Object} {key : String} {flaw : Flaw} {a : α} :
    (o.refuseAt key flaw : Read α) ≠ .ok a := by simp [Object.refuseAt, Read.refuse]

theorem Object.refuseAt_bind {α β : Type} {o : Object} {key : String} {flaw : Flaw}
    {f : α → Read β} : (o.refuseAt key flaw >>= f : Read β) = o.refuseAt key flaw := rfl

/-! ## Properties of what is read -/

/-- Whether a node of the kind has its parts in the scopes that it stands in itself. -/
def Kind.isPlain : Kind → Bool
  | select | table | join | subSelect | column => false
  | _ => true

/-- The type of a column of the item: what the catalog says if it describes the table, and else
nothing. -/
def Catalog.Types (catalog : Catalog) (item : FromItem) (name : String) (type : DataType) : Prop :=
  if !item.derived && catalog.has item.table then catalog.type? item.table name = some type
  else type = {}

/-- The column has the names of the item that a request means by a table name and an alias, and the
type that the catalog gives to it. -/
structure Column.IsOf (c : Column) (catalog : Catalog) (item : FromItem) : Prop where
  table : c.table = item.table
  aliasName : c.aliasName = item.aliasName
  type : catalog.Types item c.name c.type

/-- A property of what is read: of a node inside the given scopes, and of a FROM item that changes
the scope inside the outer ones. -/
structure Reading where
  node : List Scope → Node → Prop
  fromItem : (outer : List Scope) → (before : Scope) → Node → (after : Scope) → Prop

namespace Reading

/-- The node has the property and is a value or a condition. -/
def operand (p : Reading) (scopes : List Scope) (n : Node) : Prop :=
  p.node scopes n ∧ n.isExpression

/-- The property passes from parts to what is made of them. -/
structure Closed (p : Reading) (catalog : Catalog) : Prop where
  part : ∀ {scopes kind exprs others n}, BuiltFrom kind exprs others n → kind.isPlain →
    (∀ c, some c ∈ exprs → p.operand scopes c) → (∀ c, some c ∈ others → p.node scopes c) →
    p.node scopes n
  column : ∀ {scopes c table aliasName item}, (Node.column c).KeepsRules →
    Scope.resolve? scopes table aliasName = some item → c.IsOf catalog item →
    p.node scopes (.column c)
  statement : ∀ {outer scope s}, (Node.select s).KeepsRules → (s.source = none → scope = {}) →
    (∀ item ∈ s.source, p.fromItem outer {} item scope) →
    p.node (scope :: outer) (.selectList s.list) → (∀ c ∈ s.after, p.node (scope :: outer) c) →
    (∀ c ∈ (Node.select s).operands, c.isExpression) → p.node outer (.select s)
  table : ∀ {outer scope scope' t}, (Node.table t).KeepsRules →
    scope.add? { table := t.name, aliasName := t.aliasName } = some scope' →
    p.fromItem outer scope (.table t) scope'
  join : ∀ {outer scope middle scope' type left right condition},
    (Node.join type left right condition).KeepsRules → p.fromItem outer scope left middle →
    p.fromItem outer middle right scope' → p.operand (scope' :: outer) condition →
    p.fromItem outer scope (.join type left right condition) scope'
  subSelect : ∀ {outer scope scope' s aliasName}, (Node.subSelect s aliasName).KeepsRules →
    p.node outer (.select s) →
    scope.add? { table := aliasName, aliasName, derived := true } = some scope' →
    p.fromItem outer scope (.subSelect s aliasName) scope'

end Reading

namespace Readers

/-- Everything that the readers return has the property. -/
structure Keeps (r : Readers) (p : Reading) : Prop where
  statement : ∀ {o scopes s}, r.statement o scopes = .ok s → p.node scopes (.select s)
  fromItem : ∀ {o outer scope n scope'}, r.fromItem o outer scope = .ok (n, scope') →
    p.fromItem outer scope n scope'
  expression : ∀ {o scopes n}, r.expression o scopes = .ok n → p.operand scopes n

namespace Keeps

variable {r : Readers} {p : Reading} (keeps : r.Keeps p) {o : Object} {key : String}
  {scopes : List Scope}

include keeps

theorem child {n : Node} (h : r.child o key scopes = .ok n) : p.operand scopes n := by
  simp only [Readers.child, bind_eq_ok] at h
  obtain ⟨_, _, h⟩ := h
  exact keeps.expression h

theorem child? {n : Option Node} (h : r.child? o key scopes = .ok n) :
    ∀ m ∈ n, p.operand scopes m := by
  unfold Readers.child? at h
  split at h
  · simp only [bind_eq_ok, pure_eq_ok] at h
    obtain ⟨m, read, rfl⟩ := h
    simpa using keeps.child read
  · simp only [pure_eq_ok] at h
    simp [← h]

theorem children {ns : List Node} (h : r.children o key scopes = .ok ns) :
    ∀ n ∈ ns, p.operand scopes n := by
  simp only [Readers.children, bind_eq_ok] at h
  obtain ⟨_, _, h⟩ := h
  intro n member
  obtain ⟨_, _, read⟩ := exists_of_mapM_eq_ok h member
  exact keeps.expression read

/-- The expressions in a list, as they are handed to the construction of a node. -/
theorem someChildren {ns : List Node} (h : r.children o key scopes = .ok ns) :
    ∀ n, some n ∈ ns.map some → p.operand scopes n := by
  intro n member
  obtain ⟨m, listed, same⟩ := List.mem_map.mp member
  exact Option.some.inj same ▸ keeps.children h m listed

theorem argument {n : Node} (h : r.argument o scopes = .ok n) : p.operand scopes n := by
  simp only [Readers.argument, bind_eq_ok] at h
  obtain ⟨args, read, h⟩ := h
  split at h
  · rename_i arg
    simp only [pure_eq_ok] at h
    exact h ▸ keeps.children read arg (by simp)
  · exact absurd h Object.refuseAt_ne_ok

theorem sortKey {key : SortKey Node} (h : r.sortKey scopes o = .ok key) :
    p.operand scopes key.expr := by
  simp only [Readers.sortKey, Object.refuseAt_bind, bind_eq_ok] at h
  obtain ⟨tag, _, h⟩ := h
  split at h
  · exact absurd h Object.refuseAt_ne_ok
  · simp only [bind_eq_ok, pure_eq_ok] at h
    obtain ⟨expr, read, _, _, _, _, rfl⟩ := h
    exact keeps.child read

variable {catalog : Catalog} (closed : p.Closed catalog)

include closed

theorem order? {keys : Option (List (SortKey Node))} (h : r.order? o scopes = .ok keys) :
    ∀ ks ∈ keys, p.node scopes (.orderBy ks) := by
  unfold Readers.order? at h
  split at h
  · simp only [pure_eq_ok] at h
    simp [← h]
  · simp only [bind_eq_ok, map_eq_ok, Read.build_eq_ok] at h
    obtain ⟨_, _, read, keysRead, ks, built, rfl⟩ := h
    intro _ given
    cases given
    refine closed.part (Build.orderBy_builtFrom built) rfl ?_ (by simp)
    intro c member
    obtain ⟨key, member, same⟩ := List.mem_map.mp member
    obtain ⟨_, _, keyRead⟩ := exists_of_mapM_eq_ok keysRead member
    exact Option.some.inj same ▸ keeps.sortKey keyRead

theorem sortKeys {keys : Option (List (SortKey Node))} (h : r.order? o scopes = .ok keys)
    {n : Node} (member : some n ∈ [keys.map Node.orderBy]) : p.node scopes n := by
  simp only [List.mem_singleton] at member
  obtain ⟨ks, same, rfl⟩ := Option.map_eq_some_iff.mp member.symm
  exact keeps.order? closed h ks same

end Keeps

end Readers

/-! ## Expressions -/

namespace Expression

variable {r : Readers} {p : Reading} {catalog : Catalog} (closed : p.Closed catalog) {o : Object}
  {scopes : List Scope} {n : Node}

include closed

/-- What is built from operands is one if its kind is that of a value or a condition. -/
theorem operand_of_builtFrom {kind : Kind} {exprs others : List (Option Node)}
    (built : BuiltFrom kind exprs others n) (plain : kind.isPlain) (expression : kind.isExpression)
    (operands : ∀ c, some c ∈ exprs → p.operand scopes c)
    (parts : ∀ c, some c ∈ others → p.node scopes c) : p.operand scopes n :=
  ⟨closed.part built plain operands parts, built.isExpression expression⟩

omit closed in
theorem columnType_eq_ok {item : FromItem} {name : String} {type : DataType}
    (h : columnType catalog o item name = .ok type) : catalog.Types item name type := by
  unfold columnType at h
  unfold Catalog.Types
  split at h
  · rename_i described
    rw [if_pos described]
    split at h
    · rename_i found
      cases h
      exact found
    · exact absurd h Object.refuseAt_ne_ok
  · rename_i other
    rw [if_neg other]
    cases h
    rfl

theorem column_operand (h : column catalog o scopes = .ok n) : p.operand scopes n := by
  simp only [column, Object.refuseAt_bind, bind_eq_ok] at h
  obtain ⟨name, _, table, _, aliasName, _, h⟩ := h
  split at h
  · exact absurd h Object.refuseAt_ne_ok
  split at h
  · exact absurd h Object.refuse_ne_ok
  · rename_i item found
    simp only [bind_eq_ok, Read.build_eq_ok, pure_eq_ok] at h
    obtain ⟨type, typed, c, built, index, _, rfl⟩ := h
    have rules := (Build.column_builtFrom built item.aliasName index).rules
    obtain rfl := Build.column_eq_ok built
    exact ⟨closed.column rules found ⟨rfl, rfl, columnType_eq_ok typed⟩, rfl⟩

theorem constant_operand {type : LiteralType} (h : constant o type = .ok n) :
    p.operand scopes n := by
  unfold constant at h
  split at h
  · simp only [map_eq_ok, Read.build_eq_ok] at h
    obtain ⟨l, built, rfl⟩ := h
    exact operand_of_builtFrom closed (Build.literal_builtFrom built) rfl rfl (by simp) (by simp)
  · simp only [bind_eq_ok, map_eq_ok, Read.build_eq_ok] at h
    obtain ⟨_, _, _, _, _, _, l, built, rfl⟩ := h
    exact operand_of_builtFrom closed (Build.intervalLiteral_builtFrom built) rfl rfl (by simp)
      (by simp)
  · simp only [bind_eq_ok, map_eq_ok, Read.build_eq_ok] at h
    obtain ⟨_, _, l, built, rfl⟩ := h
    exact operand_of_builtFrom closed (Build.literal_builtFrom built) rfl rfl (by simp) (by simp)

variable (keeps : r.Keeps p)

include keeps

theorem case_operand (h : case r o scopes = .ok n) : p.operand scopes n := by
  simp only [case, Object.refuseAt_bind, bind_eq_ok] at h
  obtain ⟨basis, basisRead, conditions, conditionsRead, results, resultsRead, h⟩ := h
  split at h
  · exact absurd h Object.refuseAt_ne_ok
  refine operand_of_builtFrom closed (Build.case_builtFrom (Read.build_eq_ok.mp h)) rfl rfl ?_
    (by simp)
  intro c member
  simp only [List.mem_cons, List.mem_flatMap] at member
  rcases member with rfl | last | ⟨branch, member, part⟩
  · exact keeps.child? basisRead c rfl
  · exact keeps.children resultsRead c (List.mem_of_getElem? last.symm)
  · rw [← List.map_uncurry_zip_eq_zipWith] at member
    obtain ⟨⟨condition, result⟩, pair, rfl⟩ := List.mem_map.mp member
    have inLists := List.of_mem_zip pair
    change some c = some condition ∨ some c = some result ∨ some c ∈ [] at part
    simp only [Option.some.injEq, List.not_mem_nil, or_false] at part
    rcases part with rfl | rfl
    · exact keeps.children conditionsRead c inLists.1
    · exact keeps.children resultsRead c inLists.2

theorem aggregate_operand (h : aggregate r o scopes = .ok n) : p.operand scopes n := by
  simp only [aggregate, bind_eq_ok, Read.build_eq_ok] at h
  obtain ⟨_, _, _, _, args, argsRead, filter, filterRead, h⟩ := h
  refine operand_of_builtFrom closed (Build.aggregate_builtFrom h) rfl rfl ?_ (by simp)
  intro c member
  rcases List.mem_cons.mp member with rfl | member
  · exact keeps.child? filterRead c rfl
  · exact keeps.someChildren argsRead c member

theorem groupConcat_operand (h : groupConcat r o scopes = .ok n) : p.operand scopes n := by
  simp only [groupConcat, bind_eq_ok] at h
  obtain ⟨distinct, _, arg, argRead, order, orderRead, h⟩ := h
  obtain ⟨separator, h⟩ : ∃ separator,
      Build.groupConcat (some arg) distinct order separator = .ok n := by
    split at h
    · simp only [bind_eq_ok, Read.build_eq_ok] at h
      exact ⟨_, h.choose_spec.2⟩
    · simp only [bind_eq_ok, Read.build_eq_ok] at h
      exact ⟨_, h.choose_spec.2⟩
  refine operand_of_builtFrom closed (Build.groupConcat_builtFrom h) rfl rfl ?_
    fun c => keeps.sortKeys closed orderRead
  simpa using keeps.argument argRead

theorem window_operand (h : window r o scopes = .ok n) : p.operand scopes n := by
  simp only [window, bind_eq_ok] at h
  obtain ⟨name, _, args, argsRead, parts, partsRead, order, orderRead, h⟩ := h
  obtain ⟨bounds, h⟩ : ∃ bounds,
      Build.window name (args.map some) (parts.map some) order bounds = .ok n := by
    split at h
    · simp only [bind_eq_ok, Read.build_eq_ok] at h
      exact ⟨_, h.choose_spec.2⟩
    · simp only [bind_eq_ok, Read.build_eq_ok] at h
      exact ⟨_, h.choose_spec.2⟩
  refine operand_of_builtFrom closed (Build.window_builtFrom h) rfl rfl ?_
    fun c => keeps.sortKeys closed orderRead
  intro c member
  rcases List.mem_append.mp member with member | member
  · exact keeps.someChildren argsRead c member
  · exact keeps.someChildren partsRead c member

theorem tagged_operand {tag : String} (h : tagged r catalog o scopes tag = .ok n) :
    p.operand scopes n := by
  unfold tagged at h
  split at h
  case h_1 => exact column_operand closed h
  case h_2 =>
    simp only [bind_eq_ok, Read.build_eq_ok] at h
    obtain ⟨ns, read, built⟩ := h
    exact operand_of_builtFrom closed (Build.and_builtFrom built) rfl rfl (keeps.someChildren read)
      (by simp)
  case h_3 =>
    simp only [bind_eq_ok, Read.build_eq_ok] at h
    obtain ⟨ns, read, built⟩ := h
    exact operand_of_builtFrom closed (Build.or_builtFrom built) rfl rfl (keeps.someChildren read)
      (by simp)
  case h_4 =>
    simp only [bind_eq_ok, Read.build_eq_ok] at h
    obtain ⟨m, read, built⟩ := h
    exact operand_of_builtFrom closed (Build.not_builtFrom built) rfl rfl
      (by simpa using keeps.child read) (by simp)
  case h_5 =>
    simp only [bind_eq_ok, Read.build_eq_ok] at h
    obtain ⟨expr, exprRead, pattern, patternRead, escape, escapeRead, built⟩ := h
    refine operand_of_builtFrom closed (Build.like_builtFrom built) rfl rfl ?_ (by simp)
    simpa using ⟨keeps.child exprRead, keeps.child patternRead,
      fun c given => keeps.child? escapeRead c given.symm⟩
  case h_6 =>
    simp only [bind_eq_ok, Read.build_eq_ok] at h
    obtain ⟨expr, exprRead, pattern, patternRead, built⟩ := h
    refine operand_of_builtFrom closed (Build.regexpLike_builtFrom built) rfl rfl ?_ (by simp)
    simpa using ⟨keeps.child exprRead, keeps.child patternRead⟩
  case h_7 =>
    simp only [bind_eq_ok, Read.build_eq_ok] at h
    obtain ⟨expr, exprRead, low, lowRead, high, highRead, built⟩ := h
    refine operand_of_builtFrom closed (Build.between_builtFrom built) rfl rfl ?_ (by simp)
    simpa using ⟨keeps.child exprRead, keeps.child lowRead, keeps.child highRead⟩
  case h_8 =>
    simp only [bind_eq_ok, Read.build_eq_ok] at h
    obtain ⟨expr, exprRead, values, valuesRead, built⟩ := h
    refine operand_of_builtFrom closed (Build.inList_builtFrom built) rfl rfl ?_ (by simp)
    simpa using ⟨keeps.child exprRead, keeps.children valuesRead⟩
  case h_9 =>
    simp only [bind_eq_ok, Read.build_eq_ok] at h
    obtain ⟨expr, exprRead, _, _, s, statementRead, built⟩ := h
    refine operand_of_builtFrom closed (Build.inSubquery_builtFrom built) rfl rfl ?_ ?_
    · simpa using keeps.child exprRead
    · simpa using keeps.statement statementRead
  case h_10 =>
    simp only [bind_eq_ok, Read.build_eq_ok] at h
    obtain ⟨m, read, built⟩ := h
    exact operand_of_builtFrom closed (Build.isNull_builtFrom built) rfl rfl
      (by simpa using keeps.child read) (by simp)
  case h_11 =>
    simp only [bind_eq_ok, Read.build_eq_ok] at h
    obtain ⟨m, read, built⟩ := h
    exact operand_of_builtFrom closed (Build.isNotNull_builtFrom built) rfl rfl
      (by simpa using keeps.child read) (by simp)
  case h_12 =>
    simp only [bind_eq_ok, Read.build_eq_ok] at h
    obtain ⟨_, _, args, argsRead, built⟩ := h
    exact operand_of_builtFrom closed (Build.function_builtFrom built) rfl rfl
      (keeps.someChildren argsRead) (by simp)
  case h_13 =>
    simp only [bind_eq_ok, Read.build_eq_ok] at h
    obtain ⟨_, _, arg, argRead, built⟩ := h
    exact operand_of_builtFrom closed (Build.extract_builtFrom built) rfl rfl
      (by simpa using keeps.argument argRead) (by simp)
  case h_14 =>
    simp only [bind_eq_ok, Read.build_eq_ok] at h
    obtain ⟨_, _, _, _, arg, argRead, built⟩ := h
    exact operand_of_builtFrom closed (Build.cast_builtFrom built) rfl rfl
      (by simpa using keeps.argument argRead) (by simp)
  case h_15 => exact case_operand closed keeps h
  case h_16 => exact aggregate_operand closed keeps h
  case h_17 => exact groupConcat_operand closed keeps h
  case h_18 => exact window_operand closed keeps h
  case h_19 => exact absurd h Object.refuseAt_ne_ok

theorem read_operand (h : read r catalog o scopes = .ok n) : p.operand scopes n := by
  simp only [read, bind_eq_ok] at h
  obtain ⟨tag, _, h⟩ := h
  split at h
  · simp only [bind_eq_ok, Read.build_eq_ok] at h
    obtain ⟨left, leftRead, right, rightRead, built⟩ := h
    refine operand_of_builtFrom closed (Build.comparison_builtFrom built) rfl rfl ?_ (by simp)
    simpa using ⟨keeps.child leftRead, keeps.child rightRead⟩
  · exact constant_operand closed h
  · exact tagged_operand closed keeps h

end Expression

/-! ## Statements -/

namespace StatementReader

variable {r : Readers} {p : Reading} {catalog : Catalog} (closed : p.Closed catalog) {o : Object}
  {outer : List Scope} {scope scope' : Scope} {n : Node}

include closed

theorem table_fromItem (h : table o scope = .ok (n, scope')) : p.fromItem outer scope n scope' := by
  simp only [table, bind_eq_ok, Read.build_eq_ok] at h
  obtain ⟨name, _, aliasName, _, t, built, h⟩ := h
  split at h
  · rename_i added
    simp only [pure_eq_ok, Prod.mk.injEq] at h
    obtain ⟨rfl, rfl⟩ := h
    have rules := (Build.table_builtFrom built).rules
    obtain rfl := Build.table_eq_ok built
    exact closed.table rules added
  · exact absurd h Object.refuse_ne_ok

variable (keeps : r.Keeps p)

include keeps

theorem join_fromItem (h : join r o outer scope = .ok (n, scope')) :
    p.fromItem outer scope n scope' := by
  simp only [join, bind_eq_ok] at h
  obtain ⟨name, _, h⟩ := h
  split at h
  · exact absurd h Object.refuseAt_ne_ok
  · simp only [bind_eq_ok, Read.build_eq_ok, pure_eq_ok, Prod.exists] at h
    obtain ⟨_, _, left, _, leftRead, _, _, right, _, rightRead, condition, conditionRead, m, built,
      same⟩ := h
    obtain ⟨rfl, rfl⟩ := Prod.mk.inj same
    have rules := (Build.join_builtFrom built).rules
    obtain rfl := Build.join_eq_ok built
    exact closed.join rules (keeps.fromItem leftRead) (keeps.fromItem rightRead)
      (keeps.child conditionRead)

theorem derivedTable_fromItem (h : derivedTable r o outer scope = .ok (n, scope')) :
    p.fromItem outer scope n scope' := by
  simp only [derivedTable, bind_eq_ok, Read.build_eq_ok] at h
  obtain ⟨aliasName, _, _, _, s, statementRead, m, built, h⟩ := h
  split at h
  · rename_i added
    simp only [pure_eq_ok, Prod.mk.injEq] at h
    obtain ⟨rfl, rfl⟩ := h
    have rules := (Build.subSelect_builtFrom built).rules
    obtain rfl := Build.subSelect_eq_ok built
    exact closed.subSelect rules (keeps.statement statementRead) added
  · exact absurd h Object.refuseAt_ne_ok

theorem fromItem_fromItem (h : fromItem r o outer scope = .ok (n, scope')) :
    p.fromItem outer scope n scope' := by
  simp only [fromItem, bind_eq_ok] at h
  obtain ⟨tag, _, h⟩ := h
  split at h
  · exact table_fromItem closed h
  · exact join_fromItem closed keeps h
  · exact derivedTable_fromItem closed keeps h
  · exact absurd h Object.refuseAt_ne_ok

theorem selectList_node {scopes : List Scope} {list : SelectList Node}
    (h : selectList r o scopes = .ok list) : p.node scopes (.selectList list) := by
  unfold selectList at h
  split at h
  · simp only [pure_eq_ok] at h
    subst h
    have star : BuiltFrom .selectList [] [] (.selectList { star := true }) :=
      .ofChildren rfl (by simp [Node.KeepsRules]) (by simp [Node.children])
    exact closed.part star rfl (by simp) (by simp)
  · simp only [bind_eq_ok, Read.build_eq_ok] at h
    obtain ⟨_, _, items, itemsRead, built⟩ := h
    refine closed.part (Build.selectList_builtFrom built) rfl ?_ (by simp)
    intro c member
    obtain ⟨item, member, same⟩ := List.mem_map.mp member
    obtain ⟨_, _, itemRead⟩ := exists_of_mapM_eq_ok itemsRead member
    simp only [bind_eq_ok, pure_eq_ok] at itemRead
    obtain ⟨expr, exprRead, _, _, rfl⟩ := itemRead
    exact Option.some.inj same ▸ keeps.expression exprRead

theorem grouping?_node {scopes : List Scope} {grouping : Option (List Node)}
    (h : grouping? r o scopes = .ok grouping) :
    ∀ exprs ∈ grouping, p.node scopes (.groupBy exprs) := by
  unfold grouping? at h
  split at h
  · simp only [pure_eq_ok] at h
    simp [← h]
  · simp only [bind_eq_ok, map_eq_ok, Read.build_eq_ok] at h
    obtain ⟨parts, partsRead, exprs, built, rfl⟩ := h
    intro _ given
    cases given
    exact closed.part (Build.groupBy_builtFrom built) rfl (keeps.someChildren partsRead) (by simp)

omit keeps in
theorem limit?_node {scopes : List Scope} {limit : Option Limit} (h : limit? o = .ok limit) :
    ∀ l ∈ limit, p.node scopes (.limit l) := by
  simp only [limit?, Object.refuseAt_bind] at h
  split at h
  · simp only [pure_eq_ok] at h
    simp [← h]
  · simp only [bind_eq_ok] at h
    obtain ⟨o, _, h⟩ := h
    split at h
    · exact absurd h Object.refuseAt_ne_ok
    · simp only [bind_eq_ok, map_eq_ok, Read.build_eq_ok] at h
      obtain ⟨_, _, _, _, l, built, rfl⟩ := h
      intro _ given
      cases given
      exact closed.part (Build.limit_builtFrom built) rfl (by simp) (by simp)

theorem read_node {s : Statement} (h : read r o outer = .ok s) : p.node outer (.select s) := by
  simp only [read, Object.refuseAt_bind, bind_eq_ok] at h
  obtain ⟨tag, _, h⟩ := h
  split at h
  · exact absurd h Object.refuseAt_ne_ok
  -- The FROM clause may be absent; either way the other clauses are read inside its scope.
  obtain ⟨source, scope, absent, sourced, h⟩ : ∃ source scope, (source = none → scope = {}) ∧
      (∀ item ∈ source, p.fromItem outer {} item scope) ∧
      (do
        let scopes := scope :: outer
        let list ← selectList r o scopes
        let filter ← r.child? o "filter" scopes
        let aggregation ← aggregation o
        let grouping ← grouping? r o scopes
        let having ← r.child? o "having" scopes
        let order ← r.order? o scopes
        let limit ← limit? o
        Read.build (Build.select (some list) [.source source, .filter filter,
          .aggregation aggregation, .grouping grouping, .having having, .order order,
          .limit limit])) = .ok s := by
    split at h
    · simp only [bind_eq_ok, map_eq_ok, Prod.exists] at h
      obtain ⟨source, scope, ⟨item, _, ⟨_, _, itemRead⟩, same⟩, h⟩ := h
      obtain ⟨rfl, rfl⟩ := Prod.mk.inj same
      exact ⟨some item, _, by simp, by simpa using keeps.fromItem itemRead,
        by simpa only [bind_eq_ok] using h⟩
    · exact ⟨none, {}, by simp, by simp, h⟩
  simp only [bind_eq_ok, Read.build_eq_ok] at h
  obtain ⟨list, listRead, filter, filterRead, aggregation, _, grouping, groupingRead, having,
    havingRead, order, orderRead, limit, limitRead, built⟩ := h
  have rules := (Build.select_builtFrom built).rules
  obtain rfl := Build.select_eq_ok built
  refine closed.statement rules absent sourced (selectList_node closed keeps listRead) ?_ ?_
  · intro c member
    simp only [Select.after, List.mem_append, Option.mem_toList, Option.map_eq_some_iff] at member
    rcases member with (((given | ⟨exprs, given, rfl⟩) | given) | ⟨keys, given, rfl⟩) | ⟨l, given, rfl⟩
    · exact (keeps.child? filterRead c given).1
    · exact grouping?_node closed keeps groupingRead exprs given
    · exact (keeps.child? havingRead c given).1
    · exact keeps.order? closed orderRead keys given
    · exact limit?_node closed limitRead l given
  · intro c member
    simp only [Node.operands, List.mem_append, Option.mem_toList] at member
    rcases member with given | given
    · exact (keeps.child? filterRead c given).2
    · exact (keeps.child? havingRead c given).2

end StatementReader

/-! ## Requests -/

/-- A document that is given by its characters. -/
theorem Object.readDocument_ofList (cs : List Char) :
    Object.readDocument (String.ofList cs) = if Json.isNull cs then .refuse [] .nullObject
      else ofMembers [] (Json.members? (cs.takeWhile (· != Char.ofNat 0))) := by
  simp [Object.readDocument, Json.content]

theorem Request.exists_of_toOption {text : String} {α : Type} {f : PushdownRequest → α} {a : α}
    (h : (Request.readPushdown text).toOption.map f = some a) :
    ∃ r, Request.readPushdown text = .ok r ∧ f r = a := by
  cases read : Request.readPushdown text with
  | error e => simp [read, Except.toOption] at h
  | ok r => exact ⟨r, rfl, by simpa [read, Except.toOption] using h⟩

/-- The statement of a request is read with the catalog of its tables. -/
theorem PushdownRequest.read_eq_ok {root : Object} {schema : Schema} {r : PushdownRequest}
    (h : PushdownRequest.read root schema = .ok r) :
    r.catalog = .ofTables r.schema.name r.tables ∧ ∃ o s, r.statement = some s ∧
      (Readers.within r.catalog maxDepth).statement o [] = .ok s := by
  simp only [PushdownRequest.read, bind_eq_ok, pure_eq_ok] at h
  obtain ⟨_, _, _, _, o, _, s, statementRead, rfl⟩ := h
  exact ⟨rfl, o, s, rfl, statementRead⟩

/-- A request holds a pushdown if its type says so, and the pushdown is for its schema. -/
theorem Request.read_eq_ok {text : String} {r : Request} (h : Request.read text = .ok r) :
    (r.type = .pushdown ∧
      ∃ root p, r.pushdown = some p ∧ PushdownRequest.read root r.schema = .ok p) ∨
    r.type ≠ .pushdown ∧ r.pushdown = none := by
  simp only [Request.read, Request.ofObject, bind_eq_ok] at h
  obtain ⟨root, _, type, _, read⟩ := h
  obtain ⟨schema, described⟩ : ∃ schema : Schema,
      (if type = .pushdown then
        (do return { type, schema, pushdown := some (← PushdownRequest.read root schema) })
      else return { type, schema } : Read Request) = .ok r := by
    split at read
    · simp only [bind_eq_ok] at read
      obtain ⟨_, _, schema, _, read⟩ := read
      exact ⟨schema, read⟩
    · exact ⟨{}, read⟩
  split at described
  · rename_i pushes
    simp only [bind_eq_ok, pure_eq_ok] at described
    obtain ⟨p, pushdownRead, rfl⟩ := described
    exact .inl ⟨pushes, root, p, rfl, pushdownRead⟩
  · rename_i other
    simp only [pure_eq_ok] at described
    subst described
    exact .inr ⟨other, rfl⟩

theorem Request.readPushdown_eq_ok {text : String} {r : PushdownRequest}
    (h : Request.readPushdown text = .ok r) :
    ∃ root schema, PushdownRequest.read root schema = .ok r := by
  simp only [Request.readPushdown, bind_eq_ok] at h
  obtain ⟨request, read, h⟩ := h
  rcases Request.read_eq_ok read with ⟨-, root, p, given, pushdownRead⟩ | ⟨-, none⟩
  · simp only [given, pure_eq_ok] at h
    subst h
    exact ⟨root, request.schema, pushdownRead⟩
  · simp [none, Read.refuse] at h

/-- The pushdown of a request that is accepted is one that is accepted alone. -/
theorem Request.readPushdown_of_read {text : String} {r : Request}
    (accepted : Request.read text = .ok r) {p : PushdownRequest} (given : r.pushdown = some p) :
    Request.readPushdown text = .ok p := by
  simp only [Request.readPushdown, accepted, bind, Except.bind, given]
  rfl

/-- Only requests of one type are read as pushdowns. -/
theorem Request.type_of_readPushdown {text : String} {q : PushdownRequest}
    (read : Request.readPushdown text = .ok q) {r : Request} (whole : Request.read text = .ok r) :
    r.type = .pushdown := by
  rcases Request.read_eq_ok whole with ⟨type, -⟩ | ⟨-, none⟩
  · exact type
  · simp [Request.readPushdown, whole, none, Read.refuse, bind, Except.bind] at read

namespace Reading.Closed

variable {p : Reading}

/-- Readers with any number of levels keep the property. -/
theorem within_keeps {catalog : Catalog} (closed : p.Closed catalog) (room : Nat) :
    (Readers.within catalog room).Keeps p := by
  induction room with
  | zero =>
    exact ⟨fun h => absurd h Object.refuse_ne_ok, fun h => absurd h Object.refuse_ne_ok,
      fun h => absurd h Object.refuse_ne_ok⟩
  | succ room ih =>
    exact ⟨StatementReader.read_node closed ih, StatementReader.fromItem_fromItem closed ih,
      Expression.read_operand closed ih⟩

/-- The statement of a request that has been read has the property. -/
theorem readPushdown_node {text : String} {r : PushdownRequest} (closed : p.Closed r.catalog)
    (h : Request.readPushdown text = .ok r) :
    ∃ s, r.statement = some s ∧ p.node [] (.select s) := by
  obtain ⟨root, schema, read⟩ := Request.readPushdown_eq_ok h
  obtain ⟨-, o, s, stated, statementRead⟩ := PushdownRequest.read_eq_ok read
  exact ⟨s, stated, (closed.within_keeps maxDepth).statement statementRead⟩

end Reading.Closed

end Pushdown
