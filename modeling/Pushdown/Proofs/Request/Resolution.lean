import Pushdown.Proofs.Request.Catalog
import Pushdown.Proofs.Request.WellFormed
import Pushdown.Proofs.Syntax.Scoping

/-!
# Resolved columns

Every column of a request that has been read has the names and the type of the FROM item that it was
resolved to, and that item belongs to the statement that the column stands in or to one around it.

Reading resolves a column by what the request calls its table, and a statement refers to the table
by `Column.qualifier`. The two agree unless a statement in between has an item of the same name.
-/

namespace Pushdown

/-! ## Nearest levels -/

/-- The first result in a list, with the number of places before it. -/
def nearest? {α β : Type} (f : α → Option β) : List α → Option (Nat × β)
  | [] => none
  | a :: rest =>
    match f a with
    | some b => some (0, b)
    | none => (nearest? f rest).map fun found => (found.1 + 1, found.2)

theorem nearest?_eq_some_iff {α β : Type} {f : α → Option β} {l : List α} {k : Nat} {b : β} :
    nearest? f l = some (k, b) ↔ ∃ before a after, l = before ++ a :: after ∧ before.length = k ∧
      f a = some b ∧ ∀ x ∈ before, f x = none := by
  induction l generalizing k b with
  | nil => simp [nearest?]
  | cons first rest ih =>
    cases found : f first with
    | some c =>
      constructor
      · intro same
        obtain ⟨rfl, rfl⟩ : 0 = k ∧ c = b := by simpa [nearest?, found] using same
        exact ⟨[], first, rest, rfl, rfl, found, by simp⟩
      · rintro ⟨before, a, after, split, rfl, here, nothing⟩
        cases before with
        | nil =>
          obtain ⟨rfl, -⟩ := List.cons.inj split
          simp [nearest?, here]
        | cons x before =>
          obtain ⟨rfl, -⟩ := List.cons.inj split
          simp [nothing first (by simp)] at found
    | none =>
      simp only [nearest?, found, Option.map_eq_some_iff, Prod.exists, Prod.mk.injEq, ih]
      constructor
      · rintro ⟨_, _, ⟨before, a, after, rfl, rfl, here, nothing⟩, rfl, rfl⟩
        exact ⟨first :: before, a, after, rfl, rfl, here, by simpa [found] using nothing⟩
      · rintro ⟨before, a, after, split, rfl, here, nothing⟩
        cases before with
        | nil =>
          obtain ⟨rfl, -⟩ := List.cons.inj split
          simp [found] at here
        | cons x before =>
          obtain ⟨rfl, rfl⟩ := List.cons.inj split
          exact ⟨before.length, b, ⟨before, a, after, rfl, rfl, here, fun x member =>
            nothing x (List.mem_cons_of_mem _ member)⟩, rfl, rfl⟩

namespace Level

/-- The item that a request means by a table name and an alias at a place, with the number of
statements between. -/
def resolve? (levels : List Level) (table aliasName : String) : Option (Nat × FromItem) :=
  nearest? (fun l => l.introduced.find? table aliasName) levels

/-- The item that a name refers to at a place, with the number of statements between. -/
def lookup? (levels : List Level) (name : String) : Option (Nat × FromItem) :=
  nearest? (fun l => l.visible.find? (·.reference == name)) levels

/-- Reading resolves what the levels of the place have introduced. -/
theorem exists_resolve? {levels : List Level} {table aliasName : String} {item : FromItem}
    (h : Scope.resolve? (levels.map (·.introduced)) table aliasName = some item) :
    ∃ depth, resolve? levels table aliasName = some (depth, item) := by
  rw [Scope.resolve?, List.findSome?_map, List.findSome?_eq_some_iff] at h
  obtain ⟨before, level, after, rfl, found, none⟩ := h
  exact ⟨before.length, nearest?_eq_some_iff.mpr ⟨before, level, after, rfl, rfl, found, none⟩⟩

/-- What a column was resolved to belongs to a statement around it, and no nearer statement has
introduced an item that the column could mean. -/
theorem exists_of_resolve? {levels : List Level} {table aliasName : String} {depth : Nat}
    {item : FromItem} (h : resolve? levels table aliasName = some (depth, item)) :
    ∃ level, levels[depth]? = some level ∧ level.introduced.find? table aliasName = some item ∧
      ∀ l ∈ levels.take depth, l.introduced.find? table aliasName = none := by
  obtain ⟨before, level, after, rfl, rfl, found, nothing⟩ := nearest?_eq_some_iff.mp h
  exact ⟨level, by simp, found, by simpa using nothing⟩

/-- A name finds an item if the item is visible and no nearer item has the name. -/
theorem lookup?_reference_iff {levels : List Level} (sound : ∀ l ∈ levels, l.Sound) {depth : Nat}
    {level : Level} (here : levels[depth]? = some level) {item : FromItem} :
    lookup? levels item.reference = some (depth, item) ↔ item ∈ level.visible ∧
      ∀ l ∈ levels.take depth, item.reference ∉ l.visible.map (·.reference) := by
  have absent (l : Level) : l.visible.find? (·.reference == item.reference) = none ↔
      item.reference ∉ l.visible.map (·.reference) := by
    simp
  rw [lookup?, nearest?_eq_some_iff]
  constructor
  · rintro ⟨before, other, after, rfl, rfl, found, nothing⟩
    obtain rfl : other = level := by simpa using here
    exact ⟨List.mem_of_find?_eq_some found, fun l member =>
      (absent l).mp (nothing l (by simpa using member))⟩
  · rintro ⟨visible, nothing⟩
    obtain ⟨inside, rfl⟩ := List.getElem?_eq_some_iff.mp here
    refine ⟨levels.take depth, levels[depth], levels.drop (depth + 1), ?_, ?_, ?_, ?_⟩
    · rw [List.getElem_cons_drop, List.take_append_drop]
    · rw [List.length_take, Nat.min_eq_left (Nat.le_of_lt inside)]
    · exact (sound _ (List.getElem_mem inside)).find?_visible visible
    · exact fun l member => (absent l).mpr (nothing l member)

end Level

/-! ## Scopes -/

namespace Scope

theorem mem_of_named? {s : Scope} {name : String} {item : FromItem}
    (h : s.named? name = some item) : item ∈ s.items ∧ item.reference = name :=
  ⟨List.mem_of_find?_eq_some h, by simpa using List.find?_some h⟩

theorem mem_of_find? {s : Scope} {table aliasName : String} {item : FromItem}
    (h : s.find? table aliasName = some item) : item ∈ s.items := by
  unfold find? at h
  split at h
  · exact (mem_of_named? h).1
  · split at h
    · cases h
      rename_i named
      exact (mem_of_named? named).1
    · split at h
      · rename_i alone
        cases h
        exact List.mem_of_mem_filter (alone ▸ List.mem_singleton_self _)
      · contradiction

/-- What a request calls an item: its alias if there is one. -/
def calledName (table aliasName : String) : String := if aliasName = "" then table else aliasName

/-- A scope in which a column means nothing has no item of the name that the column calls. -/
theorem reference_ne_of_find? {s : Scope} {table aliasName : String}
    (h : s.find? table aliasName = none) {item : FromItem} (member : item ∈ s.items) :
    item.reference ≠ calledName table aliasName := by
  have unnamed : s.named? (calledName table aliasName) = none := by
    unfold find? at h
    unfold calledName
    split at h
    · rename_i given
      rwa [if_neg given]
    · rename_i given
      rw [if_pos (not_ne_iff.mp given)]
      split at h
      · contradiction
      · assumption
  simpa using List.find?_eq_none.mp unnamed item member

theorem items_of_add? {s t : Scope} {item : FromItem} (h : s.add? item = some t) :
    t.items = s.items ++ [item] ∧ ∀ other ∈ s.items, other.reference ≠ item.reference := by
  unfold add? at h
  split at h
  · contradiction
  · rename_i free
    cases h
    have unnamed : s.named? item.reference = none := by simpa using free
    exact ⟨rfl, fun other member => by simpa using List.find?_eq_none.mp unnamed other member⟩

/-- The names of a scope stay apart. -/
theorem nodup_of_add? {s t : Scope} {item : FromItem} (h : s.add? item = some t)
    (apart : (s.items.map (·.reference)).Nodup) : (t.items.map (·.reference)).Nodup := by
  obtain ⟨items, free⟩ := items_of_add? h
  rw [items, List.map_append, List.nodup_append]
  refine ⟨apart, List.nodup_singleton _, ?_⟩
  rintro _ first _ second rfl
  obtain ⟨other, member, same⟩ := List.mem_map.mp first
  rw [List.map_singleton, List.mem_singleton] at second
  exact free other member (same.trans second)

end Scope

theorem Column.IsOf.qualifier_eq {c : Column} {catalog : Catalog} {item : FromItem}
    (h : c.IsOf catalog item) : c.qualifier = item.reference := by
  by_cases named : item.aliasName = "" <;>
    simp [Column.qualifier, FromItem.reference, h.table, h.aliasName, named]

/-! ## Reading -/

/-- The column was resolved to an item at its place. -/
def Column.Resolves (catalog : Catalog) (levels : List Level) (c : Column) : Prop :=
  (∀ l ∈ levels, l.Sound) ∧ ∃ table aliasName depth item,
    Level.resolve? levels table aliasName = some (depth, item) ∧ c.IsOf catalog item

/-- Every column in the tree was resolved. -/
def Node.Resolved (catalog : Catalog) (levels : List Level) (n : Node) : Prop :=
  n.Throughout (fun levels m => ∀ c, m = .column c → c.Resolves catalog levels) levels

/-- Whatever statements are around a place, if they have introduced what the scopes hold, then the
columns are resolved. A FROM item is put into the scope. -/
def Reading.resolved (catalog : Catalog) : Reading where
  node scopes n := ∀ levels, levels.map (·.introduced) = scopes → (∀ l ∈ levels, l.Sound) →
    n.Resolved catalog levels
  fromItem outer before n after := after.items = before.items ++ n.fromItems ∧
    ((before.items.map (·.reference)).Nodup → (after.items.map (·.reference)).Nodup) ∧
    ∀ level levels, level.introduced = before → levels.map (·.introduced) = outer →
      (∀ l ∈ level :: levels, l.Sound) → after.items ⊆ level.items →
      n.Resolved catalog (level :: levels)

namespace Reading

variable {catalog : Catalog}

theorem inner_of_isPlain {n : Node} (plain : n.kind.isPlain) (levels : List Level) :
    n.inner levels = n.children.map (levels, ·) := by
  cases n <;> simp_all [Node.kind, Kind.isPlain, Node.inner]

/-- A node that introduces nothing is resolved if its children are. -/
theorem resolved_of_plain {n : Node} (plain : n.kind.isPlain) {levels : List Level}
    (each : ∀ c ∈ n.children, c.Resolved catalog levels) : n.Resolved catalog levels := by
  refine Node.throughout_iff.mpr ⟨?_, ?_⟩
  · rintro c rfl
    simp [Node.kind, Kind.isPlain] at plain
  · rw [inner_of_isPlain plain, List.forall_mem_map]
    exact each

theorem resolved_statement {outer : List Scope} {scope : Scope} {s : Statement}
    (absent : s.source = none → scope = {})
    (sourced : ∀ item ∈ s.source, (resolved catalog).fromItem outer {} item scope)
    (list : (resolved catalog).node (scope :: outer) (.selectList s.list))
    (after : ∀ c ∈ s.after, (resolved catalog).node (scope :: outer) c) :
    (resolved catalog).node outer (.select s) := by
  intro levels introduced sound
  have items : scope = ⟨s.fromItems⟩ := by
    unfold Select.fromItems
    cases source : s.source with
    | none => exact absent source
    | some item =>
      have same : scope.items = item.fromItems := (sourced item source).1
      simp [← same]
  have apart : (s.fromItems.map (·.reference)).Nodup := by
    unfold Select.fromItems
    cases source : s.source with
    | none => exact List.nodup_nil
    | some item =>
      have kept := (sourced item source).2.1 List.nodup_nil
      rwa [items, Select.fromItems, source] at kept
  have behind : ∀ l ∈ Level.behind s :: levels, l.Sound := by
    simpa using ⟨.behind apart, sound⟩
  have inside : (Level.behind s :: levels).map (·.introduced) = scope :: outer := by
    rw [List.map_cons, introduced, items]
    rfl
  refine Node.throughout_iff.mpr ⟨by simp, fun p member => ?_⟩
  simp only [Node.inner, List.mem_cons, List.mem_append, List.mem_map, Option.mem_toList] at member
  rcases member with rfl | ⟨item, given, rfl⟩ | ⟨clause, given, rfl⟩
  · exact list _ inside behind
  · refine (sourced item given).2.2 _ _ rfl introduced ?_ ?_
    · simpa using ⟨.opening apart, sound⟩
    · rw [items]
      exact fun _ listed => listed
  · exact after clause given _ inside behind

theorem resolved_join {outer : List Scope} {scope middle scope' : Scope} {type : JoinType}
    {left right condition : Node} (hl : (resolved catalog).fromItem outer scope left middle)
    (hr : (resolved catalog).fromItem outer middle right scope')
    (hc : (resolved catalog).node (scope' :: outer) condition) :
    (resolved catalog).fromItem outer scope (.join type left right condition) scope' := by
  obtain ⟨leftItems, leftApart, leftResolved⟩ := hl
  obtain ⟨rightItems, rightApart, rightResolved⟩ := hr
  have items : scope'.items = scope.items ++ (left.fromItems ++ right.fromItems) := by
    rw [rightItems, leftItems, List.append_assoc]
  refine ⟨by rw [items, Node.fromItems], fun apart => rightApart (leftApart apart), ?_⟩
  intro level levels introduced outside sound listed
  have top : level.Sound := sound level (by simp)
  have others : ∀ l ∈ levels, l.Sound := fun l member => sound l (List.mem_cons_of_mem _ member)
  have all : level.introduced.items ++ (left.fromItems ++ right.fromItems) ⊆ level.items := by
    rw [introduced, ← items]
    exact listed
  have first : middle.items ⊆ level.items := by
    refine fun i member => listed ?_
    rw [rightItems]
    exact List.mem_append_left _ member
  refine Node.throughout_iff.mpr ⟨by simp, fun p member => ?_⟩
  simp only [Node.inner, List.modifyHead_cons, List.mem_cons, List.not_mem_nil, or_false] at member
  rcases member with rfl | rfl | rfl
  · exact leftResolved _ _ introduced outside sound first
  · refine rightResolved _ _ ?_ outside ?_ listed
    · rw [Level.introduce, introduced, ← leftItems]
    · refine List.forall_mem_cons.mpr ⟨top.introduce ?_, others⟩
      rw [introduced, ← leftItems]
      exact first
  · refine hc _ ?_ (List.forall_mem_cons.mpr ⟨top.joining all, others⟩)
    rw [List.map_cons, outside, Level.joining, Level.introduce, introduced, ← items]

theorem resolved_closed (catalog : Catalog) : (resolved catalog).Closed catalog where
  part := by
    intro scopes kind exprs others n built plain operands parts levels introduced sound
    refine resolved_of_plain (by rwa [built.kind_eq]) fun c child => ?_
    rcases List.mem_append.mp (built.children c child) with operand | part
    · exact (operands c operand).1 levels introduced sound
    · exact parts c part levels introduced sound
  column := by
    rintro scopes c table aliasName item - found known levels rfl sound
    obtain ⟨depth, resolved⟩ := Level.exists_resolve? found
    refine Node.throughout_iff.mpr ⟨?_, by simp [Node.inner, Node.children]⟩
    rintro _ ⟨⟩
    exact ⟨sound, table, aliasName, depth, item, resolved, known⟩
  statement _ absent sourced list after _ := resolved_statement absent sourced list after
  table := by
    intro outer scope scope' t _ added
    refine ⟨(Scope.items_of_add? added).1, Scope.nodup_of_add? added, ?_⟩
    intro level levels _ _ _ _
    exact Node.throughout_iff.mpr ⟨by simp, by simp [Node.inner, Node.children]⟩
  join _ left right condition := resolved_join left right condition.1
  subSelect := by
    intro outer scope scope' s aliasName _ statement added
    refine ⟨(Scope.items_of_add? added).1, Scope.nodup_of_add? added, ?_⟩
    intro level levels _ outside sound _
    refine Node.throughout_iff.mpr ⟨by simp, fun p member => ?_⟩
    rw [Node.inner, List.mem_singleton] at member
    subst member
    exact statement levels outside fun l member => sound l (List.mem_cons_of_mem _ member)

end Reading

/-! ## Requests -/

def Node.column? : Node → Option Column
  | column c => some c
  | _ => none

/-- The columns of a request, each with the statements around it. -/
def PushdownRequest.columns (r : PushdownRequest) : List (List Level × Column) :=
  (r.statement.toList.flatMap fun s => (Node.select s).places []).filterMap fun p =>
    p.2.column?.map (p.1, ·)

theorem PushdownRequest.mem_columns {r : PushdownRequest} {s : Statement}
    (stated : r.statement = some s) {levels : List Level} {c : Column} :
    (levels, c) ∈ r.columns ↔ (levels, .column c) ∈ (Node.select s).places [] := by
  simp only [columns, stated, Option.toList_some, List.flatMap_cons, List.flatMap_nil,
    List.append_nil, List.mem_filterMap, Option.map_eq_some_iff, Prod.mk.injEq]
  constructor
  · rintro ⟨⟨others, n⟩, member, _, column, rfl, rfl⟩
    cases n <;> simp [Node.column?] at column
    exact column ▸ member
  · intro member
    exact ⟨_, member, c, rfl, rfl, rfl⟩

/-- No column is left out. -/
theorem PushdownRequest.map_snd_columns {r : PushdownRequest} {s : Statement}
    (stated : r.statement = some s) :
    r.columns.map (·.2) = (Node.select s).nodes.filterMap Node.column? := by
  rw [← Node.map_snd_places [], List.filterMap_map]
  simp only [columns, stated, Option.toList_some, List.flatMap_cons, List.flatMap_nil,
    List.append_nil, List.map_filterMap, Option.map_map, Function.comp_def, Option.map_id']

/-- Every column of a request that has been read was resolved. -/
theorem Request.readPushdown_resolved {text : String} {r : PushdownRequest}
    (read : Request.readPushdown text = .ok r) {levels : List Level} {c : Column}
    (placed : (levels, c) ∈ r.columns) : c.Resolves r.catalog levels := by
  obtain ⟨s, stated, resolved⟩ := (Reading.resolved_closed r.catalog).readPushdown_node read
  exact resolved [] rfl (by simp) _ ((PushdownRequest.mem_columns stated).mp placed) c rfl

/-- Every column of a request belongs to a FROM item of the statement that it stands in or of one
around it. It has the names of that item, and the type that the tables of the request give to it; if
they do not describe the item, nothing is known of its type. -/
theorem Request.column_of_fromItem {text : String} {r : PushdownRequest}
    (read : Request.readPushdown text = .ok r) :
    r.catalog = .ofTables r.schema.name r.tables ∧
      (∃ s, r.statement = some s ∧
        r.columns.map (·.2) = (Node.select s).nodes.filterMap Node.column?) ∧
      ∀ levels c, (levels, c) ∈ r.columns →
        ∃ level ∈ levels, ∃ source, level.statement.source = some source ∧
          c.qualifier ∈ source.sources ∧
          ∃ item ∈ source.fromItems, item.reference = c.qualifier ∧ c.table = item.table ∧
            c.aliasName = item.aliasName ∧
            (item.derived = false ∧ item.table ∈ r.tables.map (·.name) →
              r.catalog.type? c.table c.name = some c.type) ∧
            (item.derived = true ∨ item.table ∉ r.tables.map (·.name) → c.type = {}) := by
  obtain ⟨root, schema, described⟩ := Request.readPushdown_eq_ok read
  obtain ⟨catalog, -, s, stated, -⟩ := PushdownRequest.read_eq_ok described
  refine ⟨catalog, ⟨s, stated, PushdownRequest.map_snd_columns stated⟩, fun levels c placed => ?_⟩
  obtain ⟨sound, table, aliasName, depth, item, resolved, known⟩ :=
    Request.readPushdown_resolved read placed
  obtain ⟨level, here, found, -⟩ := Level.exists_of_resolve? resolved
  have around : level ∈ levels := List.mem_of_getElem? here
  have member : item ∈ level.items := (sound level around).introduced (Scope.mem_of_find? found)
  obtain ⟨source, given, listed⟩ : ∃ source, level.statement.source = some source ∧
      item ∈ source.fromItems := by
    unfold Level.items Select.fromItems at member
    cases given : level.statement.source with
    | none => simp [given] at member
    | some source => exact ⟨source, rfl, by simpa [given] using member⟩
  have type := known.type
  rw [Catalog.Types] at type
  refine ⟨level, around, source, given, ?_, item, listed, known.qualifier_eq.symm, known.table,
    known.aliasName, ?_, ?_⟩
  · rw [Node.sources_eq_map, known.qualifier_eq]
    exact List.mem_map_of_mem listed
  · rintro ⟨base, described⟩
    rw [← Catalog.has_ofTables Dbml.plain_keeps r.schema.name, ← catalog] at described
    rw [known.table]
    simpa [base, described] using type
  · intro unknown
    rw [← Catalog.has_ofTables Dbml.plain_keeps r.schema.name, ← catalog] at unknown
    rwa [if_neg (by simpa [or_iff_not_imp_left] using unknown)] at type

set_option maxRecDepth 10000 in
/-- A statement inside another one may refer to the items of both, and a derived table only to its
own. -/
theorem Request.correlated_column_of_fromItem :
    let text := "\x7b\"type\":\"pushdown\",\"involvedTables\":[\x7b\"name\":\"USERS\",
      \"columns\":[\x7b\"name\":\"ID\",\"dataType\":\x7b\"type\":\"BOOLEAN\"\x7d\x7d]\x7d],
      \"pushdownRequest\":\x7b\"type\":\"select\",\"from\":\x7b\"type\":\"sub_select\",
      \"alias\":\"T\",\"select\":\x7b\"type\":\"select\",\"from\":\x7b\"type\":\"table\",
      \"name\":\"USERS\"\x7d,\"selectList\":[\x7b\"type\":\"column\",\"name\":\"ID\",
      \"tableName\":\"USERS\"\x7d]\x7d\x7d,\"filter\":\x7b\"type\":\"predicate_in_subselect\",
      \"expression\":\x7b\"type\":\"column\",\"name\":\"ID\",\"tableName\":\"T\"\x7d,
      \"select\":\x7b\"type\":\"select\",\"from\":\x7b\"type\":\"table\",\"name\":\"CLICKS\"\x7d,
      \"selectList\":[\x7b\"type\":\"column\",\"name\":\"ID\",
      \"tableName\":\"T\"\x7d]\x7d\x7d\x7d\x7d"
    ∃ r, Request.readPushdown text = .ok r ∧
      r.columns.map (fun p => (p.2.qualifier, p.1.map (·.items.map (·.reference)))) =
        [("USERS", [["USERS"]]), ("T", [["T"]]), ("T", [["CLICKS"], ["T"]])] ∧
      ∀ levels c, (levels, c) ∈ r.columns → ∃ level ∈ levels, ∃ source,
        level.statement.source = some source ∧ c.qualifier ∈ source.sources := by
  intro text
  have same : text = String.ofList _ := rfl
  have shown : (Request.readPushdown text).toOption.map (fun r =>
      r.columns.map fun p => (p.2.qualifier, p.1.map (·.items.map (·.reference)))) =
      some [("USERS", [["USERS"]]), ("T", [["T"]]), ("T", [["CLICKS"], ["T"]])] := by
    rw [same, Request.readPushdown, Request.read, Object.readDocument_ofList]
    decide +kernel
  obtain ⟨r, read, listed⟩ := Request.exists_of_toOption shown
  refine ⟨r, read, listed, fun levels c placed => ?_⟩
  obtain ⟨level, around, source, given, named, -⟩ :=
    (Request.column_of_fromItem read).2.2 levels c placed
  exact ⟨level, around, source, given, named⟩

end Pushdown
