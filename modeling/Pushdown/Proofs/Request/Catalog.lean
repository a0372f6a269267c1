import Mathlib.Data.List.Forall2
import Pushdown.Proofs.Dictionary
import Pushdown.Request.Catalog

/-!
# What a catalog holds

Of several descriptions of a table the first counts, and of several columns of one name in it the
last. Both rules are said here about the list of descriptions that a catalog is made from:
`Catalog.Describes` and `TableInfo.Finds`. The catalog itself is made of a project, which is put
together in one pass over the descriptions, and of an index of the project. `Draft.Holds` relates
the tables of the project to the descriptions that are kept, and each lookup in the index is then
the same lookup in these descriptions. Nothing is known of the library that the project is made with
but that it keeps what it is given: `Dbml.Keeps`.
-/

namespace Pushdown

/-- The library keeps what it is given, in the order in which it is given. -/
structure Dbml.Keeps (D : Dbml) : Prop where
  columnName (name type : String) : D.columnName (D.newColumn name type) = name
  columnType (name type : String) : D.columnType (D.newColumn name type) = type
  tableName (name : String) : D.tableName (D.newTable name) = name
  columns (name : String) : D.columns (D.newTable name) = []
  tableName_addColumn (table : D.Table) (column : Ref D.Column) :
    D.tableName (D.addColumn table column) = D.tableName table
  columns_addColumn (table : D.Table) (column : Ref D.Column) :
    D.columns (D.addColumn table column) = D.columns table ++ [column]
  projectName (name : String) : D.projectName (D.newProject name) = name
  tables (name : String) : D.tables (D.newProject name) = []
  projectName_addTable (project : D.Project) (table : D.Table) :
    D.projectName (D.addTable project table) = D.projectName project
  tables_addTable (project : D.Project) (table : D.Table) :
    D.tables (D.addTable project table) = D.tables project ++ [table]

theorem Dbml.plain_keeps : Dbml.plain.Keeps := by
  constructor <;> intros <;> rfl

/-! ## The descriptions that count -/

/-- The column is the last of its name in the description. -/
def TableInfo.Finds (t : TableInfo) (column : String) (found : ColumnInfo) : Prop :=
  ∃ before after, t.columns = before ++ found :: after ∧ found.name = column ∧
    ∀ other ∈ after, other.name ≠ column

theorem TableInfo.find?_eq_some_iff {t : TableInfo} {column : String} {found : ColumnInfo} :
    t.columns.reverse.find? (·.name == column) = some found ↔ t.Finds column found := by
  rw [List.find?_eq_some_iff_append]
  constructor
  · rintro ⟨named, after, before, split, others⟩
    refine ⟨before.reverse, after.reverse, ?_, by simpa using named, by simpa using others⟩
    rw [← List.reverse_reverse t.columns, split]
    simp
  · rintro ⟨before, after, split, named, others⟩
    exact ⟨by simpa using named, after.reverse, before.reverse, by simp [split],
      by simpa using others⟩

namespace Catalog

/-- The description is the first of its table in the list. -/
def Describes (tables : List TableInfo) (table : String) (t : TableInfo) : Prop :=
  ∃ before after, tables = before ++ t :: after ∧ t.name = table ∧
    ∀ other ∈ before, other.name ≠ table

theorem find?_eq_some_iff {tables : List TableInfo} {table : String} {t : TableInfo} :
    tables.find? (·.name == table) = some t ↔ Describes tables table t := by
  rw [List.find?_eq_some_iff_append]
  constructor
  · rintro ⟨named, before, after, split, others⟩
    exact ⟨before, after, split, by simpa using named, by simpa using others⟩
  · rintro ⟨before, after, split, named, others⟩
    exact ⟨by simpa using named, before, after, split, by simpa using others⟩

/-- The first description of each table; `seen` names those that came before. -/
def firstDescriptions (seen : List String) : List TableInfo → List TableInfo
  | [] => []
  | t :: rest =>
    if t.name ∈ seen then firstDescriptions seen rest
    else t :: firstDescriptions (t.name :: seen) rest

/-- What is kept of the descriptions of a table is the first, or nothing if the table is known
already. -/
theorem find?_firstDescriptions (seen : List String) (tables : List TableInfo) (table : String) :
    (firstDescriptions seen tables).find? (·.name == table) =
      if table ∈ seen then none else tables.find? (·.name == table) := by
  induction tables generalizing seen with
  | nil => simp [firstDescriptions]
  | cons t tables ih =>
    rw [firstDescriptions]
    by_cases known : t.name ∈ seen
    · rw [if_pos known, ih]
      by_cases same : t.name = table
      · subst same
        rw [if_pos known, if_pos known]
      · simp [same]
    · rw [if_neg known]
      by_cases same : t.name = table
      · subst same
        simp [known]
      · simp [same, Ne.symm same, ih]

/-- The kept descriptions stand in the order in which their tables first appear. -/
theorem map_firstDescriptions (seen : List String) (tables : List TableInfo) :
    (firstDescriptions seen tables).map (·.name) =
      ((tables.map (·.name)).filter (· ∉ seen)).eraseDups := by
  induction tables generalizing seen with
  | nil => rfl
  | cons t tables ih =>
    rw [firstDescriptions, List.map_cons]
    by_cases known : t.name ∈ seen
    · rw [if_pos known, ih, List.filter_cons_of_neg (by simpa using known)]
    · rw [if_neg known, List.filter_cons_of_pos (by simpa using known), List.eraseDups_cons,
        List.filter_filter, List.map_cons, ih]
      congr 2
      apply List.filter_congr
      intro name _
      by_cases same : name = t.name <;> simp [same]

/-- Each kept description is of a table that was not known, and no other of the table stands
before it. -/
theorem describes_of_mem {seen : List String} {tables : List TableInfo} {t : TableInfo}
    (kept : t ∈ firstDescriptions seen tables) : t.name ∉ seen ∧ Describes tables t.name t := by
  induction tables generalizing seen with
  | nil => simp [firstDescriptions] at kept
  | cons first tables ih =>
    have later {seen} (kept : t ∈ firstDescriptions seen tables) (apart : first.name ≠ t.name) :
        Describes (first :: tables) t.name t := by
      obtain ⟨before, after, split, -, others⟩ := (ih kept).2
      exact ⟨first :: before, after, by rw [split, List.cons_append], rfl,
        List.forall_mem_cons.mpr ⟨apart, others⟩⟩
    rw [firstDescriptions] at kept
    by_cases known : first.name ∈ seen
    · rw [if_pos known] at kept
      have fresh := (ih kept).1
      exact ⟨fresh, later kept fun same => fresh (same ▸ known)⟩
    · rw [if_neg known] at kept
      rcases List.mem_cons.mp kept with rfl | kept
      · exact ⟨known, [], tables, rfl, rfl, by simp⟩
      · obtain ⟨other, fresh⟩ := not_or.mp (mt List.mem_cons.mpr (ih kept).1)
        exact ⟨fresh, later kept (Ne.symm other)⟩

theorem nodup_firstDescriptions (seen : List String) (tables : List TableInfo) :
    ((firstDescriptions seen tables).map (·.name)).Nodup := by
  induction tables generalizing seen with
  | nil => exact List.nodup_nil
  | cons t tables ih =>
    rw [firstDescriptions]
    split
    · exact ih seen
    · refine List.nodup_cons.mpr ⟨fun again => ?_, ih _⟩
      obtain ⟨other, kept, same⟩ := List.mem_map.mp again
      exact (describes_of_mem kept).1 (same ▸ List.mem_cons_self ..)

theorem find?_reverse_of_nodup {ts : List TableInfo} (distinct : (ts.map (·.name)).Nodup)
    (table : String) : ts.reverse.find? (·.name == table) = ts.find? (·.name == table) := by
  induction ts with
  | nil => rfl
  | cons t ts ih =>
    obtain ⟨apart, distinct⟩ := List.nodup_cons.mp distinct
    rw [List.reverse_cons, List.find?_append, ih distinct, List.find?_cons, List.find?_cons]
    cases same : t.name == table with
    | true =>
      have none : ts.find? (·.name == table) = none := by
        rw [List.find?_eq_none]
        intro other member named
        rw [← eq_of_beq same, beq_iff_eq] at named
        exact apart (List.mem_map.mpr ⟨other, member, named⟩)
      rw [none]
      rfl
    | false => exact Option.or_none

/-- The description of a column: the last of its name in the first description of its table. -/
def description? (tables : List TableInfo) (table column : String) : Option ColumnInfo :=
  (tables.find? (·.name == table)).bind fun t => t.columns.reverse.find? (·.name == column)

theorem description?_eq_some_iff {tables : List TableInfo} {table column : String}
    {found : ColumnInfo} :
    description? tables table column = some found ↔
      ∃ t, Describes tables table t ∧ t.Finds column found := by
  simp only [description?, Option.bind_eq_some_iff, find?_eq_some_iff, TableInfo.find?_eq_some_iff]

/-! ## Putting the project together -/

variable {D : Dbml}

namespace Draft

/-- The stored column is the one that is described, and its type is known. -/
structure Stored (d : Draft D) (column : Ref D.Column) (c : ColumnInfo) : Prop where
  name : D.columnName column.value = c.name
  type : D.columnType column.value = c.type.display
  typed : d.types.get? column.address = some c.type
  below : column.address < d.free

/-- The table has the described columns, in the same order. -/
structure Holds (d : Draft D) (table : D.Table) (t : TableInfo) : Prop where
  name : D.tableName table = t.name
  columns : List.Forall₂ d.Stored (D.columns table) t.columns

/-- What is stored stays as it is. -/
structure Extends (d d' : Draft D) : Prop where
  free : d.free ≤ d'.free
  types : ∀ address < d.free, d'.types.get? address = d.types.get? address

variable {d d' d'' : Draft D}

theorem Extends.refl (d : Draft D) : d.Extends d := ⟨Nat.le_refl _, fun _ _ => rfl⟩

theorem Extends.trans (h : d.Extends d') (h' : d'.Extends d'') : d.Extends d'' where
  free := Nat.le_trans h.free h'.free
  types address below :=
    (h'.types address (Nat.lt_of_lt_of_le below h.free)).trans (h.types address below)

theorem Stored.extends {column : Ref D.Column} {c : ColumnInfo} (h : d.Stored column c)
    (more : d.Extends d') : d'.Stored column c where
  name := h.name
  type := h.type
  typed := (more.types _ h.below).trans h.typed
  below := Nat.lt_of_lt_of_le h.below more.free

theorem Holds.extends {table : D.Table} {t : TableInfo} (h : d.Holds table t)
    (more : d.Extends d') : d'.Holds table t :=
  ⟨h.name, h.columns.imp fun _ _ stored => stored.extends more⟩

/-- The columns have been stored and added to the table, and nothing else has changed. -/
structure AddsColumns (s s' : Draft D × D.Table) (cs : List ColumnInfo) : Prop where
  grows : s.1.Extends s'.1
  project : s'.1.project = s.1.project
  seen : s'.1.seen = s.1.seen
  name : D.tableName s'.2 = D.tableName s.2
  columns : ∃ added, D.columns s'.2 = D.columns s.2 ++ added ∧ List.Forall₂ s'.1.Stored added cs

variable (keeps : D.Keeps)

include keeps

theorem addColumn_adds (s : Draft D × D.Table) (c : ColumnInfo) :
    AddsColumns s (addColumn s c) [c] := by
  obtain ⟨d, table⟩ := s
  refine ⟨⟨Nat.le_succ _, fun address below => ?_⟩, rfl, rfl, keeps.tableName_addColumn .., ?_⟩
  · -- The new column is stored behind all others.
    have other : (address == d.free) = false := beq_false_of_ne (Nat.ne_of_lt below)
    exact (Dictionary.get?_insert d.free address c.type).trans (by rw [other]; rfl)
  · refine ⟨_, keeps.columns_addColumn .., .cons ?_ .nil⟩
    refine ⟨keeps.columnName .., keeps.columnType .., ?_, Nat.lt_succ_self _⟩
    exact (Dictionary.get?_insert d.free d.free c.type).trans (by rw [BEq.rfl]; rfl)

theorem foldl_addColumn_adds (s : Draft D × D.Table) (cs : List ColumnInfo) :
    AddsColumns s (cs.foldl addColumn s) cs := by
  induction cs generalizing s with
  | nil => exact ⟨.refl _, rfl, rfl, rfl, [], by simp, .nil⟩
  | cons c cs ih =>
    have first := addColumn_adds keeps s c
    have rest := ih (addColumn s c)
    obtain ⟨new, newColumns, stored⟩ := first.columns
    obtain ⟨added, columns, others⟩ := rest.columns
    rw [List.foldl_cons]
    refine ⟨first.grows.trans rest.grows, rest.project.trans first.project,
      rest.seen.trans first.seen, rest.name.trans first.name, new ++ added, ?_, ?_⟩
    · rw [columns, newColumns, List.append_assoc]
    · exact List.rel_append (stored.imp fun _ _ h => h.extends rest.grows) others

omit keeps in
theorem addTable_seen {t : TableInfo} (known : t.name ∈ d.seen) : d.addTable t = d := by
  simp [addTable, known]

omit keeps in
theorem map_tableName {built : List D.Table} {ts : List TableInfo}
    (holds : List.Forall₂ d.Holds built ts) : built.map D.tableName = ts.map (·.name) := by
  induction holds with
  | nil => rfl
  | cons first _ ih => rw [List.map_cons, List.map_cons, first.name, ih]

/-- Tables have been added for the descriptions, and what was there before is the same. -/
structure AddsTables (d d' : Draft D) (ts : List TableInfo) : Prop where
  grows : d.Extends d'
  name : D.projectName d'.project = D.projectName d.project
  tables : ∃ added, D.tables d'.project = D.tables d.project ++ added ∧
    List.Forall₂ d'.Holds added ts

theorem addTable_adds {t : TableInfo} (fresh : t.name ∉ d.seen) :
    AddsTables d (d.addTable t) [t] ∧ (d.addTable t).seen = t.name :: d.seen := by
  have adds := foldl_addColumn_adds keeps ({ d with seen := t.name :: d.seen }, D.newTable t.name)
    t.columns
  have added : d.addTable t = (fun s : Draft D × D.Table =>
      { s.1 with project := D.addTable s.1.project s.2 }) (t.columns.foldl addColumn
        ({ d with seen := t.name :: d.seen }, D.newTable t.name)) := by
    simp [addTable, fresh]
  rw [added]
  generalize t.columns.foldl addColumn _ = s at adds
  obtain ⟨columns, holds, stored⟩ := adds.columns
  refine ⟨⟨⟨adds.grows.free, adds.grows.types⟩, ?_, [s.2], ?_, .cons ⟨?_, ?_⟩ .nil⟩, adds.seen⟩
  · exact (keeps.projectName_addTable ..).trans (congrArg D.projectName adds.project)
  · exact (keeps.tables_addTable ..).trans (by rw [adds.project])
  · exact adds.name.trans (keeps.tableName t.name)
  · rw [keeps.columns, List.nil_append] at holds
    rw [holds]
    exact stored.imp fun _ _ h => ⟨h.name, h.type, h.typed, h.below⟩

/-- One table is added for the first description of each table that has not been described yet. -/
theorem addTables_adds (d : Draft D) (ts : List TableInfo) :
    AddsTables d (d.addTables ts) (firstDescriptions d.seen ts) ∧
      ∀ name, name ∈ (d.addTables ts).seen ↔ name ∈ d.seen ∨ name ∈ ts.map (·.name) := by
  induction ts generalizing d with
  | nil => exact ⟨⟨.refl d, rfl, [], by simp [addTables], .nil⟩, by simp [addTables]⟩
  | cons t ts ih =>
    have step : d.addTables (t :: ts) = (d.addTable t).addTables ts := rfl
    rw [step, firstDescriptions]
    by_cases known : t.name ∈ d.seen
    · rw [addTable_seen known, if_pos known]
      refine ⟨(ih d).1, fun name => ?_⟩
      rw [(ih d).2, List.map_cons, List.mem_cons]
      constructor
      · exact Or.imp_right .inr
      · rintro (before | rfl | later)
        · exact .inl before
        · exact .inl known
        · exact .inr later
    · obtain ⟨first, seen⟩ := addTable_adds keeps known
      obtain ⟨rest, others⟩ := ih (d.addTable t)
      rw [if_neg known, ← seen]
      obtain ⟨new, newTables, holds⟩ := first.tables
      obtain ⟨added, tables, more⟩ := rest.tables
      refine ⟨⟨first.grows.trans rest.grows, rest.name.trans first.name, new ++ added, ?_, ?_⟩,
        fun name => ?_⟩
      · rw [tables, newTables, List.append_assoc]
      · exact List.rel_append (holds.imp fun _ _ h => h.extends rest.grows) more
      · rw [others, seen, List.map_cons, List.mem_cons, List.mem_cons, or_assoc, or_left_comm]

end Draft

/-! ## Looking up -/

theorem index_eq (project : D.Project) (types : Dictionary Nat DataType) :
    index project types =
      { project, types
        tables := .ofList ((D.tables project).map fun table => (D.tableName table, table))
        fields := .ofList
          ((D.tables project).map fun table => (D.tableName table, columnsByName table)) } := by
  have folded (tables : List D.Table) (c : Catalog D) :
      tables.foldl (fun c table =>
        { c with
          tables := c.tables.insert (D.tableName table) table
          fields := c.fields.insert (D.tableName table) (columnsByName table) }) c =
      { c with
        tables := c.tables.insertMany (tables.map fun table => (D.tableName table, table))
        fields := c.fields.insertMany
          (tables.map fun table => (D.tableName table, columnsByName table)) } := by
    induction tables generalizing c with
    | nil => rfl
    | cons table tables ih => exact ih _
  exact folded _ _

theorem contains_index (project : D.Project) (types : Dictionary Nat DataType) (table : String) :
    (index project types).has table ↔ table ∈ (D.tables project).map D.tableName := by
  rw [index_eq, has, Dictionary.contains_ofList, List.map_map]
  rfl

theorem column?_index (project : D.Project) (types : Dictionary Nat DataType)
    (table column : String) : (index project types).column? table column =
      ((D.tables project).reverse.find? (D.tableName · == table)).bind fun found =>
        (D.columns found).reverse.find? (D.columnName ·.value == column) := by
  rw [index_eq, column?]
  simp only [columnsByName, Dictionary.get?_ofList_map, Option.bind_map]
  congr 1
  funext found
  simp [Dictionary.get?_ofList_map]

/-- Of related lists, related elements are found under a name. -/
theorem find?_rel {α β : Type} {R : α → β → Prop} {f : α → String} {g : β → String}
    (same : ∀ a b, R a b → f a = g b) {as : List α} {bs : List β} (related : List.Forall₂ R as bs)
    (name : String) : Option.Rel R (as.find? (f · == name)) (bs.find? (g · == name)) := by
  induction related with
  | nil => exact .none
  | @cons a b as bs first _ ih =>
    rw [List.find?_cons, List.find?_cons, same a b first]
    cases g b == name with
    | true => exact .some first
    | false => exact ih

section

variable (keeps : D.Keeps) (schema : String) (tables : List TableInfo)

/-- The draft that a catalog is made from. -/
def draft (D : Dbml) (schema : String) (tables : List TableInfo) : Draft D :=
  Draft.addTables { project := D.newProject schema } tables

theorem ofTables_eq : ofTables schema tables D =
    index (draft D schema tables).project (draft D schema tables).types := rfl

include keeps

theorem draft_holds : List.Forall₂ (draft D schema tables).Holds
    (D.tables (draft D schema tables).project) (firstDescriptions [] tables) := by
  obtain ⟨added, same, holds⟩ := (Draft.addTables_adds keeps _ tables).1.tables
  rw [draft, same, keeps.tables, List.nil_append]
  exact holds

theorem tableNames_draft : (D.tables (draft D schema tables).project).map D.tableName =
    (firstDescriptions [] tables).map (·.name) :=
  Draft.map_tableName (draft_holds keeps schema tables)

/-- The tables of a catalog are those that are described. -/
theorem has_ofTables {table : String} :
    (ofTables schema tables D).has table ↔ table ∈ tables.map (·.name) := by
  rw [ofTables_eq, contains_index, tableNames_draft keeps, map_firstDescriptions]
  simp

omit keeps in
theorem nodup_keys_ofTables : (ofTables schema tables D).tables.keys.Nodup := by
  rw [ofTables_eq, index_eq]
  have none : (({} : Dictionary String D.Table)).keys.Nodup := List.nodup_nil
  exact Dictionary.nodup_keys_insertMany none _

/-- The column that is looked up is the one that is stored for its description. -/
theorem column?_ofTables (table column : String) :
    Option.Rel (draft D schema tables).Stored ((ofTables schema tables D).column? table column)
      (description? tables table column) := by
  have holds := find?_rel (fun _ _ h => h.name)
    (List.rel_reverse (draft_holds keeps schema tables)) table
  rw [find?_reverse_of_nodup (nodup_firstDescriptions [] tables), find?_firstDescriptions,
    if_neg List.not_mem_nil] at holds
  rw [ofTables_eq, column?_index, description?]
  generalize (D.tables (draft D schema tables).project).reverse.find? _ = built at holds ⊢
  generalize tables.find? _ = described at holds ⊢
  cases holds with
  | none => exact .none
  | some holds => exact find?_rel (fun _ _ h => h.name) (List.rel_reverse holds.columns) column

/-- The type of a column is the one that its description gives. -/
theorem type?_ofTables (table column : String) :
    (ofTables schema tables D).type? table column =
      (description? tables table column).map (·.type) := by
  have stored := column?_ofTables keeps schema tables table column
  have types : (ofTables schema tables D).types = (draft D schema tables).types := by
    rw [ofTables_eq, index_eq]
  rw [type?, types]
  generalize (ofTables schema tables D).column? table column = column at stored ⊢
  generalize description? tables table _ = described at stored ⊢
  cases stored with
  | none => rfl
  | some stored => rw [Option.map_some, Option.map_some, stored.typed, Option.getD_some]

/-- Descriptions that are added at the end change nothing for a table that is described. -/
theorem column?_ofTables_append (more : List TableInfo) {table : String}
    (described : table ∈ tables.map (·.name)) (column : String) :
    (ofTables schema (tables ++ more) D).column? table column =
      (ofTables schema tables D).column? table column := by
  have go : draft D schema (tables ++ more) = (draft D schema tables).addTables more :=
    List.foldl_append ..
  obtain ⟨added, same, holds⟩ := (Draft.addTables_adds keeps (draft D schema tables) more).1.tables
  have known : table ∈ (draft D schema tables).seen :=
    ((Draft.addTables_adds keeps _ tables).2 table).mpr (.inr described)
  have fresh : added.reverse.find? (D.tableName · == table) = none := by
    rw [List.find?_eq_none]
    intro other member named
    have listed : D.tableName other ∈ added.map D.tableName :=
      List.mem_map_of_mem (List.mem_reverse.mp member)
    rw [Draft.map_tableName holds, eq_of_beq named] at listed
    obtain ⟨t, kept, rfl⟩ := List.mem_map.mp listed
    exact (describes_of_mem kept).1 known
  rw [ofTables_eq, ofTables_eq, column?_index, column?_index, go, same, List.reverse_append,
    List.find?_append, fresh, Option.none_or]

/-- A table of the project, with its columns and their types. -/
def shape (table : D.Table) : String × List (String × String) :=
  (D.tableName table,
    (D.columns table).map fun column => (D.columnName column.value, D.columnType column.value))

/-- The described table, with its columns and the names of their types. -/
def describedShape (t : TableInfo) : String × List (String × String) :=
  (t.name, t.columns.map fun c => (c.name, c.type.display))

omit keeps in
theorem shapes_of_holds {d : Draft D} {built : List D.Table} {ts : List TableInfo}
    (holds : List.Forall₂ d.Holds built ts) : built.map shape = ts.map describedShape := by
  have columns {stored : List (Ref D.Column)} {cs : List ColumnInfo}
      (each : List.Forall₂ d.Stored stored cs) :
      stored.map (fun column => (D.columnName column.value, D.columnType column.value)) =
        cs.map fun c => (c.name, c.type.display) := by
    induction each with
    | nil => rfl
    | cons first _ ih => rw [List.map_cons, List.map_cons, first.name, first.type, ih]
  induction holds with
  | nil => rfl
  | cons first _ ih =>
    rw [List.map_cons, List.map_cons, ih, shape, describedShape, first.name, columns first.columns]

end

/-- A catalog is the first description of each table, whatever library it is made with, as long as
the library keeps what it is given. It has the tables that are described and
lists their names in ascending order. A column is found exactly if the first description of its
table has it, and then it is the last of its name there is, with its type. The project has
the name of the schema, and its tables stand in the order in which they first appear, each with all
columns of its first description. Adding descriptions changes nothing that is found in a table
described before. -/
theorem ofTables_first (keeps : D.Keeps) (schema : String) (tables : List TableInfo) :
    (∀ table, (ofTables schema tables D).has table ↔ ∃ t ∈ tables, t.name = table) ∧
    ((ofTables schema tables D).tableNames.Pairwise (· < ·) ∧
      ∀ table, table ∈ (ofTables schema tables D).tableNames ↔ ∃ t ∈ tables, t.name = table) ∧
    (∀ table column,
      (((ofTables schema tables D).column? table column).isSome ↔
        ∃ t, Describes tables table t ∧ ∃ c ∈ t.columns, c.name = column) ∧
      (((ofTables schema tables D).type? table column).isSome ↔
        ∃ t, Describes tables table t ∧ ∃ c ∈ t.columns, c.name = column) ∧
      (∀ found, (ofTables schema tables D).column? table column = some found →
        ∃ t c, Describes tables table t ∧ t.Finds column c ∧
          D.columnName found.value = c.name ∧ D.columnType found.value = c.type.display) ∧
      ∀ type, (ofTables schema tables D).type? table column = some type ↔
        ∃ t, Describes tables table t ∧ ∃ c, t.Finds column c ∧ c.type = type) ∧
    (D.projectName (ofTables schema tables D).project = schema ∧
      ∃ kept : List TableInfo,
        (D.tables (ofTables schema tables D).project).map shape = kept.map describedShape ∧
        kept.map (·.name) = (tables.map (·.name)).eraseDups ∧ (kept.map (·.name)).Nodup ∧
        ∀ t ∈ kept, Describes tables t.name t) ∧
    ∀ more table column, (∃ t ∈ tables, t.name = table) →
      (ofTables schema (tables ++ more) D).column? table column =
        (ofTables schema tables D).column? table column ∧
      (ofTables schema (tables ++ more) D).type? table column =
        (ofTables schema tables D).type? table column := by
  have described (table column : String) : (description? tables table column).isSome ↔
      ∃ t, Describes tables table t ∧ ∃ c ∈ t.columns, c.name = column := by
    simp [description?, Option.isSome_bind, Option.any_eq_true, find?_eq_some_iff]
  refine ⟨fun table => by simp [has_ofTables keeps], ⟨?_, fun table => ?_⟩,
    fun table column => ⟨?_, ?_, fun found known => ?_, fun type => ?_⟩,
    ⟨?_, firstDescriptions [] tables, ?_, ?_, nodup_firstDescriptions [] tables,
      fun t kept => (describes_of_mem kept).2⟩, fun more table column known => ⟨?_, ?_⟩⟩
  · exact sortTexts_pairwise_lt (nodup_keys_ofTables schema tables)
  · rw [tableNames, mem_sortTexts, ← Dictionary.contains_iff_mem_keys]
    change (ofTables schema tables D).has table ↔ _
    simp [has_ofTables keeps]
  · have stored := column?_ofTables keeps schema tables table column
    rw [← described]
    generalize (ofTables schema tables D).column? table column = found at stored ⊢
    generalize description? tables table column = listed at stored ⊢
    cases stored <;> rfl
  · rw [type?_ofTables keeps, Option.isSome_map, described]
  · have stored := column?_ofTables keeps schema tables table column
    rw [known] at stored
    cases listed : description? tables table column with
    | none => simp [listed] at stored
    | some c =>
      rw [listed, Option.rel_some_some] at stored
      obtain ⟨t, first, last⟩ := description?_eq_some_iff.mp listed
      exact ⟨t, c, first, last, stored.name, stored.type⟩
  · rw [type?_ofTables keeps, Option.map_eq_some_iff]
    simp only [description?_eq_some_iff]
    constructor
    · rintro ⟨found, ⟨t, first, last⟩, same⟩
      exact ⟨t, first, found, last, same⟩
    · rintro ⟨t, first, found, last, same⟩
      exact ⟨found, ⟨t, first, last⟩, same⟩
  · rw [ofTables_eq, index_eq]
    exact (Draft.addTables_adds keeps _ tables).1.name.trans (keeps.projectName schema)
  · rw [ofTables_eq, index_eq]
    exact shapes_of_holds (draft_holds keeps schema tables)
  · rw [map_firstDescriptions, List.filter_eq_self.mpr (by simp)]
  · exact column?_ofTables_append keeps schema tables more (by simpa using known) column
  · have first : (tables ++ more).find? (·.name == table) = tables.find? (·.name == table) := by
      rw [List.find?_append]
      apply Option.or_of_isSome
      rw [List.find?_isSome]
      simpa using known
    rw [type?_ofTables keeps, type?_ofTables keeps, description?, description?, first]

/-- A table is described twice and its first description has a column twice. -/
theorem ofTables_first_repeated :
    Dbml.plain.Keeps ∧
    (ofTables "LS" ([⟨"T", "", [⟨"A", { kind := .double }⟩, ⟨"A", { kind := .date }⟩]⟩] ++
      [⟨"T", "", [⟨"B", { kind := .double }⟩]⟩])).type? "T" "A" = some { kind := .date } := by
  have first := ofTables_first Dbml.plain_keeps "LS"
    [⟨"T", "", [⟨"A", { kind := .double }⟩, ⟨"A", { kind := .date }⟩]⟩]
  refine ⟨Dbml.plain_keeps, ?_⟩
  rw [(first.2.2.2.2 _ "T" "A" ⟨_, List.mem_cons_self .., rfl⟩).2]
  exact ((first.2.2.1 "T" "A").2.2.2 _).mpr
    ⟨_, ⟨[], [], rfl, rfl, by simp⟩, _, ⟨[⟨"A", { kind := .double }⟩], [], rfl, rfl, by simp⟩, rfl⟩

end Catalog

end Pushdown
