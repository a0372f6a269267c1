import Pushdown.Proofs.Request.Acceptance
import Pushdown.Proofs.Request.Resolution

/-!
# The names that a FROM clause introduces

Reading a FROM item adds what it introduces to a scope, in which columns are looked up, and builds a
node, whose sources are the names that a join condition may use. Both are the same names in the same
order, and no FROM clause introduces a name twice. So a request with two items of one name in a FROM
clause, at whatever depth of joins, is refused.
-/

namespace Pushdown

/-! ## Trees -/

/-- The FROM clause of a statement introduces no name twice. -/
def Node.SourcesApart (n : Node) : Prop :=
  ∀ s, n = select s → ∀ source ∈ s.source, source.sources.Nodup

theorem Node.SourcesApart.of_ne {n : Node} (other : n.kind ≠ .select) : n.SourcesApart := by
  rintro s rfl
  exact absurd rfl other

/-- A FROM item puts its items behind those of the scope, under names of their own. -/
structure Node.Introduced (before : Scope) (n : Node) (after : Scope) : Prop where
  items : after.items = before.items ++ n.fromItems
  apart : n.sources.Nodup
  fresh : ∀ i ∈ before.items, i.reference ∉ n.sources

namespace Node.Introduced

variable {before middle after : Scope} {n left right condition : Node}

theorem of_add? {item : FromItem} (added : before.add? item = some after)
    (only : n.fromItems = [item]) : n.Introduced before after := by
  obtain ⟨items, free⟩ := Scope.items_of_add? added
  have sources : n.sources = [item.reference] := by rw [sources_eq_map, only, List.map_singleton]
  refine ⟨by rw [items, only], sources ▸ List.nodup_singleton _, fun i member => ?_⟩
  rw [sources, List.mem_singleton]
  exact free i member

theorem join {type : JoinType} (hl : left.Introduced before middle)
    (hr : right.Introduced middle after) :
    (Node.join type left right condition).Introduced before after := by
  have outside {name : String} (named : name ∈ left.sources) : name ∉ right.sources := by
    rw [sources_eq_map] at named
    obtain ⟨i, listed, rfl⟩ := List.mem_map.mp named
    refine hr.fresh i ?_
    rw [hl.items]
    exact List.mem_append_right _ listed
  refine ⟨by rw [hr.items, hl.items, fromItems, List.append_assoc], ?_, fun i listed => ?_⟩
  · rw [sources, List.nodup_append]
    refine ⟨hl.apart, hr.apart, ?_⟩
    rintro name inLeft _ inRight rfl
    exact outside inLeft inRight
  · rw [sources, List.mem_append, not_or]
    refine ⟨hl.fresh i listed, hr.fresh i ?_⟩
    rw [hl.items]
    exact List.mem_append_left _ listed

end Node.Introduced

/-- FROM clauses introduce no name twice, and FROM items go into the scope as they are. -/
def Reading.apart : Reading where
  node _ n := n.Everywhere Node.SourcesApart
  fromItem _ before n after := n.Introduced before after ∧ n.Everywhere Node.SourcesApart

theorem Reading.apart_closed (catalog : Catalog) : apart.Closed catalog where
  part := by
    intro scopes kind exprs others n built plain operands parts
    refine Node.everywhere_iff.mpr ⟨.of_ne ?_, fun c child => ?_⟩
    · rw [built.kind_eq]
      rintro rfl
      cases plain
    · rcases List.mem_append.mp (built.children c child) with operand | part
      · exact (operands c operand).1
      · exact parts c part
  column _ _ _ := Node.everywhere_iff.mpr ⟨.of_ne (by simp [Node.kind]), by simp [Node.children]⟩
  statement := by
    intro outer scope s _ _ sourced list after _
    refine Node.everywhere_iff.mpr ⟨?_, fun c child => ?_⟩
    · rintro _ ⟨⟩ source given
      exact (sourced source given).1.apart
    · rcases Node.mem_children_select.mp child with rfl | item | clause
      · exact list
      · exact (sourced c item).2
      · exact after c clause
  table _ added :=
    ⟨.of_add? added rfl, Node.everywhere_iff.mpr ⟨.of_ne (by simp [Node.kind]), by simp [Node.children]⟩⟩
  join _ left right condition := by
    refine ⟨left.1.join right.1, Node.everywhere_iff.mpr ⟨.of_ne (by simp [Node.kind]), ?_⟩⟩
    simpa [Node.children] using ⟨left.2, right.2, condition.1⟩
  subSelect _ statement added := by
    refine ⟨.of_add? added rfl, Node.everywhere_iff.mpr ⟨.of_ne (by simp [Node.kind]), ?_⟩⟩
    simp only [Node.children, List.mem_singleton, forall_eq]
    exact statement

/-! ## Requests -/

/-- A side of a join. -/
inductive Side where
  | left | right
deriving DecidableEq

def Side.key : Side → String
  | left => "left"
  | right => "right"

namespace Object

/-- At the end of a way down the sides of joins, the object has a table or a derived table, which
goes by this name: by its alias, or by the name of the table if it has none. -/
inductive Introduces : Object → List Side → String → Prop
  | table {o : Object} {name aliasName : String} (tag : o.tag = .ok "table")
      (named : o.string "name" = .ok name) (renamed : o.stringOrEmpty "alias" = .ok aliasName) :
      Introduces o [] (if aliasName = "" then name else aliasName)
  | derived {o : Object} {aliasName : String} (tag : o.tag = .ok "sub_select")
      (named : o.string "alias" = .ok aliasName) : Introduces o [] aliasName
  | inside {o o' : Object} {side : Side} {way : List Side} {name : String}
      (tag : o.tag = .ok "join") (opened : o.child side.key = .ok o')
      (rest : Introduces o' way name) : Introduces o (side :: way) name

end Object

namespace StatementReader

variable {r : Readers} {o : Object} {outer : List Scope} {scope scope' : Scope} {n : Node}

theorem fromItem_of_table (tag : o.tag = .ok "table")
    (read : fromItem r o outer scope = .ok (n, scope')) {name aliasName : String}
    (named : o.string "name" = .ok name) (renamed : o.stringOrEmpty "alias" = .ok aliasName) :
    n = .table { name, aliasName } := by
  obtain ⟨_, tag', read⟩ := bind_eq_ok.mp read
  obtain rfl := Except.ok.inj (tag.symm.trans tag')
  simp only [table, named, renamed, bind_eq_ok, Except.ok.injEq, exists_eq_left',
    Read.build_eq_ok] at read
  obtain ⟨t, built, read⟩ := read
  obtain rfl := Build.table_eq_ok built
  split at read
  · exact (Prod.mk.inj (pure_eq_ok.mp read)).1.symm
  · exact absurd read Object.refuse_ne_ok

theorem fromItem_of_derived (tag : o.tag = .ok "sub_select")
    (read : fromItem r o outer scope = .ok (n, scope')) {aliasName : String}
    (named : o.string "alias" = .ok aliasName) : ∃ s, n = .subSelect s aliasName := by
  obtain ⟨_, tag', read⟩ := bind_eq_ok.mp read
  obtain rfl := Except.ok.inj (tag.symm.trans tag')
  simp only [derivedTable, named, bind_eq_ok, Except.ok.injEq, exists_eq_left',
    Read.build_eq_ok] at read
  obtain ⟨_, -, s, -, item, built, read⟩ := read
  obtain rfl := Build.subSelect_eq_ok built
  split at read
  · exact ⟨s, (Prod.mk.inj (pure_eq_ok.mp read)).1.symm⟩
  · exact absurd read Object.refuseAt_ne_ok

/-- The sides of a join are read one after the other. -/
theorem fromItem_of_join (tag : o.tag = .ok "join")
    (read : fromItem r o outer scope = .ok (n, scope')) :
    ∃ type condition, ∃ part : Side → Node, n = .join type (part .left) (part .right) condition ∧
      ∀ side o', o.child side.key = .ok o' →
        ∃ before after, r.fromItem o' outer before = .ok (part side, after) := by
  obtain ⟨_, tag', read⟩ := bind_eq_ok.mp read
  obtain rfl := Except.ok.inj (tag.symm.trans tag')
  simp only [join, bind_eq_ok] at read
  obtain ⟨typeName, -, read⟩ := read
  split at read
  · exact absurd read Object.refuseAt_ne_ok
  · simp only [bind_eq_ok, Read.build_eq_ok, pure_eq_ok, Prod.exists] at read
    obtain ⟨left, openedLeft, m, middle, leftRead, right, openedRight, m', after, rightRead,
      condition, -, joined, built, same⟩ := read
    obtain ⟨rfl, rfl⟩ := Prod.mk.inj same
    obtain rfl := Build.join_eq_ok built
    refine ⟨_, condition, fun | .left => m | .right => m', rfl, ?_⟩
    rintro (_ | _) o' opened
    · obtain rfl := Except.ok.inj (opened.symm.trans openedLeft)
      exact ⟨scope, middle, leftRead⟩
    · obtain rfl := Except.ok.inj (opened.symm.trans openedRight)
      exact ⟨middle, after, rightRead⟩

end StatementReader

namespace Object.Introduces

variable {catalog : Catalog} {room : Nat} {o : Object} {outer : List Scope} {before after : Scope}
  {n : Node} {way way' : List Side} {name : String}

/-- Whatever goes by a name is one of the sources. -/
theorem mem_sources (introduces : o.Introduces way name)
    (read : (Readers.within catalog room).fromItem o outer before = .ok (n, after)) :
    name ∈ n.sources := by
  induction introduces generalizing room outer before n after with
  | table tag named renamed =>
    cases room with
    | zero => exact absurd read Object.refuse_ne_ok
    | succ room =>
      obtain rfl := StatementReader.fromItem_of_table tag read named renamed
      simp [Node.sources, Table.reference]
  | derived tag named =>
    cases room with
    | zero => exact absurd read Object.refuse_ne_ok
    | succ room =>
      obtain ⟨s, rfl⟩ := StatementReader.fromItem_of_derived tag read named
      simp [Node.sources]
  | @inside _ _ side _ _ tag opened _ ih =>
    cases room with
    | zero => exact absurd read Object.refuse_ne_ok
    | succ room =>
      obtain ⟨type, condition, part, rfl, sides⟩ := StatementReader.fromItem_of_join tag read
      obtain ⟨_, _, partRead⟩ := sides side _ opened
      have named := ih partRead
      cases side <;> simp [Node.sources, named]

theorem way_eq_nil (introduces : o.Introduces way name) (leaf : o.tag ≠ .ok "join") : way = [] := by
  cases introduces with
  | table | derived => rfl
  | inside tag => exact absurd tag leaf

/-- In a FROM clause that is accepted, a name leads to one item only. -/
theorem way_eq (introduces : o.Introduces way name) (other : o.Introduces way' name)
    (read : (Readers.within catalog room).fromItem o outer before = .ok (n, after)) :
    way = way' := by
  induction introduces generalizing room outer before n after way' with
  | table tag | derived tag => exact (other.way_eq_nil (by simp [tag])).symm
  | @inside _ _ side _ _ tag opened rest ih =>
    cases other with
    | table tag' | derived tag' => simp [tag] at tag'
    | @inside _ _ side' _ _ _ opened' rest' =>
      cases room with
      | zero => exact absurd read Object.refuse_ne_ok
      | succ room =>
        have introduced := ((Reading.apart_closed catalog).within_keeps (room + 1)).fromItem read
        have apart := introduced.1.apart
        obtain ⟨type, condition, part, rfl, sides⟩ := StatementReader.fromItem_of_join tag read
        obtain ⟨_, _, partRead⟩ := sides side _ opened
        obtain ⟨_, _, partRead'⟩ := sides side' _ opened'
        by_cases same : side = side'
        · subst same
          obtain rfl := Except.ok.inj (opened.symm.trans opened')
          rw [ih rest' partRead]
        · -- The name would be a source of both sides.
          have named := rest.mem_sources partRead
          have named' := rest'.mem_sources partRead'
          rw [Node.sources, List.nodup_append] at apart
          cases side <;> cases side'
          · exact absurd rfl same
          · exact absurd rfl (apart.2.2 _ named _ named')
          · exact absurd rfl (apart.2.2 _ named' _ named)
          · exact absurd rfl same

end Object.Introduces

namespace Request

/-- A FROM item that is accepted adds items to the scope whose names are the sources of its node, in
the same order. In a request that is accepted, no FROM clause has a source twice. A request that has
two items of one name in a FROM clause is refused. -/
theorem sources_apart :
    (∀ catalog room o outer before n after,
      (Readers.within catalog room).fromItem o outer before = .ok (n, after) →
        ∃ added, after.items = before.items ++ added ∧ added.map (·.reference) = n.sources) ∧
    (∀ text r p s, Request.read text = .ok r → r.pushdown = some p → p.statement = some s →
      ∀ m, .select m ∈ (Node.select s).nodes → ∀ source, m.source = some source →
        source.sources.Nodup) ∧
    ∀ text root o way way' name, Object.readDocument text = .ok root →
      root.Holds .request o .fromItem → way ≠ way' → o.Introduces way name →
      o.Introduces way' name → ∃ e, Request.read text = .error e := by
  refine ⟨fun catalog room o outer before n after read => ?_,
    fun text r p s accepted given stated m member source sourced => ?_,
    fun text root o way way' name opened holds different introduces other => ?_⟩
  · have introduced := ((Reading.apart_closed catalog).within_keeps room).fromItem read |>.1
    exact ⟨n.fromItems, introduced.items, n.sources_eq_map.symm⟩
  · obtain ⟨s', stated', apart⟩ := (Reading.apart_closed p.catalog).readPushdown_node
      (Request.readPushdown_of_read accepted given)
    obtain rfl := Option.some.inj (stated.symm.trans stated')
    exact apart _ member m rfl source sourced
  · cases read : Request.read text with
    | error e => exact ⟨e, rfl⟩
    | ok r =>
      obtain ⟨catalog, room, outer, before, ⟨n, after⟩, accepted⟩ :=
        accepts_of_holds read opened holds rfl
      exact absurd (introduces.way_eq other accepted) different

set_option maxRecDepth 10000 in
/-- A table and a derived table with the same table in it have names of their own, but a table may
not go by the alias of another one. -/
theorem sources_apart_of_aliases :
    let accepted := "\x7b\"type\":\"pushdown\",\"pushdownRequest\":\x7b\"type\":\"select\",
      \"from\":\x7b\"type\":\"join\",\"join_type\":\"inner\",
      \"left\":\x7b\"type\":\"table\",\"name\":\"a\",\"alias\":\"x\"\x7d,
      \"right\":\x7b\"type\":\"sub_select\",\"alias\":\"y\",
      \"select\":\x7b\"type\":\"select\",\"from\":\x7b\"type\":\"table\",
      \"name\":\"a\"\x7d\x7d\x7d,
      \"condition\":\x7b\"type\":\"literal_bool\",\"value\":true\x7d\x7d\x7d\x7d"
    let refused := "\x7b\"type\":\"pushdown\",\"pushdownRequest\":\x7b\"type\":\"select\",
      \"from\":\x7b\"type\":\"join\",\"join_type\":\"inner\",
      \"left\":\x7b\"type\":\"table\",\"name\":\"a\",\"alias\":\"x\"\x7d,
      \"right\":\x7b\"type\":\"table\",\"name\":\"x\"\x7d,
      \"condition\":\x7b\"type\":\"literal_bool\",\"value\":true\x7d\x7d\x7d\x7d"
    (∃ o n after, (Readers.within default 4).fromItem o [] {} = .ok (n, after) ∧
      after.items.map (·.reference) = ["x", "y"]) ∧
    (∃ r p s source, Request.read accepted = .ok r ∧ r.pushdown = some p ∧
      p.statement = some s ∧ s.source = some source ∧ source.sources = ["x", "y"] ∧
      source.sources.Nodup) ∧
    ∃ e, Request.read refused = .error e := by
  intro accepted refused
  have same : accepted = String.ofList _ := rfl
  have same' : refused = String.ofList _ := rfl
  have item : ((Object.readDocument accepted).toOption.bind fun root =>
      (root.child "pushdownRequest").toOption.bind fun statement =>
        (statement.child "from").toOption.bind fun o =>
          ((Readers.within default 4).fromItem o [] {}).toOption.map (·.1.sources)) =
      some ["x", "y"] := by
    rw [same, Object.readDocument_ofList]
    decide +kernel
  have whole : ((Request.read accepted).toOption.bind fun r => r.pushdown.bind fun p =>
      p.statement.bind fun s => s.source.map (·.sources)) = some ["x", "y"] := by
    rw [same, Request.read, Object.readDocument_ofList]
    decide +kernel
  have parts : ((Object.readDocument refused).toOption.bind fun root =>
      (root.child "pushdownRequest").toOption.bind fun statement =>
        (statement.child "from").toOption.bind fun o =>
          (o.child "left").toOption.bind fun left => (o.child "right").toOption.map fun right =>
            ((root.tagText, o.tag.toOption),
              (left.tag.toOption, (left.string "name").toOption,
                (left.stringOrEmpty "alias").toOption),
              (right.tag.toOption, (right.string "name").toOption,
                (right.stringOrEmpty "alias").toOption))) =
      some (("pushdown", some "join"), (some "table", some "a", some "x"),
        (some "table", some "x", some "")) := by
    rw [same', Object.readDocument_ofList]
    decide +kernel
  clear same same'
  simp only [Option.bind_eq_some_iff, Option.map_eq_some_iff, toOption_eq_some, Prod.mk.injEq]
    at item whole parts
  refine ⟨?_, ?_, ?_⟩
  · obtain ⟨_, -, _, -, o, -, ⟨n, after⟩, read, sources⟩ := item
    obtain ⟨added, items, names⟩ := sources_apart.1 _ _ _ _ _ _ _ read
    exact ⟨o, n, after, read, by rw [items, List.nil_append, names, sources]⟩
  · obtain ⟨r, read, p, given, s, stated, source, sourced, sources⟩ := whole
    exact ⟨r, p, s, source, read, given, stated, sourced, sources,
      sources_apart.2.1 _ r p s read given stated s (Node.mem_nodes_self _) source sourced⟩
  · obtain ⟨root, opened, statement, inRoot, o, inStatement, left, inLeft, right, inRight,
      ⟨rootTag, tag⟩, ⟨leftTag, leftName, leftAlias⟩, rightTag, rightName, rightAlias⟩ := parts
    have inLeft : o.child Side.left.key = .ok left := inLeft
    have inRight : o.child Side.right.key = .ok right := inRight
    have first : left.Introduces [] "x" := by
      simpa using Object.Introduces.table leftTag leftName leftAlias
    have second : right.Introduces [] "x" := by
      simpa using Object.Introduces.table rightTag rightName rightAlias
    refine sources_apart.2.2 _ root o [.left] [.right] "x" opened ?_ (by decide)
      (.inside tag inLeft first) (.inside tag inRight second)
    have request : ("pushdownRequest", .one .statement) ∈ root.membersAs .request := by
      rw [Object.membersAs, rootTag]
      decide
    exact .inside request (.one inRoot) (.inside (by simp [Object.membersAs, Role.members])
      (.one inStatement) (.self o .fromItem))

end Request

end Pushdown
