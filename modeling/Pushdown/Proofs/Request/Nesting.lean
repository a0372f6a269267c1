import Pushdown.Proofs.Request.Depth

/-!
# The limit of nesting

Each reader of a node, given readers that detect what is nested too deep for the room inside the
node, detects what is nested too deep for the room that includes it. So the whole reading detects
chains of more nodes than the limit. Parts that hold no nodes are never too deep.
-/

namespace Pushdown

open Read (Shallow Detects)

/-! ## Parts without nodes -/

theorem IntervalRange.read_shallow (o : Object) : (IntervalRange.read o).Shallow :=
  (o.string_shallow _).bind fun _ => .ite (.pure _) (.refuse nofun)

theorem DataType.read_shallow (o : Object) : (DataType.read o).Shallow := by
  refine (o.string_shallow _).bind fun name => ?_
  split
  · exact .refuse nofun
  refine (o.integer_shallow ..).bind fun precision => (o.integer_shallow ..).bind fun scale => ?_
  refine (o.integer_shallow ..).bind fun size => (o.integer_shallow ..).bind fun fraction => ?_
  refine (o.integer_shallow ..).bind fun srid => (o.integer_shallow ..).bind fun byteSize => ?_
  refine (o.stringOrEmpty_shallow _).bind fun characterSet => ?_
  refine (o.boolean_shallow ..).bind fun withLocalTimeZone => ?_
  exact .ite ((IntervalRange.read_shallow o).bind fun range => .pure _)
    ((Shallow.pure _).bind fun range => .pure _)

namespace Expression

theorem column_shallow (catalog : Catalog) (o : Object) (scopes : List Scope) :
    (column catalog o scopes).Shallow := by
  refine (o.string_shallow _).bind fun name => (o.stringOrEmpty_shallow _).bind fun table => ?_
  refine (o.stringOrEmpty_shallow _).bind fun aliasName => ?_
  refine .ite (.refuse nofun) ?_
  split
  · exact .refuse nofun
  · refine Shallow.bind ?_ fun type => ?_
    · unfold columnType
      refine .ite ?_ (.ok _)
      split
      · exact .ok _
      · exact .refuse nofun
    · exact (Shallow.build _).bind fun column => (o.integer_shallow ..).bind fun index => .pure _

theorem frameBound_shallow (o : Object) : (frameBound o).Shallow := by
  refine (o.string_shallow _).bind fun tag => ?_
  split
  · exact .refuse nofun
  · exact .ite ((o.integer_shallow ..).bind fun offset => .pure _)
      ((Shallow.pure _).bind fun offset => .pure _)

theorem frame_shallow (o : Object) : (frame o).Shallow := by
  refine (o.string_shallow _).bind fun units => (o.child_shallow _).bind fun start => ?_
  refine (frameBound_shallow start).bind fun start => .ite ?_ ?_
  · have stop := (o.child_shallow "end").bind frameBound_shallow
    exact (stop.map some).bind fun stop => .pure _
  · exact (Shallow.pure _).bind fun stop => .pure _

end Expression

namespace StatementReader

theorem table_shallow (o : Object) (scope : Scope) : (table o scope).Shallow := by
  refine (o.string_shallow _).bind fun name => (o.stringOrEmpty_shallow _).bind fun aliasName => ?_
  refine (Shallow.build _).bind fun table => ?_
  split
  · exact .pure _
  · exact .refuse nofun

theorem aggregation_shallow (o : Object) : (aggregation o).Shallow := by
  refine (o.stringOrEmpty_shallow _).bind fun name => ?_
  split
  · exact .refuse nofun
  · exact .pure _

theorem limit?_shallow (o : Object) : (limit? o).Shallow := by
  refine .ite (.pure _) ((o.child_shallow _).bind fun o => .ite (.refuse nofun) ?_)
  refine (o.integer_shallow ..).bind fun count => (o.integer_shallow ..).bind fun offset => ?_
  exact (Shallow.build _).map some

end StatementReader

theorem Schema.read_shallow (o : Object) : (Schema.read o).Shallow := by
  refine (o.stringOrEmpty_shallow _).bind fun name => (o.texts_shallow _).bind fun notes => ?_
  exact (o.texts_shallow _).bind fun properties => .pure _

theorem TableInfo.read_shallow (o : Object) : (TableInfo.read o).Shallow := by
  refine (o.string_shallow _).bind fun name => (o.stringOrEmpty_shallow _).bind fun notes => ?_
  refine (o.list_shallow _).bind fun columns => Shallow.bind (.mapM fun o => ?_) fun _ => .pure _
  refine (o.string_shallow _).bind fun name => (o.child_shallow _).bind fun type => ?_
  exact (DataType.read_shallow type).bind fun type => .pure _

/-! ## One level -/

namespace Read.Detects

variable {α β : Type} {x : Read α} {f : α → Read β} {deep : Prop} {o : Object} {room : Nat}

/-- What comes last holds no nodes. -/
theorem last (h : x.Detects deep) (next : ∀ a, (f a).Shallow) : (x >>= f).Detects deep :=
  (h.bind fun a => (next a).detects not_false).congr (by simp)

/-- What comes first holds no nodes. -/
theorem after {key : String} {slot : Slot} (first : x.Shallow) (flat : slot.isFlat)
    (next : ∀ a, (f a).Detects deep) : (x >>= f).Detects (o.ExceedsAt room (key, slot) ∨ deep) :=
  (first.detects (Object.not_exceedsAt flat)).bind next

/-- What comes first holds no nodes, and what it returns matters. -/
theorem known (first : x.Shallow) (next : ∀ a, x = .ok a → (f a).Detects deep) :
    (x >>= f).Detects deep := by
  constructor
  · intro b accepted
    obtain ⟨a, read, accepted⟩ := bind_eq_ok.mp accepted
    exact (next a read).accepted b accepted
  · rintro ⟨path, limit, refused⟩
    rcases bind_eq_error.mp refused with refused | ⟨a, read, refused⟩
    · exact absurd ⟨path, limit, refused⟩ first.never
    · exact (next a read).refused ⟨path, limit, refused⟩

end Read.Detects

namespace Object

variable {o : Object} {room : Nat} {β : Type}

/-- Behind the tag, the object is read as the tag says. -/
theorem tag_detects {f : String → Read β} {members : List (String × Slot)}
    (next : (f o.tagText).Detects (o.Exceeds room members)) :
    (o.tag >>= f).Detects (o.Exceeds room (("type", .scalar) :: members)) := by
  refine .congr (.known (o.string_shallow "type") fun text tag => ?_)
    (or_iff_right (not_exceedsAt rfl)).symm
  exact tagText_of_tag tag ▸ next

/-- A node in a member is looked into. -/
theorem node_detects {f : Object → Read β} {key : String} {role : Role} (node : role.isNode)
    (each : ∀ o, (f o).Detects (o.TooDeep role room)) :
    (o.child key >>= f).Detects (o.ExceedsAt room (key, .one role)) :=
  child_detects fun _ _ o opened => (each o).congr (exceeds_node opened node).symm

end Object

namespace Readers

/-- The readers have room for so many levels of nodes. -/
structure Detects (r : Readers) (room : Nat) : Prop where
  statement : ∀ o scopes, (r.statement o scopes).Detects (o.TooDeep .statement room)
  fromItem : ∀ o outer scope, (r.fromItem o outer scope).Detects (o.TooDeep .fromItem room)
  expression : ∀ o scopes, (r.expression o scopes).Detects (o.TooDeep .expression room)

namespace Detects

variable {r : Readers} {room : Nat} (h : r.Detects room) (o : Object) (key : String)
  (scopes : List Scope)

include h

theorem child : (r.child o key scopes).Detects (o.ExceedsAt room (key, .expression)) :=
  Object.node_detects rfl fun o => h.expression o scopes

theorem child? : (r.child? o key scopes).Detects (o.ExceedsAt room (key, .expression)) :=
  .ite (fun _ => (h.child ..).last fun _ => .pure _)
    fun absent => (Shallow.pure _).detects (Object.not_exceedsAt_of_absent absent)

theorem children : (r.children o key scopes).Detects (o.ExceedsAt room (key, .expressions)) :=
  Object.list_detects fun _ _ o opened =>
    (h.expression o scopes).congr (Object.exceeds_node opened rfl).symm

theorem argument : (r.argument o scopes).Detects (o.ExceedsAt room ("arguments", .expressions)) := by
  refine (h.children ..).last fun args => ?_
  split
  · exact .pure _
  · exact .refuse nofun

theorem sortKey : (r.sortKey scopes o).Detects (o.Exceeds room (o.membersAs .sortKey)) := by
  refine Object.tag_detects (.ite (fun _ => .refuse nofun) fun _ => ?_)
  refine (h.child ..).bind fun expr => .after (o.boolean_shallow ..) rfl fun ascending => ?_
  exact .after (o.boolean_shallow ..) rfl fun nullsLast => (Shallow.pure _).detects not_false

theorem order? : (r.order? o scopes).Detects (o.ExceedsAt room ("orderBy", .many .sortKey)) := by
  refine .ite (fun absent => ?_) fun _ => ?_
  · exact (Shallow.pure _).detects (Object.not_exceedsAt_of_absent (by simpa using absent))
  · refine .assoc (.last (Object.list_detects fun _ _ o opened => ?_) fun keys => ?_)
    · exact (h.sortKey o scopes).congr (Object.exceeds_other opened rfl).symm
    · exact (Shallow.build _).map some

end Detects

end Readers

/-! ## Expressions -/

namespace Expression

open Readers (Detects)

variable {r : Readers} {room : Nat} (h : r.Detects room) (catalog : Catalog) (o : Object)
  (scopes : List Scope)

theorem constant_detects (type : LiteralType) :
    (constant o type).Detects (o.Exceeds room (Role.constantMembers type)) := by
  have value {f : String → Read Node} (next : ∀ text, (f text).Shallow) :
      (o.scalar "value" >>= f).Detects (o.Exceeds room [("value", .scalar)]) :=
    .after (o.scalar_shallow _) rfl fun text => (next text).detects not_false
  cases type with
  | null => exact ((Shallow.build _).map _).detects not_false
  | interval =>
    refine .after (o.scalar_shallow _) rfl fun text => .after (o.child_shallow _) rfl fun type => ?_
    refine Shallow.detects ((DataType.read_shallow type).bind fun type => ?_) not_false
    exact (Shallow.build _).map _
  | bool | exactNumeric | double | string | date | timestamp | timestampUtc | other _ =>
    exact value fun text => (Shallow.build _).map _

include h

theorem case_detects :
    (case r o scopes).Detects (o.Exceeds room (Role.taggedMembers "function_scalar_case")) := by
  refine (h.child? ..).bind fun basis => (h.children ..).bind fun conditions => ?_
  refine (h.children ..).bind fun results => .ite (fun _ => .refuse nofun) fun _ => ?_
  exact (Shallow.build _).detects not_false

theorem aggregate_detects :
    (aggregate r o scopes).Detects (o.Exceeds room (Role.taggedMembers "function_aggregate")) := by
  refine .after (o.string_shallow _) rfl fun name => ?_
  refine .after (o.boolean_shallow ..) rfl fun distinct => (h.children ..).bind fun args => ?_
  exact (h.child? ..).bind fun filter => (Shallow.build _).detects not_false

theorem groupConcat_detects :
    (groupConcat r o scopes).Detects
      (o.Exceeds room (Role.taggedMembers "function_aggregate_group_concat")) := by
  refine .after (o.boolean_shallow ..) rfl fun distinct => (h.argument ..).bind fun arg => ?_
  refine (h.order? ..).bind fun order => .ite (fun _ => ?_) fun _ => ?_
  · refine .after ((o.string_shallow _).map some) rfl fun separator => ?_
    exact (Shallow.build _).detects not_false
  · exact .after (.pure _) rfl fun separator => (Shallow.build _).detects not_false

theorem window_detects :
    (window r o scopes).Detects (o.Exceeds room (Role.taggedMembers "function_window")) := by
  refine .after (o.string_shallow _) rfl fun name => (h.children ..).bind fun args => ?_
  refine (h.children ..).bind fun partition => (h.order? ..).bind fun order => ?_
  refine .ite (fun _ => ?_) fun _ => ?_
  · refine .after (.map some ((o.child_shallow _).bind frame_shallow)) rfl fun bounds => ?_
    exact (Shallow.build _).detects not_false
  · exact .after (.pure _) rfl fun bounds => (Shallow.build _).detects not_false

theorem tagged_detects (tag : String) :
    (tagged r catalog o scopes tag).Detects (o.Exceeds room (Role.taggedMembers tag)) := by
  have built {n : Except ConstructionError Node} : (Read.build n).Detects (o.Exceeds room []) :=
    (Shallow.build n).detects not_false
  unfold tagged
  split
  · exact (column_shallow catalog o scopes).detects (Object.not_exceeds (by decide))
  · exact (h.children ..).bind fun operands => built
  · exact (h.children ..).bind fun operands => built
  · exact (h.child ..).bind fun operand => built
  · refine (h.child ..).bind fun expr => (h.child ..).bind fun pattern => ?_
    exact (h.child? ..).bind fun escape => built
  · exact (h.child ..).bind fun expr => (h.child ..).bind fun pattern => built
  · refine (h.child ..).bind fun expr => (h.child ..).bind fun low => ?_
    exact (h.child ..).bind fun high => built
  · exact (h.child ..).bind fun expr => (h.children ..).bind fun values => built
  · refine (h.child ..).bind fun expr => .assoc (.bind ?_ fun statement => built)
    exact Object.node_detects rfl fun o => h.statement o scopes
  · exact (h.child ..).bind fun operand => built
  · exact (h.child ..).bind fun operand => built
  · exact .after (o.string_shallow _) rfl fun name => (h.children ..).bind fun args => built
  · exact .after (o.string_shallow _) rfl fun part => (h.argument ..).bind fun arg => built
  · refine .assoc (.after ((o.child_shallow _).bind DataType.read_shallow) rfl fun type => ?_)
    exact (h.argument ..).bind fun arg => built
  · exact case_detects h ..
  · exact aggregate_detects h ..
  · exact groupConcat_detects h ..
  · exact window_detects h ..
  · exact .refuse nofun

theorem read_detects :
    (read r catalog o scopes).Detects (o.Exceeds room (o.membersAs .expression)) := by
  refine Object.tag_detects ?_
  unfold Role.expressionMembers
  cases operators.lookup o.tagText with
  | some op =>
    refine (h.child ..).bind fun left => (h.child ..).bind fun right => ?_
    exact (Shallow.build _).detects not_false
  | none =>
    cases constants.lookup o.tagText with
    | some type => exact constant_detects o type
    | none => exact tagged_detects h ..

end Expression

/-! ## Statements -/

namespace StatementReader

variable {r : Readers} {room : Nat} (h : r.Detects room) (o : Object) (outer scopes : List Scope)
  (scope : Scope)

include h

theorem join_detects :
    (join r o outer scope).Detects (o.Exceeds room (Role.fromItemMembers "join")) := by
  refine .after (o.string_shallow _) rfl fun name => ?_
  split
  · exact .refuse nofun
  · refine .assoc (.bind (Object.node_detects rfl fun o => h.fromItem ..) fun left => ?_)
    refine .assoc (.bind (Object.node_detects rfl fun o => h.fromItem ..) fun right => ?_)
    refine (h.child ..).bind fun condition => ?_
    exact Shallow.detects ((Shallow.build _).bind fun n => .pure _) not_false

theorem derivedTable_detects :
    (derivedTable r o outer scope).Detects (o.Exceeds room (Role.fromItemMembers "sub_select")) := by
  refine .after (o.string_shallow _) rfl fun aliasName => ?_
  refine .assoc (.bind (Object.node_detects rfl fun o => h.statement ..) fun statement => ?_)
  refine Shallow.detects ((Shallow.build _).bind fun item => ?_) not_false
  split
  · exact .pure _
  · exact .refuse nofun

theorem fromItem_detects :
    (fromItem r o outer scope).Detects (o.Exceeds room (o.membersAs .fromItem)) := by
  refine Object.tag_detects ?_
  generalize o.tagText = tag
  split
  · exact (table_shallow o scope).detects (Object.not_exceeds (by decide))
  · exact join_detects h ..
  · exact derivedTable_detects h ..
  · exact .refuse nofun

theorem selectItem_detects :
    (r.expression o scopes >>= fun expr => o.stringOrEmpty "alias" >>= fun aliasName =>
      pure (SelectItem.mk (some expr) aliasName)).Detects (o.TooDeep .selectItem room) := by
  refine ((h.expression o scopes).last fun expr => ?_).congr ?_
  · exact (o.stringOrEmpty_shallow _).bind fun aliasName => .pure _
  · cases room with
    | zero => rfl
    | succ room =>
      -- The alias is a scalar, so it adds nothing to the members of the expression.
      have flat : ¬ o.ExceedsAt room ("alias", .scalar) := Object.not_exceedsAt rfl
      simp only [Object.TooDeep, Object.exceeds_iff, Object.membersAs, Role.members]
      grind

theorem selectList_detects :
    (selectList r o scopes).Detects (o.ExceedsAt room ("selectList", .many .selectItem)) := by
  refine .ite (fun absent => ?_) fun _ => ?_
  · exact (Shallow.pure _).detects (Object.not_exceedsAt_of_absent (by simpa using absent))
  · refine .assoc (.last (Object.list_detects fun _ _ o opened => ?_) fun items => .build _)
    exact (selectItem_detects h o scopes).congr (Object.exceeds_node opened rfl).symm

theorem grouping?_detects :
    (grouping? r o scopes).Detects (o.ExceedsAt room ("groupBy", .expressions)) := by
  refine .ite (fun absent => ?_) fun _ => (h.children ..).last fun exprs => (Shallow.build _).map _
  exact (Shallow.pure _).detects (Object.not_exceedsAt_of_absent (by simpa using absent))

theorem read_detects :
    (read r o outer).Detects (o.Exceeds room (o.membersAs .statement)) := by
  refine Object.tag_detects (.ite (fun _ => .refuse nofun) fun _ => ?_)
  -- The FROM clause may be absent; either way the other clauses are read inside its scope.
  refine .ite (fun _ => Detects.bind (.map _ ?_) fun p => ?_) fun absent => Detects.bind ?_ fun p => ?_
  · exact Object.node_detects rfl fun o => h.fromItem o outer {}
  rotate_left
  · exact (Shallow.pure _).detects (Object.not_exceedsAt_of_absent absent)
  all_goals
    refine (selectList_detects h ..).bind fun list => (h.child? ..).bind fun filter => ?_
    refine .after (aggregation_shallow o) rfl fun aggregation => ?_
    refine (grouping?_detects h ..).bind fun grouping => (h.child? ..).bind fun having => ?_
    refine (h.order? ..).bind fun order => .after (limit?_shallow o) rfl fun limit => ?_
    exact (Shallow.build _).detects not_false

end StatementReader

/-! ## Any number of levels -/

theorem Readers.within_detects (catalog : Catalog) (room : Nat) :
    (within catalog room).Detects room := by
  induction room with
  | zero =>
    have refusing {α : Type} (o : Object) : (o.refuse (.tooDeep maxDepth) : Read α).Detects True :=
      ⟨nofun, fun _ => trivial⟩
    exact ⟨fun o _ => refusing o, fun o _ _ => refusing o, fun o _ => refusing o⟩
  | succ room ih =>
    exact ⟨StatementReader.read_detects ih, StatementReader.fromItem_detects ih,
      Expression.read_detects ih catalog⟩

theorem PushdownRequest.read_detects (o : Object) (schema : Schema) :
    (PushdownRequest.read o schema).Detects (o.Exceeds maxDepth
      [("involvedTables", .many .table), ("pushdownRequest", .one .statement)]) := by
  refine .assoc (.after ((o.list_shallow _).bind fun os => .mapM TableInfo.read_shallow) rfl
    fun tables => ?_)
  refine .assoc (.bind (Object.node_detects rfl fun o => ?_) fun statement => ?_)
  · exact (Readers.within_detects _ maxDepth).statement o []
  · exact (Shallow.pure _).detects not_false

namespace Request

theorem ofObject_detects (o : Object) :
    (ofObject o).Detects (o.Exceeds maxDepth (o.membersAs .request)) := by
  unfold ofObject readType
  rw [bind_assoc]
  refine Object.tag_detects ?_
  cases named : RequestType.ofName? o.tagText with
  | none => exact .refuse nofun
  | some type =>
    have pushdown := RequestType.eq_pushdown_iff named
    have rest (schema : Schema) :
        (if type = .pushdown then do
            return { type, schema, pushdown := some (← PushdownRequest.read o schema) }
          else pure { type, schema } : Read Request).Detects (o.Exceeds maxDepth
            (if o.tagText = RequestType.pushdown.name then
              [("involvedTables", .many .table), ("pushdownRequest", .one .statement)] else [])) := by
      refine .ite (fun same => ?_) fun other => ?_
      · rw [if_pos (pushdown.mp same)]
        exact (PushdownRequest.read_detects o schema).last fun _ => .pure _
      · rw [if_neg (mt pushdown.mpr other)]
        exact (Shallow.pure _).detects not_false
    refine .ite (fun _ => .assoc (.after ?_ rfl rest)) fun _ => .after (.pure _) rfl rest
    exact (o.child_shallow _).bind Schema.read_shallow

end Request

end Pushdown
