import Pushdown.Proofs.Request.Depth
import Pushdown.Proofs.Request.Reading

/-!
# What stands in an accepted request

A reading that succeeds has succeeded for every part. So if a request is accepted, each statement,
FROM item and expression that it holds, however deep, has been accepted inside some scopes, and a
request that holds one that is never accepted is refused.
-/

namespace Pushdown

/-! ## Objects inside objects -/

namespace Object

/-- The object stands in a member, in this role. -/
inductive Inside (o : Object) : String × Slot → Object → Role → Prop
  | one {key : String} {role : Role} {o' : Object} (opened : o.child key = .ok o') :
    Inside o (key, .one role) o' role
  | many {key : String} {role : Role} {v e : Json.Source} {elements : List Json.Source} {i : Nat}
      {o' : Object} (present : o.source? key = some v) (found : Json.elements? v = some elements)
      (listed : (e, i) ∈ elements.zipIdx) (opened : read (o.pathTo key ++ [.index i]) e = .ok o') :
    Inside o (key, .many role) o' role

/-- An object in one role holds another one in another role, at any depth. Only members that count
for the role are looked into. -/
inductive Holds : Object → Role → Object → Role → Prop
  | self (o : Object) (role : Role) : Holds o role o role
  | inside {o o' part : Object} {outer inner role : Role} {member : String × Slot}
      (listed : member ∈ o.membersAs outer) (here : o.Inside member o' inner)
      (rest : Holds o' inner part role) : Holds o outer part role

end Object

/-! ## Readings that accept every part -/

/-- The readers accept the object in the role, inside some scopes. Parts that hold no nodes are not
left to readers. -/
def Readers.Accepts (r : Readers) (o : Object) : Role → Prop
  | .statement => ∃ scopes s, r.statement o scopes = .ok s
  | .fromItem => ∃ outer before result, r.fromItem o outer before = .ok result
  | .expression | .selectItem => ∃ scopes n, r.expression o scopes = .ok n
  | .sortKey => ∃ scopes key, r.sortKey scopes o = .ok key
  | .request => False
  | .schema | .table | .column | .dataType | .limit | .frame | .bound => True

namespace Object

variable (o : Object) (r : Readers)

/-- The readers accept whatever stands in the member. -/
def AcceptedAt (member : String × Slot) : Prop :=
  ∀ o' role, o.Inside member o' role → r.Accepts o' role

/-- The readers accept whatever stands in one of the members. -/
def Accepted (members : List (String × Slot)) : Prop := ∀ member ∈ members, o.AcceptedAt r member

variable {o r} {member : String × Slot} {members : List (String × Slot)}

theorem accepted_nil : o.Accepted r [] := nofun

theorem accepted_cons :
    o.Accepted r (member :: members) ↔ o.AcceptedAt r member ∧ o.Accepted r members :=
  List.forall_mem_cons

theorem acceptedAt_of_isFlat (flat : member.2.isFlat) : o.AcceptedAt r member := by
  rintro o' role (⟨opened⟩ | ⟨present, found, listed, opened⟩) <;>
    cases role <;> simp [Slot.isFlat, Role.isFlat] at flat <;> trivial

theorem acceptedAt_of_absent (absent : ¬ o.has member.1) : o.AcceptedAt r member := by
  rintro o' role (⟨opened⟩ | ⟨present, found, listed, opened⟩)
  · simp only [child, bind_eq_ok, source_eq_ok] at opened
    obtain ⟨v, present, -⟩ := opened
    exact absurd (has_eq_true.mpr ⟨v, present⟩) absent
  · exact absurd (has_eq_true.mpr ⟨_, present⟩) absent

end Object

/-- The reading succeeds only if the property holds. -/
structure Read.Requires {α : Type} (x : Read α) (P : Prop) : Prop where
  accepted : ∀ a, x = .ok a → P

namespace Read.Requires

variable {α β γ : Type} {x : Read α} {f : α → Read β} {P Q : Prop}

theorem of (h : P) : x.Requires P := ⟨fun _ _ => h⟩

theorem imp (h : x.Requires P) (next : P → Q) : x.Requires Q :=
  ⟨fun a read => next (h.accepted a read)⟩

theorem refuse {path : Path} {flaw : Flaw} : (Read.refuse path flaw : Read α).Requires P := ⟨nofun⟩

/-- What is read first does not matter. -/
theorem behind (next : ∀ a, x = .ok a → (f a).Requires P) : (x >>= f).Requires P := by
  refine ⟨fun b read => ?_⟩
  obtain ⟨a, first, second⟩ := bind_eq_ok.mp read
  exact (next a first).accepted b second

/-- Only what is read first matters. -/
theorem first (h : x.Requires P) : (x >>= f).Requires P := by
  refine ⟨fun b read => ?_⟩
  obtain ⟨a, first, -⟩ := bind_eq_ok.mp read
  exact h.accepted a first

theorem assoc {g : β → Read γ} (h : (x >>= f >>= g).Requires P) :
    (x >>= fun a => f a >>= g).Requires P := by
  rwa [← bind_assoc]

theorem map {g : α → β} (h : x.Requires P) : (g <$> x).Requires P := by
  refine ⟨fun b read => ?_⟩
  obtain ⟨a, read, -⟩ := map_eq_ok.mp read
  exact h.accepted a read

theorem ite {c : Prop} [Decidable c] {y : Read α} (h : c → x.Requires P)
    (h' : ¬ c → y.Requires P) : (if c then x else y).Requires P := by
  split
  · exact h ‹_›
  · exact h' ‹_›

variable {o : Object} {r : Readers} {member : String × Slot} {members : List (String × Slot)}

theorem nil : x.Requires (o.Accepted r []) := .of Object.accepted_nil

/-- The first of the members is read, then the others. -/
theorem cons (h : x.Requires (o.AcceptedAt r member))
    (next : ∀ a, (f a).Requires (o.Accepted r members)) :
    (x >>= f).Requires (o.Accepted r (member :: members)) := by
  refine ⟨fun b read => ?_⟩
  obtain ⟨a, first, second⟩ := bind_eq_ok.mp read
  exact Object.accepted_cons.mpr ⟨h.accepted a first, (next a).accepted b second⟩

/-- The last of the members is read. -/
theorem last (h : x.Requires (o.AcceptedAt r member)) :
    (x >>= f).Requires (o.Accepted r [member]) :=
  h.cons fun _ => nil

/-- The first of the members holds no nodes. -/
theorem flat (flat : member.2.isFlat) (next : ∀ a, (f a).Requires (o.Accepted r members)) :
    (x >>= f).Requires (o.Accepted r (member :: members)) :=
  cons (.of (Object.acceptedAt_of_isFlat flat)) next

/-- An object is read in a member. -/
theorem child {key : String} {role : Role} {g : Object → Read β}
    (each : ∀ o', (g o').Requires (r.Accepts o' role)) :
    (o.child key >>= g).Requires (o.AcceptedAt r (key, .one role)) := by
  constructor
  rintro b read o' _ ⟨opened⟩
  obtain ⟨other, opened', read⟩ := bind_eq_ok.mp read
  obtain rfl := Except.ok.inj (opened.symm.trans opened')
  exact (each o').accepted b read

/-- The objects of a list are read. -/
theorem list {key : String} {role : Role} {g : Object → Read β}
    (each : ∀ o', (g o').Requires (r.Accepts o' role)) :
    (o.list key >>= fun os => os.mapM g).Requires (o.AcceptedAt r (key, .many role)) := by
  constructor
  rintro bs read o' _ (_ | ⟨present, found, listed, opened⟩)
  obtain ⟨os, listRead, read⟩ := bind_eq_ok.mp read
  simp only [Object.list, present, found] at listRead
  obtain ⟨other, member, result⟩ := exists_result_of_mapM_eq_ok listRead listed
  obtain rfl := Except.ok.inj (opened.symm.trans result)
  obtain ⟨b, -, read⟩ := exists_result_of_mapM_eq_ok read member
  exact (each o').accepted b read

end Read.Requires

/-- Behind the tag, the object is read as the tag says. -/
theorem Object.tag_requires {α : Type} {o : Object} {r : Readers} {f : String → Read α}
    {members : List (String × Slot)} (next : (f o.tagText).Requires (o.Accepted r members)) :
    (o.tag >>= f).Requires (o.Accepted r (("type", .scalar) :: members)) := by
  refine .behind fun text tag => ?_
  obtain rfl := tagText_of_tag tag
  exact next.imp fun rest => accepted_cons.mpr ⟨acceptedAt_of_isFlat rfl, rest⟩

namespace Readers

variable (r : Readers) (o : Object) (key : String) (scopes : List Scope)

theorem statement_requires : (r.statement o scopes).Requires (r.Accepts o .statement) :=
  ⟨fun s read => ⟨scopes, s, read⟩⟩

theorem fromItem_requires (before : Scope) :
    (r.fromItem o scopes before).Requires (r.Accepts o .fromItem) :=
  ⟨fun result read => ⟨scopes, before, result, read⟩⟩

theorem expression_requires : (r.expression o scopes).Requires (r.Accepts o .expression) :=
  ⟨fun n read => ⟨scopes, n, read⟩⟩

theorem child_requires : (r.child o key scopes).Requires (o.AcceptedAt r (key, .expression)) :=
  .child fun o => r.expression_requires o scopes

theorem child?_requires : (r.child? o key scopes).Requires (o.AcceptedAt r (key, .expression)) :=
  .ite (fun _ => .first (r.child_requires ..)) fun absent =>
    .of (Object.acceptedAt_of_absent absent)

theorem children_requires :
    (r.children o key scopes).Requires (o.AcceptedAt r (key, .expressions)) :=
  .list fun o => r.expression_requires o scopes

theorem argument_requires :
    (r.argument o scopes).Requires (o.AcceptedAt r ("arguments", .expressions)) :=
  .first (r.children_requires ..)

theorem sortKey_requires :
    (r.sortKey scopes o).Requires (o.Accepted r (o.membersAs .sortKey)) := by
  refine Object.tag_requires (.ite (fun _ => .first .refuse) fun _ => ?_)
  exact .cons (r.child_requires ..) fun _ => .flat rfl fun _ => .flat rfl fun _ => .nil

theorem order?_requires :
    (r.order? o scopes).Requires (o.AcceptedAt r ("orderBy", .many .sortKey)) := by
  refine .ite (fun absent => ?_) fun _ => ?_
  · exact .of (Object.acceptedAt_of_absent (by simpa using absent))
  · exact .assoc (.first (.list fun _ => ⟨fun key read => ⟨scopes, key, read⟩⟩))

end Readers

/-! ## One level -/

namespace Expression

variable (r : Readers) (catalog : Catalog) (o : Object) (scopes : List Scope)

theorem constant_requires (type : LiteralType) :
    (constant o type).Requires (o.Accepted r (Role.constantMembers type)) := by
  cases type with
  | null => exact .nil
  | interval => exact .flat rfl fun _ => .flat rfl fun _ => .nil
  | bool | exactNumeric | double | string | date | timestamp | timestampUtc | other _ =>
    exact .flat rfl fun _ => .nil

theorem window_requires :
    (window r o scopes).Requires (o.Accepted r (Role.taggedMembers "function_window")) := by
  refine .flat rfl fun _ => .cons (r.children_requires ..) fun _ => ?_
  refine .cons (r.children_requires ..) fun _ => .cons (r.order?_requires ..) fun _ => ?_
  exact .ite (fun _ => .flat rfl fun _ => .nil) fun _ => .flat rfl fun _ => .nil

theorem tagged_requires (tag : String) :
    (tagged r catalog o scopes tag).Requires (o.Accepted r (Role.taggedMembers tag)) := by
  have child {key : String} := r.child_requires o key scopes
  have child? {key : String} := r.child?_requires o key scopes
  have children {key : String} := r.children_requires o key scopes
  have argument := r.argument_requires o scopes
  unfold tagged
  split
  · exact .of fun member listed => Object.acceptedAt_of_isFlat (by revert member; decide)
  · exact .last children
  · exact .last children
  · exact .last child
  · exact .cons child fun _ => .cons child fun _ => .last child?
  · exact .cons child fun _ => .last child
  · exact .cons child fun _ => .cons child fun _ => .last child
  · exact .cons child fun _ => .last children
  · exact .cons child fun _ => .assoc (.last (.child fun o => r.statement_requires o scopes))
  · exact .last child
  · exact .last child
  · exact .flat rfl fun _ => .last children
  · exact .flat rfl fun _ => .last argument
  · exact .assoc (.flat rfl fun _ => .last argument)
  · exact .cons child? fun _ => .cons children fun _ => .last children
  · exact .flat rfl fun _ => .flat rfl fun _ => .cons children fun _ => .last child?
  · refine .flat rfl fun _ => .cons argument fun _ => .cons (r.order?_requires ..) fun _ => ?_
    exact .ite (fun _ => .flat rfl fun _ => .nil) fun _ => .flat rfl fun _ => .nil
  · exact window_requires r o scopes
  · exact .refuse

theorem read_requires :
    (read r catalog o scopes).Requires (o.Accepted r (o.membersAs .expression)) := by
  refine Object.tag_requires ?_
  unfold Role.expressionMembers
  cases operators.lookup o.tagText with
  | some op => exact .cons (r.child_requires ..) fun _ => .last (r.child_requires ..)
  | none =>
    cases constants.lookup o.tagText with
    | some type => exact constant_requires r o type
    | none => exact tagged_requires r catalog o scopes _

end Expression

namespace StatementReader

variable (r : Readers) (o : Object) (outer scopes : List Scope) (scope : Scope)

theorem join_requires :
    (join r o outer scope).Requires (o.Accepted r (Role.fromItemMembers "join")) := by
  refine .flat rfl fun name => ?_
  split
  · exact .refuse
  · refine .assoc (.cons (.child fun o => r.fromItem_requires o outer scope) fun left => ?_)
    refine .assoc (.cons (.child fun o => r.fromItem_requires o outer left.2) fun right => ?_)
    exact .last (r.child_requires ..)

theorem fromItem_requires :
    (fromItem r o outer scope).Requires (o.Accepted r (o.membersAs .fromItem)) := by
  refine Object.tag_requires ?_
  generalize o.tagText = tag
  split
  · exact .of fun member listed => Object.acceptedAt_of_isFlat (by revert member; decide)
  · exact join_requires r o outer scope
  · exact .flat rfl fun _ => .assoc (.last (.child fun o => r.statement_requires o outer))
  · exact .refuse

theorem selectList_requires :
    (selectList r o scopes).Requires (o.AcceptedAt r ("selectList", .many .selectItem)) := by
  refine .ite (fun absent => ?_) fun _ => ?_
  · exact .of (Object.acceptedAt_of_absent (by simpa using absent))
  · exact .assoc (.first (.list fun o => .first (r.expression_requires o scopes)))

theorem grouping?_requires :
    (grouping? r o scopes).Requires (o.AcceptedAt r ("groupBy", .expressions)) := by
  refine .ite (fun absent => ?_) fun _ => .first (r.children_requires ..)
  exact .of (Object.acceptedAt_of_absent (by simpa using absent))

theorem read_requires : (read r o outer).Requires (o.Accepted r (o.membersAs .statement)) := by
  refine Object.tag_requires (.ite (fun _ => .first .refuse) fun _ => ?_)
  -- The FROM clause may be absent; either way the other clauses are read inside its scope.
  refine .ite (fun _ => .cons (.map (.child fun o => r.fromItem_requires o outer {})) fun p => ?_)
    fun absent => .cons (.of (Object.acceptedAt_of_absent absent)) fun p => ?_
  all_goals
    refine .cons (selectList_requires ..) fun _ => .cons (r.child?_requires ..) fun _ => ?_
    refine .flat rfl fun _ => .cons (grouping?_requires ..) fun _ => ?_
    refine .cons (r.child?_requires ..) fun _ => .cons (r.order?_requires ..) fun _ => ?_
    exact .flat rfl fun _ => .nil

end StatementReader

/-! ## Any number of levels -/

/-- What is accepted has been accepted with room for one level of nodes, and then its parts have
been accepted with the rest of the room. -/
theorem Readers.Accepts.parts {catalog : Catalog} {room : Nat} {o : Object} {role : Role}
    (accepts : (within catalog room).Accepts o role) :
    ∃ room', o.Accepted (within catalog room') (o.membersAs role) := by
  cases role with
  | sortKey =>
    obtain ⟨scopes, key, read⟩ := accepts
    exact ⟨room, (sortKey_requires _ o scopes).accepted key read⟩
  | statement =>
    obtain ⟨scopes, s, read⟩ := accepts
    cases room with
    | zero => exact absurd read Object.refuse_ne_ok
    | succ room => exact ⟨room, (StatementReader.read_requires _ o scopes).accepted s read⟩
  | fromItem =>
    obtain ⟨outer, before, result, read⟩ := accepts
    cases room with
    | zero => exact absurd read Object.refuse_ne_ok
    | succ room =>
      have parts := StatementReader.fromItem_requires (within catalog room) o outer before
      exact ⟨room, parts.accepted result read⟩
  | expression =>
    obtain ⟨scopes, n, read⟩ := accepts
    cases room with
    | zero => exact absurd read Object.refuse_ne_ok
    | succ room => exact ⟨room, (Expression.read_requires _ catalog o scopes).accepted n read⟩
  | selectItem =>
    obtain ⟨scopes, n, read⟩ := accepts
    cases room with
    | zero => exact absurd read Object.refuse_ne_ok
    | succ room =>
      refine ⟨room, fun member listed => ?_⟩
      rcases List.mem_append.mp listed with inside | last
      · exact (Expression.read_requires _ catalog o scopes).accepted n read member inside
      · exact Object.acceptedAt_of_isFlat (List.mem_singleton.mp last ▸ rfl)
  | request => exact accepts.elim
  | schema | table | column | dataType | limit | frame | bound =>
    exact ⟨room, fun member listed => Object.acceptedAt_of_isFlat (Role.members_flat rfl listed)⟩

/-- Whatever stands in an object that has been accepted has been accepted. -/
theorem Readers.Accepts.of_holds {catalog : Catalog} {room : Nat} {o part : Object}
    {outer inner : Role} (accepts : (within catalog room).Accepts o outer)
    (holds : o.Holds outer part inner) : ∃ room', (within catalog room').Accepts part inner := by
  induction holds generalizing room with
  | self => exact ⟨room, accepts⟩
  | inside listed here _ ih =>
    obtain ⟨room', accepted⟩ := accepts.parts
    exact ih (accepted _ listed _ _ here)

theorem PushdownRequest.read_requires (o : Object) (schema : Schema) :
    (PushdownRequest.read o schema).Requires (∃ catalog,
      o.Accepted (Readers.within catalog maxDepth)
        [("involvedTables", .many .table), ("pushdownRequest", .one .statement)]) := by
  refine .assoc (.behind fun tables _ => ?_)
  refine .imp (P := o.Accepted _ [("pushdownRequest", .one .statement)]) ?_ fun statement =>
    ⟨Catalog.ofTables schema.name tables, Object.accepted_cons.mpr ⟨?_, statement⟩⟩
  · exact .assoc (.last (.child fun o => Readers.statement_requires _ o []))
  · exact Object.acceptedAt_of_isFlat rfl

namespace Request

theorem accepted_members {r : Readers} {o : Object} (rest : o.Accepted r
      (if o.tagText = RequestType.pushdown.name then
        [("involvedTables", .many .table), ("pushdownRequest", .one .statement)] else [])) :
    o.Accepted r (o.membersAs .request) :=
  Object.accepted_cons.mpr ⟨Object.acceptedAt_of_isFlat rfl,
    Object.accepted_cons.mpr ⟨Object.acceptedAt_of_isFlat rfl, rest⟩⟩

theorem ofObject_requires (o : Object) : (ofObject o).Requires (∃ catalog,
    o.Accepted (Readers.within catalog maxDepth) (o.membersAs .request)) := by
  unfold ofObject readType
  rw [bind_assoc]
  refine .behind fun text tag => ?_
  obtain rfl := Object.tagText_of_tag tag
  cases named : RequestType.ofName? o.tagText with
  | none => exact .refuse
  | some type =>
    have pushdown := RequestType.eq_pushdown_iff named
    have rest (schema : Schema) :
        (if type = .pushdown then do
            return { type, schema, pushdown := some (← PushdownRequest.read o schema) }
          else pure { type, schema } : Read Request).Requires (∃ catalog,
            o.Accepted (Readers.within catalog maxDepth) (o.membersAs .request)) := by
      refine .ite (fun same => ?_) fun other => .of ⟨default, accepted_members ?_⟩
      · refine .imp (.first (PushdownRequest.read_requires o schema)) ?_
        rintro ⟨catalog, accepted⟩
        refine ⟨catalog, accepted_members ?_⟩
        rwa [if_pos (pushdown.mp same)]
      · rw [if_neg (mt pushdown.mpr other)]
        exact Object.accepted_nil
    exact .ite (fun _ => .assoc (.behind fun _ _ => rest _)) fun _ => .behind fun _ _ => rest _

/-- In a request that has been accepted, every statement, FROM item and expression has been accepted
inside some scopes. -/
theorem accepts_of_holds {text : String} {r : Request} {root o : Object} {role : Role}
    (read : Request.read text = .ok r) (opened : Object.readDocument text = .ok root)
    (holds : root.Holds .request o role) (node : role.isNode) :
    ∃ catalog room, (Readers.within catalog room).Accepts o role := by
  obtain ⟨root', opened', accepted⟩ := bind_eq_ok.mp read
  obtain rfl := Except.ok.inj (opened.symm.trans opened')
  obtain ⟨catalog, parts⟩ := (ofObject_requires root).accepted r accepted
  cases holds with
  | self => cases node
  | inside listed here rest =>
    obtain ⟨room, accepts⟩ := (parts _ listed _ _ here).of_holds rest
    exact ⟨catalog, room, accepts⟩

end Request

end Pushdown
