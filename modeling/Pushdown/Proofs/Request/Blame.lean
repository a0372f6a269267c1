import Pushdown.Proofs.Request.Places
import Pushdown.Proofs.Request.Reading

/-!
# What a refusal blames

A refused request names the place of what is wrong with it. Each reader of an object that stands in
the document, given readers that blame places of the document, blames a place of the document
itself: the object, one of its members or elements, or what it leaves to the readers. So the whole
reading does.
-/

namespace Pushdown

/-! ## Readings that blame places of the document -/

/-- A single value among the notes or the properties of the schema. Both may be given as a string
that holds an object, and then the place is inside the string. -/
def Path.IsEntry : Path → Prop
  | [.member schema, .member texts, .member _] =>
    schema = "schemaMetadataInfo" ∧ (texts = "adapterNotes" ∨ texts = "properties")
  | _ => False

namespace Json

/-- The path is a place of the document, and its text tells its steps. -/
structure Shows (document : Source) (path : Path) : Prop where
  inside : PointsInto document path
  plain : ∀ step ∈ path, step.isPlain

theorem Shows.nil {document : Source} : Shows document [] := ⟨.nil, by simp⟩

theorem Shows.concat {document v : Source} {path : Path} {step : Step} (h : Shows document path)
    (found : at? document path = some v) (place : HasPlace v step) (plain : step.isPlain) :
    Shows document (path ++ [step]) :=
  ⟨h.inside.concat found place, by simpa [or_imp, forall_and] using ⟨h.plain, plain⟩⟩

/-- A place that a refusal of the document may name. -/
def Blamed (document : Source) (path : Path) : Prop := path.IsEntry ∨ Shows document path

end Json

/-- If the reading finds the document malformed, it names a place of the document. -/
structure Read.Blames {α : Type} (x : Read α) (document : Json.Source) : Prop where
  refused : ∀ e, x = .error (.malformed e) → Json.Blamed document e.path

namespace Read.Blames

variable {α β : Type} {document : Json.Source} {x : Read α} {f : α → Read β}

theorem ok (a : α) : Read.Blames (.ok a) document := ⟨fun e same => by cases same⟩

theorem pure (a : α) : (Pure.pure a : Read α).Blames document := ok a

theorem refuse {path : Path} {flaw : Flaw} (blamed : Json.Blamed document path) :
    (Read.refuse path flaw : Read α).Blames document := by
  refine ⟨fun e same => ?_⟩
  cases same
  exact blamed

/-- What is read first matters for what comes then. -/
theorem known (h : x.Blames document) (next : ∀ a, x = .ok a → (f a).Blames document) :
    (x >>= f).Blames document := by
  refine ⟨fun e refused => ?_⟩
  rcases bind_eq_error.mp refused with first | ⟨a, read, second⟩
  · exact h.refused e first
  · exact (next a read).refused e second

theorem bind (h : x.Blames document) (next : ∀ a, (f a).Blames document) :
    (x >>= f).Blames document :=
  h.known fun a _ => next a

theorem map (f : α → β) (h : x.Blames document) : (f <$> x).Blames document :=
  ⟨fun e refused => h.refused e (map_eq_error.mp refused)⟩

theorem mapM {f : α → Read β} {as : List α} (each : ∀ a ∈ as, (f a).Blames document) :
    (as.mapM f).Blames document := by
  refine ⟨fun e refused => ?_⟩
  obtain ⟨a, member, refused⟩ := mapM_eq_error refused
  exact (each a member).refused e refused

theorem ite {c : Prop} [Decidable c] {y : Read α} (h : x.Blames document)
    (h' : y.Blames document) : (if c then x else y).Blames document := by
  split
  · exact h
  · exact h'

theorem build (result : Except ConstructionError α) : (Read.build result).Blames document := by
  refine ⟨fun e refused => ?_⟩
  cases result <;> cases refused

end Read.Blames

open Read (Blames)

/-! ## Objects of the document -/

/-- The object has been read at its place in the document. -/
structure Object.StandsIn (o : Object) (document : Json.Source) : Prop where
  found : ∃ s members, Json.at? document o.path = some s ∧ Json.IsObject s members ∧
    o.members = .ofList members
  shown : Json.Shows document o.path

theorem Object.read_blames {document s : Json.Source} {path : Path}
    (shown : Json.Shows document path) : (read path s).Blames document := by
  unfold read
  refine .ite (.refuse (.inr shown)) ?_
  cases Json.members? s with
  | some members => exact .ok _
  | none => exact .refuse (.inr shown)

/-- What is read at its place stands there. -/
theorem Object.StandsIn.of_read {document s : Json.Source} {path : Path} {o : Object}
    (found : Json.at? document path = some s) (shown : Json.Shows document path)
    (opened : read path s = .ok o) : o.StandsIn document ∧ o.path = path := by
  obtain ⟨members, notNull, listed, rfl⟩ := read_eq_ok.mp opened
  exact ⟨⟨⟨s, members, found, ⟨notNull, listed⟩, rfl⟩, shown⟩, rfl⟩

namespace Object.StandsIn

variable {α β : Type} {document v : Json.Source} {o : Object} {key : String}
  (h : o.StandsIn document) (plain : (Step.member key).isPlain)

include h

theorem refuse (flaw : Flaw) : (o.refuse flaw : Read α).Blames document :=
  .refuse (.inr h.shown)

theorem at?_pathTo (present : o.source? key = some v) :
    Json.at? document (o.pathTo key) = some v ∧ Json.isNull v = false := by
  obtain ⟨s, members, found, object, same⟩ := h.found
  obtain ⟨listed, notNull⟩ := Option.filter_eq_some_iff.mp present
  rw [same, Dictionary.get?_ofList] at listed
  rw [pathTo, Json.at?_concat, found, Option.bind_some, object.step?, listed]
  exact ⟨rfl, by simpa using notNull⟩

include plain

theorem shown_pathTo : Json.Shows document (o.pathTo key) := by
  obtain ⟨s, members, found, object, -⟩ := h.found
  exact h.shown.concat found ⟨members, object⟩ plain

theorem refuseAt (flaw : Flaw) : (o.refuseAt key flaw : Read α).Blames document :=
  .refuse (.inr (h.shown_pathTo plain))

theorem source : (o.source key).Blames document := by
  unfold Object.source
  split
  · exact .ok _
  · exact h.refuseAt plain _

theorem string : (o.string key).Blames document := by
  refine (h.source plain).bind fun source => ?_
  split
  · exact .pure _
  · exact h.refuseAt plain _

theorem stringOrEmpty : (o.stringOrEmpty key).Blames document := .ite (h.string plain) (.ok _)

theorem scalar : (o.scalar key).Blames document := by
  refine (h.source plain).bind fun source => ?_
  split
  · split
    · exact .pure _
    · exact h.refuseAt plain _
  · exact h.refuseAt plain _

theorem boolean (default : Bool) : (o.boolean key default).Blames document := by
  refine .ite (.pure _) ((h.scalar plain).bind fun text => ?_)
  split
  · exact .pure _
  · exact h.refuseAt plain _

theorem integer (default : Int) : (o.integer key default).Blames document := by
  refine .ite (.pure _) ((h.scalar plain).bind fun text => ?_)
  split
  · exact .pure _
  · exact h.refuseAt plain _

theorem child_blames : (o.child key).Blames document :=
  (h.source plain).bind fun _ => read_blames (h.shown_pathTo plain)

theorem of_child {part : Object} (opened : o.child key = .ok part) :
    part.StandsIn document ∧ part.path = o.pathTo key := by
  obtain ⟨v, present, opened⟩ := bind_eq_ok.mp opened
  exact of_read (h.at?_pathTo (source_eq_ok.mp present)).1 (h.shown_pathTo plain) opened

/-- An object is read in a member, and stands there. -/
theorem child {f : Object → Read β}
    (each : ∀ part : Object, part.StandsIn document → (f part).Blames document) :
    (o.child key >>= f).Blames document :=
  (h.child_blames plain).known fun part opened => each part (h.of_child plain opened).1

/-- An element of an array in a member has a place in the document. -/
theorem element {elements : List Json.Source} {s : Json.Source} {i : Nat}
    (present : o.source? key = some v) (split : Json.elements? v = some elements)
    (listed : (s, i) ∈ elements.zipIdx) :
    Json.at? document (o.pathTo key ++ [Step.index i]) = some s ∧
      Json.Shows document (o.pathTo key ++ [Step.index i]) := by
  obtain ⟨found, notNull⟩ := h.at?_pathTo present
  have array : Json.IsArray v elements := ⟨notNull, split⟩
  have numbered := List.mem_zipIdx_iff_getElem?.mp listed
  obtain ⟨bound, -⟩ := List.getElem?_eq_some_iff.mp numbered
  refine ⟨?_, (h.shown_pathTo plain).concat found ⟨elements, array, bound⟩ rfl⟩
  rw [Json.at?_concat, found, Option.bind_some, array.step?]
  exact numbered

/-- The objects of a list are read, and stand there. -/
theorem list {f : List Object → Read β}
    (each : ∀ parts : List Object, (∀ part ∈ parts, part.StandsIn document) →
      (f parts).Blames document) :
    (o.list key >>= f).Blames document := by
  unfold Object.list
  split
  · exact each [] (by simp)
  next v present =>
    split
    · exact .known (h.refuseAt plain _) fun parts read => by cases read
    next elements split =>
      refine .known (.mapM fun (s, i) listed => ?_) fun parts opened => each parts ?_
      · exact read_blames (h.element plain present split listed).2
      · intro part member
        obtain ⟨⟨s, i⟩, listed, opened⟩ := exists_of_mapM_eq_ok opened member
        obtain ⟨found, shown⟩ := h.element plain present split listed
        exact (of_read found shown opened).1

end Object.StandsIn

/-! ## Parts without nodes -/

section Parts

variable {document : Json.Source} {o : Object} (h : o.StandsIn document)

include h

theorem IntervalRange.read_blames : (IntervalRange.read o).Blames document :=
  (h.string rfl).bind fun _ => .ite (.pure _) (h.refuseAt rfl _)

theorem DataType.read_blames : (DataType.read o).Blames document := by
  refine (h.string rfl).bind fun name => ?_
  split
  · exact h.refuseAt rfl _
  refine (h.integer rfl _).bind fun precision => (h.integer rfl _).bind fun scale => ?_
  refine (h.integer rfl _).bind fun size => (h.integer rfl _).bind fun fraction => ?_
  refine (h.integer rfl _).bind fun srid => (h.integer rfl _).bind fun byteSize => ?_
  refine (h.stringOrEmpty rfl).bind fun characterSet => ?_
  refine (h.boolean rfl _).bind fun withLocalTimeZone => ?_
  exact .ite ((IntervalRange.read_blames h).bind fun range => .pure _)
    ((Blames.pure _).bind fun range => .pure _)

theorem ColumnInfo.read_blames : (ColumnInfo.read o).Blames document := by
  refine (h.string rfl).bind fun name => h.child rfl fun type here => ?_
  exact (DataType.read_blames here).bind fun type => .pure _

theorem TableInfo.read_blames : (TableInfo.read o).Blames document := by
  refine (h.string rfl).bind fun name => (h.stringOrEmpty rfl).bind fun notes => ?_
  refine h.list rfl fun columns here => Blames.bind (.mapM fun column listed => ?_) fun _ => .pure _
  exact ColumnInfo.read_blames (here column listed)

end Parts

namespace Expression

variable {document : Json.Source} {o : Object} (h : o.StandsIn document)

include h

theorem column_blames (catalog : Catalog) (scopes : List Scope) :
    (column catalog o scopes).Blames document := by
  refine (h.string rfl).bind fun name => (h.stringOrEmpty rfl).bind fun table => ?_
  refine (h.stringOrEmpty rfl).bind fun aliasName => .ite (h.refuseAt rfl _) ?_
  split
  · exact h.refuse _
  · refine Blames.bind ?_ fun type => ?_
    · unfold columnType
      refine .ite ?_ (.ok _)
      split
      · exact .ok _
      · exact h.refuseAt rfl _
    · exact (Blames.build _).bind fun column => (h.integer rfl _).bind fun index => .pure _

theorem frameBound_blames : (frameBound o).Blames document := by
  refine (h.string rfl).bind fun tag => ?_
  split
  · exact h.refuseAt rfl _
  · exact .ite ((h.integer rfl _).bind fun offset => .pure _)
      ((Blames.pure _).bind fun offset => .pure _)

theorem frame_blames : (frame o).Blames document := by
  refine (h.string rfl).bind fun units => h.child rfl fun start here => ?_
  refine (frameBound_blames here).bind fun start => .ite ?_ ?_
  · have stop : (o.child "end" >>= frameBound).Blames document :=
      h.child rfl fun _ here => frameBound_blames here
    exact (stop.map some).bind fun stop => .pure _
  · exact (Blames.pure _).bind fun stop => .pure _

theorem constant_blames (type : LiteralType) : (constant o type).Blames document := by
  have value {f : String → Read Node} (next : ∀ text, (f text).Blames document) :
      (o.scalar "value" >>= f).Blames document := (h.scalar rfl).bind next
  cases type with
  | null => exact (Blames.build _).map _
  | interval =>
    refine value fun text => h.child rfl fun type here => ?_
    exact (DataType.read_blames here).bind fun range => (Blames.build _).map _
  | bool | exactNumeric | double | string | date | timestamp | timestampUtc | other _ =>
    exact value fun text => (Blames.build _).map _

end Expression

namespace StatementReader

variable {document : Json.Source} {o : Object} (h : o.StandsIn document)

include h

theorem table_blames (scope : Scope) : (table o scope).Blames document := by
  refine (h.string rfl).bind fun name => (h.stringOrEmpty rfl).bind fun aliasName => ?_
  refine (Blames.build _).bind fun table => ?_
  split
  · exact .pure _
  · exact h.refuse _

theorem aggregation_blames : (aggregation o).Blames document := by
  refine (h.stringOrEmpty rfl).bind fun name => ?_
  split
  · exact h.refuseAt rfl _
  · exact .pure _

theorem limit?_blames : (limit? o).Blames document := by
  refine .ite (.pure _) (h.child rfl fun o here => .ite (here.refuseAt rfl _) ?_)
  refine (here.integer rfl _).bind fun count => (here.integer rfl _).bind fun offset => ?_
  exact (Blames.build _).map some

end StatementReader

/-! ## One level -/

namespace Readers

/-- The readers blame places of the document in which the object stands. -/
structure Blame (r : Readers) (document : Json.Source) : Prop where
  statement {o : Object} (h : o.StandsIn document) (scopes : List Scope) :
    (r.statement o scopes).Blames document
  fromItem {o : Object} (h : o.StandsIn document) (outer : List Scope) (scope : Scope) :
    (r.fromItem o outer scope).Blames document
  expression {o : Object} (h : o.StandsIn document) (scopes : List Scope) :
    (r.expression o scopes).Blames document

namespace Blame

variable {r : Readers} {document : Json.Source} {o : Object} {key : String} (b : r.Blame document)
  (h : o.StandsIn document) (plain : (Step.member key).isPlain) (scopes : List Scope)

include b h

section

include plain

theorem child : (r.child o key scopes).Blames document :=
  h.child plain fun _ here => b.expression here scopes

theorem child? : (r.child? o key scopes).Blames document :=
  .ite ((b.child h plain scopes).bind fun _ => .pure _) (.pure _)

theorem children : (r.children o key scopes).Blames document :=
  h.list plain fun _ here => .mapM fun part listed => b.expression (here part listed) scopes

end

theorem argument : (r.argument o scopes).Blames document := by
  refine (b.children h rfl scopes).bind fun args => ?_
  split
  · exact .pure _
  · exact h.refuseAt rfl _

theorem sortKey : (r.sortKey scopes o).Blames document := by
  refine (h.string rfl).bind fun tag => .ite (h.refuseAt rfl _) ?_
  refine (b.child h rfl scopes).bind fun expr => (h.boolean rfl _).bind fun ascending => ?_
  exact (h.boolean rfl _).bind fun nullsLast => .pure _

theorem order? : (r.order? o scopes).Blames document := by
  refine .ite (.pure _) (h.list rfl fun parts here => Blames.bind ?_ fun keys => ?_)
  · exact .mapM fun part listed => b.sortKey (here part listed) scopes
  · exact (Blames.build _).map some

end Blame

end Readers

namespace Expression

variable {r : Readers} {document : Json.Source} {o : Object} (b : r.Blame document)
  (h : o.StandsIn document) (catalog : Catalog) (scopes : List Scope)

include b h

theorem case_blames : (case r o scopes).Blames document := by
  refine (b.child? h rfl scopes).bind fun basis => ?_
  refine (b.children h rfl scopes).bind fun conditions => ?_
  exact (b.children h rfl scopes).bind fun results => .ite (h.refuseAt rfl _) (.build _)

theorem aggregate_blames : (aggregate r o scopes).Blames document := by
  refine (h.string rfl).bind fun name => (h.boolean rfl _).bind fun distinct => ?_
  refine (b.children h rfl scopes).bind fun args => (b.child? h rfl scopes).bind fun filter => ?_
  exact .build _

theorem groupConcat_blames : (groupConcat r o scopes).Blames document := by
  refine (h.boolean rfl _).bind fun distinct => (b.argument h scopes).bind fun arg => ?_
  refine (b.order? h scopes).bind fun order => .ite ?_ ((Blames.pure _).bind fun _ => .build _)
  exact ((h.string rfl).map some).bind fun separator => .build _

theorem window_blames : (window r o scopes).Blames document := by
  refine (h.string rfl).bind fun name => (b.children h rfl scopes).bind fun args => ?_
  refine (b.children h rfl scopes).bind fun partition => (b.order? h scopes).bind fun order => ?_
  refine .ite ?_ ((Blames.pure _).bind fun bounds => .build _)
  have bounds : (o.child "frame" >>= frame).Blames document :=
    h.child rfl fun _ here => frame_blames here
  exact (bounds.map some).bind fun bounds => .build _

theorem tagged_blames (tag : String) : (tagged r catalog o scopes tag).Blames document := by
  unfold tagged
  split
  · exact column_blames h catalog scopes
  · exact (b.children h rfl scopes).bind fun operands => .build _
  · exact (b.children h rfl scopes).bind fun operands => .build _
  · exact (b.child h rfl scopes).bind fun operand => .build _
  · refine (b.child h rfl scopes).bind fun expr => (b.child h rfl scopes).bind fun pattern => ?_
    exact (b.child? h rfl scopes).bind fun escape => .build _
  · refine (b.child h rfl scopes).bind fun expr => (b.child h rfl scopes).bind fun pattern => ?_
    exact .build _
  · refine (b.child h rfl scopes).bind fun expr => (b.child h rfl scopes).bind fun low => ?_
    exact (b.child h rfl scopes).bind fun high => .build _
  · exact (b.child h rfl scopes).bind fun expr => (b.children h rfl scopes).bind fun _ => .build _
  · refine (b.child h rfl scopes).bind fun expr => h.child rfl fun part here => ?_
    exact (b.statement here scopes).bind fun statement => .build _
  · exact (b.child h rfl scopes).bind fun operand => .build _
  · exact (b.child h rfl scopes).bind fun operand => .build _
  · exact (h.string rfl).bind fun name => (b.children h rfl scopes).bind fun args => .build _
  · exact (h.string rfl).bind fun part => (b.argument h scopes).bind fun arg => .build _
  · refine h.child rfl fun type here => (DataType.read_blames here).bind fun type => ?_
    exact (b.argument h scopes).bind fun arg => .build _
  · exact case_blames b h scopes
  · exact aggregate_blames b h scopes
  · exact groupConcat_blames b h scopes
  · exact window_blames b h scopes
  · exact h.refuseAt rfl _

theorem read_blames : (read r catalog o scopes).Blames document := by
  refine (h.string rfl).bind fun tag => ?_
  split
  · refine (b.child h rfl scopes).bind fun left => (b.child h rfl scopes).bind fun right => ?_
    exact .build _
  · exact constant_blames h _
  · exact tagged_blames b h catalog scopes tag

end Expression

namespace StatementReader

variable {r : Readers} {document : Json.Source} {o : Object} (b : r.Blame document)
  (h : o.StandsIn document) (outer scopes : List Scope) (scope : Scope)

include b h

theorem join_blames : (join r o outer scope).Blames document := by
  refine (h.string rfl).bind fun name => ?_
  split
  · exact h.refuseAt rfl _
  · refine h.child rfl fun left here => (b.fromItem here outer scope).bind fun left => ?_
    refine h.child rfl fun right here => (b.fromItem here outer left.2).bind fun right => ?_
    refine (b.child h rfl _).bind fun condition => (Blames.build _).bind fun join => .pure _

theorem derivedTable_blames : (derivedTable r o outer scope).Blames document := by
  refine (h.string rfl).bind fun aliasName => h.child rfl fun part here => ?_
  refine (b.statement here outer).bind fun statement => (Blames.build _).bind fun item => ?_
  split
  · exact .pure _
  · exact h.refuseAt rfl _

theorem fromItem_blames : (fromItem r o outer scope).Blames document := by
  refine (h.string rfl).bind fun tag => ?_
  split
  · exact table_blames h scope
  · exact join_blames b h outer scope
  · exact derivedTable_blames b h outer scope
  · exact h.refuseAt rfl _

theorem selectList_blames : (selectList r o scopes).Blames document := by
  refine .ite (.pure _) (h.list rfl fun parts here => Blames.bind ?_ fun items => .build _)
  refine .mapM fun part listed => (b.expression (here part listed) scopes).bind fun expr => ?_
  exact ((here part listed).stringOrEmpty rfl).bind fun aliasName => .pure _

theorem grouping?_blames : (grouping? r o scopes).Blames document :=
  .ite (.pure _) ((b.children h rfl scopes).bind fun _ => (Blames.build _).map some)

theorem read_blames : (read r o outer).Blames document := by
  refine (h.string rfl).bind fun tag => .ite (h.refuseAt rfl _) ?_
  -- The FROM clause may be absent; either way the other clauses are read inside its scope.
  refine .ite (Blames.bind (.map _ ?_) fun source => ?_) (Blames.bind (.pure _) fun source => ?_)
  · exact h.child rfl fun _ here => b.fromItem here outer {}
  all_goals
    refine (selectList_blames b h _).bind fun list => (b.child? h rfl _).bind fun filter => ?_
    refine (aggregation_blames h).bind fun aggregation => ?_
    refine (grouping?_blames b h _).bind fun grouping => (b.child? h rfl _).bind fun having => ?_
    exact (b.order? h _).bind fun order => (limit?_blames h).bind fun limit => .build _

end StatementReader

/-! ## Any number of levels -/

theorem Readers.within_blame (catalog : Catalog) (document : Json.Source) (room : Nat) :
    (within catalog room).Blame document := by
  induction room with
  | zero => exact ⟨fun h _ => h.refuse _, fun h _ _ => h.refuse _, fun h _ => h.refuse _⟩
  | succ room ih =>
    exact ⟨StatementReader.read_blames ih, StatementReader.fromItem_blames ih,
      fun h scopes => Expression.read_blames ih h catalog scopes⟩

/-! ## Requests -/

section Requests

variable {document : Json.Source} {o : Object} (h : o.StandsIn document)

include h

theorem PushdownRequest.read_blames (schema : Schema) :
    (PushdownRequest.read o schema).Blames document := by
  refine h.list rfl fun tables here => Blames.bind ?_ fun tables => ?_
  · exact .mapM fun table listed => TableInfo.read_blames (here table listed)
  · refine h.child rfl fun part here => ?_
    exact ((Readers.within_blame _ document maxDepth).statement here []).bind fun _ => .pure _

/-- A single value among the texts of the schema is blamed by its name. -/
theorem Object.StandsIn.texts {key : String} (place : o.path = [.member "schemaMetadataInfo"])
    (named : key = "adapterNotes" ∨ key = "properties") (plain : (Step.member key).isPlain) :
    (o.texts key).Blames document := by
  have entry (name : String) : Json.Blamed document (o.pathTo key ++ [Step.member name]) := by
    refine .inl ?_
    rw [Object.pathTo, place]
    exact ⟨rfl, named⟩
  have held (text : List Char) : (o.textsOf key text).Blames document := by
    unfold Object.textsOf
    split
    · refine Blames.bind (.mapM fun (name, value) _ => ?_) fun _ => .pure _
      dsimp only
      split
      · exact .ok _
      · exact .refuse (entry name)
    · exact h.refuseAt plain _
  unfold Object.texts
  split
  · exact .ok _
  · refine .ite ?_ (held _)
    split
    · exact h.refuseAt plain _
    · exact .ok _
    · exact held _

theorem Schema.read_blames (place : o.path = [.member "schemaMetadataInfo"]) :
    (Schema.read o).Blames document := by
  refine (h.stringOrEmpty rfl).bind fun name => (h.texts place (.inl rfl) rfl).bind fun notes => ?_
  exact (h.texts place (.inr rfl) rfl).bind fun properties => .pure _

theorem Request.ofObject_blames (root : o.path = []) : (ofObject o).Blames document := by
  have type : (readType o).Blames document := by
    refine (h.string rfl).bind fun name => ?_
    split
    · exact .pure _
    · exact h.refuseAt rfl _
  have rest (type : RequestType) (schema : Schema) :
      (if type = .pushdown then do
          return { type, schema, pushdown := some (← PushdownRequest.read o schema) }
        else pure { type, schema } : Read Request).Blames document :=
    .ite ((PushdownRequest.read_blames h schema).bind fun _ => .pure _) (.pure _)
  refine type.bind fun type => .ite ?_ ((Blames.pure _).bind (rest type))
  refine (h.child_blames rfl).known fun part opened => ?_
  obtain ⟨here, place⟩ := h.of_child rfl opened
  refine (Schema.read_blames here ?_).bind (rest type)
  rw [place, Object.pathTo, root, List.nil_append]

end Requests

/-! ## Documents -/

/-- The word `null` has no members. -/
theorem Json.members?_of_isNull {s : Source} {members : List (String × Source)} (null : isNull s)
    (found : members? s = some members) : members = [] := by
  unfold members? at found
  split at found
  next rest opened =>
    have member : '\x7b' ∈ s := by
      refine (List.dropWhile_suffix isSpace).subset ?_
      rw [← skipSpace, opened]
      exact List.mem_cons_self ..
    unfold isNull at null
    simp only [Bool.or_eq_true, List.isEmpty_iff, beq_iff_eq] at null
    rcases mem_trimChars_or member with blank | member
    · exact absurd blank (by decide)
    · rcases null with empty | word
      · simp [empty] at member
      · exact absurd (word ▸ member) (by decide)
  next =>
    obtain ⟨rest, -, alone⟩ := Option.bind_eq_some_iff.mp found
    unfold alone? at alone
    split at alone
    · exact (Option.some.inj alone).symm
    · cases alone

namespace Request

variable {text : String}

theorem read_blames (present : Json.isNull (Json.content text) = false) :
    (read text).Blames (Json.content text) := by
  unfold read
  rw [Object.readDocument_eq present]
  refine Blames.known (Object.read_blames .nil) fun root opened => ?_
  obtain ⟨here, place⟩ := Object.StandsIn.of_read rfl .nil opened
  exact ofObject_blames here place

/-- A document that ends behind the word `null` is read as an object without members. -/
theorem path_of_isNull (null : Json.isNull (Json.content text)) {e : Malformed}
    (refused : read text = .error (.malformed e)) : e.path = [] ∨ e.path = [.member "type"] := by
  unfold read Object.readDocument at refused
  split at refused
  · cases refused
    exact .inl rfl
  cases found : Json.members? (Json.content text) with
  | none =>
    rw [found] at refused
    cases refused
    exact .inl rfl
  | some members =>
    rw [found, Json.members?_of_isNull null found] at refused
    cases refused
    exact .inr rfl

/-- A refusal that names a place names it by a text which reads back, and the place is in the
document: every step is taken from a value that has a place for it. Only a document that is nothing
but the word `null`, up to the NUL character that ends it, has no place for the type that it lacks.
Single values among the texts of the schema are left out, since they may stand inside a string. -/
theorem malformed_pointsInto_iff {e : Malformed} (refused : read text = .error (.malformed e))
    (placed : e.path ≠ []) (noEntry : ¬ e.path.IsEntry) :
    Path.read? e.path.text = some e.path ∧
      (Json.PointsInto (Json.content text) e.path ↔ Json.isNull (Json.content text) = false) := by
  cases null : Json.isNull (Json.content text) with
  | false =>
    have shown := ((read_blames null).refused e refused).resolve_left noEntry
    exact ⟨Path.read?_text shown.plain, by simpa using shown.inside⟩
  | true =>
    have place := (path_of_isNull null refused).resolve_left placed
    rw [place]
    refine ⟨Path.read?_text (by simp [Step.isPlain, Path.isMark]), ?_⟩
    simpa using Json.not_pointsInto_of_isNull null

set_option maxRecDepth 10000 in
/-- A column without a name, in a list of columns. -/
theorem malformed_pointsInto_selectList :
    let text := "\x7b\"type\":\"pushdown\",\"pushdownRequest\":\x7b\"type\":\"select\",
      \"selectList\":[\x7b\"type\":\"column\"\x7d]\x7d\x7d"
    ∃ e, read text = .error (.malformed e) ∧ e.path ≠ [] ∧ ¬ e.path.IsEntry ∧
      e.path.text = "pushdownRequest.selectList[0].name" ∧
      Path.read? "pushdownRequest.selectList[0].name" = some e.path ∧
      Json.PointsInto (Json.content text) e.path := by
  intro text
  have same : text = String.ofList _ := rfl
  have present : Json.isNull (Json.content text) = false := by
    rw [Json.content, same, String.toList_ofList]
    decide +kernel
  have outcome : (fun _ => ()) <$> read text = .error (.malformed ⟨[.member "pushdownRequest",
      .member "selectList", .index 0, .member "name"], .missing⟩) := by
    rw [read, same, Object.readDocument_ofList]
    decide +kernel
  have refused := map_eq_error.mp outcome
  obtain ⟨back, inside⟩ := malformed_pointsInto_iff refused (by simp) (by simp [Path.IsEntry])
  exact ⟨_, refused, by simp, by simp [Path.IsEntry], rfl, back, inside.mpr present⟩

/-- A document that is not an object, because it ends behind the word `null`, is blamed for the type
that it lacks. -/
theorem malformed_behind_null :
    let text := String.ofList ("null".toList ++ [Char.ofNat 0])
    ∃ e, read text = .error (.malformed e) ∧ e.path = [.member "type"] ∧ ¬ e.path.IsEntry ∧
      ¬ Json.PointsInto (Json.content text) e.path := by
  intro text
  have ends : Json.content text = "null".toList := by
    rw [Json.content, String.toList_ofList]
    decide
  have present : Json.isNull text.toList = false := by
    rw [String.toList_ofList]
    decide
  have refused : read text = .error (.malformed ⟨[.member "type"], .missing⟩) := by
    rw [read, Object.readDocument, present, ends]
    rfl
  refine ⟨_, refused, rfl, by simp [Path.IsEntry], ?_⟩
  rw [ends]
  exact Json.not_pointsInto_of_isNull (by decide)

end Request

end Pushdown
