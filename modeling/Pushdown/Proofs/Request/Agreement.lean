import Mathlib.Data.List.Forall2
import Pushdown.Proofs.Outcome
import Pushdown.Proofs.Request.Form

/-!
# Objects that read the same

Two objects agree in a role if reading them in that role has the same result, or fails for both.
They do so as soon as the members that count agree, one by one: that is one lemma for each function
that reads an object, and it needs nothing of the objects but those members. The readings of nested
objects enter through the agreement of the members that hold them.
-/

namespace Pushdown

/-! ## Two readings -/

namespace Read

variable {α β γ δ : Type} {R : α → β → Prop} {S : γ → δ → Prop}

/-- Both readings succeed, with related results, or both fail. -/
def Both (R : α → β → Prop) (x : Read α) (y : Read β) : Prop := Option.Rel R x.toOption y.toOption

/-- Both readings succeed, with the same result, or both fail. -/
def Same (x y : Read α) : Prop := x.toOption = y.toOption

theorem Both.bind {x : Read α} {y : Read β} {f : α → Read γ} {g : β → Read δ} (h : Both R x y)
    (next : ∀ a b, R a b → Both S (f a) (g b)) : Both S (x >>= f) (y >>= g) := by
  cases x with
  | error e =>
    cases y with
    | error e' => exact .none
    | ok b => cases h
  | ok a =>
    cases y with
    | error e' => cases h
    | ok b => cases h with | some related => exact next a b related

theorem same_iff_both {x y : Read α} : Same x y ↔ Both (· = ·) x y := by
  cases x with
  | error e =>
    cases y with
    | error e' => exact ⟨fun _ => .none, fun _ => rfl⟩
    | ok b => exact ⟨nofun, nofun⟩
  | ok a =>
    cases y with
    | error e' => exact ⟨nofun, nofun⟩
    | ok b => exact ⟨fun h => .some (Option.some.inj h), fun | .some h => congrArg some h⟩

/-- Lists that are gone through with related results give related lists. -/
theorem Both.mapM {f : α → Read γ} {g : β → Read δ} (each : ∀ a b, R a b → Both S (f a) (g b))
    {as : List α} {bs : List β} (related : List.Forall₂ R as bs) :
    Both (List.Forall₂ S) (as.mapM f) (bs.mapM g) := by
  induction related with
  | nil => exact .some .nil
  | cons first _ ih =>
    rw [List.mapM_cons, List.mapM_cons]
    refine (each _ _ first).bind fun c d related => ih.bind fun cs ds more => ?_
    exact .some (.cons related more)

namespace Same

variable {x y : Read α}

theorem refl (x : Read α) : Same x x := rfl

theorem refused {path path' : Path} {flaw flaw' : Flaw} :
    Same (Read.refuse path flaw : Read α) (Read.refuse path' flaw') := rfl

/-- The second steps may depend on what the first ones return. -/
theorem behind {y : Read β} {f : α → Read γ} {g : β → Read γ} (h : Both R x y)
    (next : ∀ a b, R a b → Same (f a) (g b)) : Same (x >>= f) (y >>= g) :=
  same_iff_both.mpr (h.bind fun a b related => same_iff_both.mp (next a b related))

theorem bind {f g : α → Read γ} (h : Same x y) (next : ∀ a, Same (f a) (g a)) :
    Same (x >>= f) (y >>= g) :=
  behind (same_iff_both.mp h) fun a _ same => same ▸ next a

theorem map (f : α → β) (h : Same x y) : Same (f <$> x) (f <$> y) := by
  rw [map_eq_pure_bind, map_eq_pure_bind]
  exact h.bind fun a => refl _

theorem mapM {f : α → Read γ} {g : β → Read γ} (each : ∀ a b, R a b → Same (f a) (g b))
    {as : List α} {bs : List β} (related : List.Forall₂ R as bs) :
    Same (as.mapM f) (bs.mapM g) := by
  refine same_iff_both.mpr ?_
  rw [← List.forall₂_eq_eq_eq]
  exact Both.mapM (fun a b related => same_iff_both.mp (each a b related)) related

theorem ite {c c' : Prop} [Decidable c] [Decidable c'] (same : c ↔ c') {x' y' : Read α}
    (h : Same x y) (h' : Same x' y') : Same (if c then x else x') (if c' then y else y') := by
  by_cases given : c
  · rw [if_pos given, if_pos (same.mp given)]
    exact h
  · rw [if_neg given, if_neg (mt same.mpr given)]
    exact h'

/-- Steps may be taken together. -/
theorem assoc {y : Read δ} {f : α → Read β} {f' : δ → Read β} {g g' : β → Read γ}
    (h : Same (x >>= f >>= g) (y >>= f' >>= g')) :
    Same (x >>= fun a => f a >>= g) (y >>= fun a => f' a >>= g') := by
  rwa [← bind_assoc, ← bind_assoc]

end Same

end Read

open Read (Both Same)

/-! ## Agreement -/

/-- The readers are those of some number of levels. -/
inductive Readers.IsLevel : Readers → Prop
  | within (catalog : Catalog) (room : Nat) : IsLevel (Readers.within catalog room)

/-- The objects read the same in the role. -/
def Role.Agree (role : Role) (o o' : Object) : Prop :=
  match role with
  | request => Same (Request.ofObject o) (Request.ofObject o')
  | schema => Same (Schema.read o) (Schema.read o')
  | table => Same (TableInfo.read o) (TableInfo.read o')
  | column => Same (ColumnInfo.read o) (ColumnInfo.read o')
  | dataType => Same (DataType.read o) (DataType.read o')
  | statement => ∀ r : Readers, r.IsLevel → ∀ scopes,
    Same (r.statement o scopes) (r.statement o' scopes)
  | fromItem => ∀ r : Readers, r.IsLevel → ∀ outer scope,
    Same (r.fromItem o outer scope) (r.fromItem o' outer scope)
  | expression => ∀ r : Readers, r.IsLevel → ∀ scopes,
    Same (r.expression o scopes) (r.expression o' scopes)
  | selectItem => (∀ r : Readers, r.IsLevel → ∀ scopes,
    Same (r.expression o scopes) (r.expression o' scopes)) ∧
      Same (o.stringOrEmpty "alias") (o'.stringOrEmpty "alias")
  | sortKey => ∀ r : Readers, r.IsLevel → ∀ scopes, Same (r.sortKey scopes o) (r.sortKey scopes o')
  | limit => (o.has "numElements" ↔ o'.has "numElements") ∧
    Same (o.integer "numElements" 0) (o'.integer "numElements" 0) ∧
    Same (o.integer "offset" 0) (o'.integer "offset" 0)
  | frame => Same (Expression.frame o) (Expression.frame o')
  | bound => Same (Expression.frameBound o) (Expression.frameBound o')

/-- The texts read the same as objects in the role. -/
def Role.AgreeIn (role : Role) (s t : Json.Source) : Prop :=
  ∀ path, Both role.Agree (Object.read path s) (Object.read path t)

namespace Json

/-- No scalar can be read from the text. -/
def NoScalar (s : Source) : Prop := string? s = none ∧ (scalar? s).bind Scalar.display? = none

/-- The texts of the object of scalars that a text holds. -/
def textsOf? (text : List Char) : Option (Dictionary String String) := do
  let scalars ← scalars? text
  let entries ← (Dictionary.ofList scalars).entries.mapM fun (name, value) =>
    value.display?.map (name, ·)
  return ⟨entries⟩

/-- The texts of an object of scalars that is given as such or as a string that holds one. -/
def texts? (s : Source) : Option (Dictionary String String) :=
  if s.head? = some '"' then
    (string? s).bind fun text => if text = "" then some {} else textsOf? text.toList
  else textsOf? s

end Json

/-- The texts read the same in the slot. -/
def Slot.Agree (slot : Slot) (s t : Json.Source) : Prop :=
  match slot with
  | scalar => s = t ∨ Json.NoScalar s ∧ Json.NoScalar t
  | texts => Json.texts? s = Json.texts? t
  | one role => role.AgreeIn s t
  | many role => Option.Rel (List.Forall₂ role.AgreeIn) (Json.elements? s) (Json.elements? t)

namespace Object

/-- The objects stand at the same place, and a member is in both or in neither and reads the same. -/
def AgreeAt (o o' : Object) (member : String × Slot) : Prop :=
  o.pathTo member.1 = o'.pathTo member.1 ∧
    Option.Rel member.2.Agree (o.source? member.1) (o'.source? member.1)

/-- The members agree one by one. -/
def Agree (o o' : Object) : (members : List (String × Slot)) → Prop
  | [] => True
  | member :: members => o.AgreeAt o' member ∧ o.Agree o' members

theorem agree_iff {o o' : Object} {members : List (String × Slot)} :
    o.Agree o' members ↔ ∀ member ∈ members, o.AgreeAt o' member := by
  induction members with
  | nil => simp [Agree]
  | cons member members ih => simp [Agree, ih]

end Object

/-! ## Members -/

namespace Object

variable {o o' : Object} {key : String} {slot : Slot} {role : Role}

theorem toOption_string : (o.string key).toOption = (o.source? key).bind Json.string? := by
  unfold string source
  cases o.source? key with
  | none => rfl
  | some s =>
    simp only [bind, Except.bind, Option.bind_some]
    cases Json.string? s <;> rfl

theorem toOption_scalar : (o.scalar key).toOption =
    (o.source? key).bind fun s => (Json.scalar? s).bind Json.Scalar.display? := by
  unfold scalar source
  cases o.source? key with
  | none => rfl
  | some s =>
    simp only [bind, Except.bind, Option.bind_some]
    cases Json.scalar? s with
    | none => rfl
    | some value =>
      simp only [Option.bind_some]
      cases value.display? <;> rfl

theorem toOption_textsOf {text : List Char} :
    (o.textsOf key text).toOption = Json.textsOf? text := by
  unfold textsOf Json.textsOf?
  cases Json.scalars? text with
  | none => rfl
  | some scalars =>
    simp only [displays, toOption_bind, toOption_mapM, Option.bind_eq_bind, Option.bind_some]
    congr 2
    funext (name, value)
    dsimp only
    cases value.display? <;> rfl

theorem toOption_texts : (o.texts key).toOption =
    match o.source? key with
    | none => some {}
    | some s => Json.texts? s := by
  unfold texts Json.texts?
  cases o.source? key with
  | none => rfl
  | some s =>
    by_cases quoted : s.head? = some '"'
    · simp only [quoted, BEq.rfl, if_true]
      cases Json.string? s with
      | none => rfl
      | some text =>
        by_cases empty : text = ""
        · simp [empty, Except.toOption]
        · simp [empty, toOption_textsOf]
    · simp only [beq_eq_false_iff_ne.mpr quoted, quoted, Bool.false_eq_true, if_false]
      exact toOption_textsOf

namespace AgreeAt

/-- Both members are absent, or both are present and agree. -/
theorem cases (h : o.AgreeAt o' (key, slot)) : (o.source? key = none ∧ o'.source? key = none) ∨
    ∃ s t, o.source? key = some s ∧ o'.source? key = some t ∧ slot.Agree s t := by
  obtain ⟨-, related⟩ := h
  generalize o.source? key = s at related
  generalize o'.source? key = t at related
  cases related with
  | none => exact .inl ⟨rfl, rfl⟩
  | some agree => exact .inr ⟨_, _, rfl, rfl, agree⟩

theorem has (h : o.AgreeAt o' (key, slot)) : o.has key = o'.has key := by
  unfold Object.has
  rcases h.cases with ⟨absent, absent'⟩ | ⟨s, t, present, present', -⟩
  · rw [absent, absent']
  · rw [present, present']
    rfl

theorem string (h : o.AgreeAt o' (key, .scalar)) : Same (o.string key) (o'.string key) := by
  rw [Same, toOption_string, toOption_string]
  rcases h.cases with ⟨absent, absent'⟩ | ⟨s, t, present, present', rfl | ⟨none, none'⟩⟩
  · rw [absent, absent']
  · rw [present, present']
  · simp [present, present', none.1, none'.1]

theorem scalar (h : o.AgreeAt o' (key, .scalar)) : Same (o.scalar key) (o'.scalar key) := by
  rw [Same, toOption_scalar, toOption_scalar]
  rcases h.cases with ⟨absent, absent'⟩ | ⟨s, t, present, present', rfl | ⟨none, none'⟩⟩
  · rw [absent, absent']
  · rw [present, present']
  · simp [present, present', none.2, none'.2]

theorem stringOrEmpty (h : o.AgreeAt o' (key, .scalar)) :
    Same (o.stringOrEmpty key) (o'.stringOrEmpty key) :=
  .ite (by rw [h.has]) h.string (.refl _)

theorem boolean (h : o.AgreeAt o' (key, .scalar)) (default : Bool) :
    Same (o.boolean key default) (o'.boolean key default) := by
  refine .ite (by rw [h.has]) (.refl _) (h.scalar.bind fun text => ?_)
  cases Text.readBool? text with
  | some b => exact .refl _
  | none => exact .refused

theorem integer (h : o.AgreeAt o' (key, .scalar)) (default : Int) :
    Same (o.integer key default) (o'.integer key default) := by
  refine .ite (by rw [h.has]) (.refl _) (h.scalar.bind fun text => ?_)
  cases Text.readInteger? text with
  | some n => exact .refl _
  | none => exact .refused

theorem texts (h : o.AgreeAt o' (key, .texts)) : Same (o.texts key) (o'.texts key) := by
  rw [Same, toOption_texts, toOption_texts]
  rcases h.cases with ⟨absent, absent'⟩ | ⟨s, t, present, present', agree⟩
  · rw [absent, absent']
  · rw [present, present']
    exact agree

/-- What the tag says is the same for both objects. -/
theorem tag {α : Type} {f g : String → Read α} (h : o.AgreeAt o' ("type", .scalar))
    (next : Same (f o.tagText) (g o.tagText)) : Same (o.tag >>= f) (o'.tag >>= g) := by
  have same : Same o.tag o'.tag := h.string
  cases tag : o.tag with
  | error e =>
    cases tag' : o'.tag with
    | error e' => rfl
    | ok text => simp [Same, tag, tag', Except.toOption] at same
  | ok text =>
    cases tag' : o'.tag with
    | error e' => simp [Same, tag, tag', Except.toOption] at same
    | ok text' =>
      obtain rfl : text = text' := by simpa [Same, tag, tag', Except.toOption] using same
      exact tagText_of_tag tag ▸ next

/-- An object in a member is read in its role. -/
theorem child {β : Type} {f : Object → Read β} (h : o.AgreeAt o' (key, .one role))
    (each : ∀ o o', role.Agree o o' → Same (f o) (f o')) :
    Same (o.child key >>= f) (o'.child key >>= f) := by
  unfold Object.child Object.source
  rcases h.cases with ⟨absent, absent'⟩ | ⟨s, t, present, present', agree⟩
  · rw [absent, absent']
    rfl
  · rw [present, present', h.1]
    exact .behind (agree _) each

/-- The objects of two arrays are read in their role, one by one. -/
theorem list (h : o.AgreeAt o' (key, .many role)) :
    Both (List.Forall₂ role.Agree) (o.list key) (o'.list key) := by
  unfold Object.list
  rcases h.cases with ⟨absent, absent'⟩ | ⟨s, t, present, present', agree⟩
  · rw [absent, absent']
    exact .some .nil
  · rw [present, present', h.1]
    change Option.Rel (List.Forall₂ role.AgreeIn) (Json.elements? s) (Json.elements? t) at agree
    simp only
    generalize Json.elements? s = es at agree
    generalize Json.elements? t = es' at agree
    cases agree with
    | none => exact .none
    | @some es es' agree =>
      have numbered : List.Forall₂ (fun e e' : Json.Source × Nat => e.2 = e'.2 ∧ role.AgreeIn e.1 e'.1)
          es.zipIdx es'.zipIdx := by
        generalize 0 = index
        induction agree generalizing index with
        | nil => exact .nil
        | cons first _ ih => exact .cons ⟨rfl, first⟩ (ih _)
      refine Both.mapM (fun e e' related => ?_) numbered
      rw [related.1]
      exact related.2 _

theorem eachOf {β : Type} {f : Object → Read β} (h : o.AgreeAt o' (key, .many role))
    (each : ∀ o o', role.Agree o o' → Same (f o) (f o')) :
    Same (o.list key >>= fun os => os.mapM f) (o'.list key >>= fun os => os.mapM f) :=
  .behind h.list fun _ _ related => .mapM each related

end AgreeAt

end Object

/-! ## Objects without nodes -/

variable {o o' : Object}

theorem DataType.read_same (h : o.Agree o' (o.membersAs .dataType)) :
    Same (DataType.read o) (DataType.read o') := by
  obtain ⟨tag, precision, scale, size, fraction, srid, byteSize, characterSet, local', range, -⟩ := h
  refine tag.tag ?_
  cases TypeKind.read? o.tagText with
  | none => exact .refused
  | some kind =>
    refine (precision.integer 0).bind fun _ => (scale.integer 0).bind fun _ => ?_
    refine (size.integer 0).bind fun _ => (fraction.integer 0).bind fun _ => ?_
    refine (srid.integer 0).bind fun _ => (byteSize.integer 0).bind fun _ => ?_
    refine characterSet.stringOrEmpty.bind fun _ => (local'.boolean false).bind fun _ => ?_
    refine .ite .rfl (.bind (range.string.bind fun name => ?_) fun _ => .refl _) (.refl _)
    exact .ite .rfl (.refl _) .refused

theorem ColumnInfo.read_same (h : o.Agree o' (o.membersAs .column)) :
    Same (ColumnInfo.read o) (ColumnInfo.read o') := by
  obtain ⟨name, type, -⟩ := h
  refine name.string.bind fun _ => .assoc ((type.child fun _ _ agree => agree).bind fun _ => .refl _)

theorem TableInfo.read_same (h : o.Agree o' (o.membersAs .table)) :
    Same (TableInfo.read o) (TableInfo.read o') := by
  obtain ⟨name, notes, columns, -⟩ := h
  refine name.string.bind fun _ => notes.stringOrEmpty.bind fun _ => ?_
  exact .assoc ((columns.eachOf fun _ _ agree => agree).bind fun _ => .refl _)

theorem Schema.read_same (h : o.Agree o' (o.membersAs .schema)) :
    Same (Schema.read o) (Schema.read o') := by
  obtain ⟨name, notes, properties, -⟩ := h
  refine name.stringOrEmpty.bind fun _ => notes.texts.bind fun _ => ?_
  exact properties.texts.bind fun _ => .refl _

namespace Expression

theorem frameBound_same (h : o.Agree o' (o.membersAs .bound)) :
    Same (frameBound o) (frameBound o') := by
  obtain ⟨tag, offset, -⟩ := h
  refine tag.tag ?_
  cases bounds.lookup o.tagText with
  | none => exact .refused
  | some type => exact .ite .rfl ((offset.integer 0).bind fun _ => .refl _) (.refl _)

theorem frame_same (h : o.Agree o' (o.membersAs .frame)) : Same (frame o) (frame o') := by
  obtain ⟨units, start, stop, -⟩ := h
  refine units.string.bind fun _ => .assoc ((start.child fun _ _ agree => agree).bind fun _ => ?_)
  refine .ite (by rw [stop.has]) (.bind (.map some ?_) fun _ => .refl _) (.refl _)
  exact stop.child fun _ _ agree => agree

end Expression

/-! ## Nodes -/

namespace Readers.IsLevel

variable {r : Readers} (level : r.IsLevel) (scopes : List Scope) {key : String}

include level

theorem child (h : o.AgreeAt o' (key, .expression)) :
    Same (r.child o key scopes) (r.child o' key scopes) :=
  Object.AgreeAt.child h fun _ _ agree => agree r level scopes

theorem child? (h : o.AgreeAt o' (key, .expression)) :
    Same (r.child? o key scopes) (r.child? o' key scopes) :=
  .ite (by rw [h.has]) ((level.child scopes h).bind fun _ => .refl _) (.refl _)

theorem children (h : o.AgreeAt o' (key, .expressions)) :
    Same (r.children o key scopes) (r.children o' key scopes) :=
  Object.AgreeAt.eachOf h fun _ _ agree => agree r level scopes

theorem argument (h : o.AgreeAt o' ("arguments", .expressions)) :
    Same (r.argument o scopes) (r.argument o' scopes) := by
  refine (level.children scopes h).bind fun args => ?_
  match args with
  | [_] => exact .refl _
  | [] | _ :: _ :: _ => exact .refused

theorem order? (h : o.AgreeAt o' ("orderBy", .many .sortKey)) :
    Same (r.order? o scopes) (r.order? o' scopes) := by
  refine .ite (by rw [h.has]) (.refl _) (.assoc (.bind ?_ fun _ => .refl _))
  exact h.eachOf fun _ _ agree => agree r level scopes

theorem sortKey (h : o.Agree o' (o.membersAs .sortKey)) :
    Same (r.sortKey scopes o) (r.sortKey scopes o') := by
  obtain ⟨tag, expr, ascending, nullsLast, -⟩ := h
  refine tag.tag (.ite .rfl .refused ?_)
  refine (level.child scopes expr).bind fun _ => (ascending.boolean true).bind fun ascending => ?_
  exact (nullsLast.boolean ascending).bind fun _ => .refl _

end Readers.IsLevel

namespace Expression

variable {r : Readers} (level : r.IsLevel) (catalog : Catalog) (scopes : List Scope)

theorem column_same (h : o.Agree o' (Role.taggedMembers "column")) :
    Same (column catalog o scopes) (column catalog o' scopes) := by
  obtain ⟨name, table, aliasName, index, -⟩ := h
  refine name.string.bind fun name => table.stringOrEmpty.bind fun table => ?_
  refine aliasName.stringOrEmpty.bind fun aliasName => .ite .rfl .refused ?_
  cases Scope.resolve? scopes table aliasName with
  | none => exact .refused
  | some item =>
    refine Same.bind ?_ fun type => (Same.refl _).bind fun _ => (index.integer 0).bind fun _ => .refl _
    refine .ite .rfl ?_ (.refl _)
    cases catalog.type? item.table name with
    | some type => exact .refl _
    | none => exact .refused

theorem constant_same (type : LiteralType) (h : o.Agree o' (Role.constantMembers type)) :
    Same (constant o type) (constant o' type) := by
  cases type with
  | null => exact .refl _
  | interval =>
    obtain ⟨value, type, -⟩ := h
    refine value.scalar.bind fun _ => .assoc ((type.child fun _ _ agree => agree).bind fun _ => ?_)
    exact .refl _
  | bool | exactNumeric | double | string | date | timestamp | timestampUtc | other _ =>
    obtain ⟨value, -⟩ := h
    exact value.scalar.bind fun _ => .refl _

include level

theorem case_same (h : o.Agree o' (Role.taggedMembers "function_scalar_case")) :
    Same (case r o scopes) (case r o' scopes) := by
  obtain ⟨basis, conditions, results, -⟩ := h
  refine (level.child? scopes basis).bind fun _ => (level.children scopes conditions).bind fun _ => ?_
  exact (level.children scopes results).bind fun _ => .ite .rfl .refused (.refl _)

theorem aggregate_same (h : o.Agree o' (Role.taggedMembers "function_aggregate")) :
    Same (aggregate r o scopes) (aggregate r o' scopes) := by
  obtain ⟨name, distinct, args, filter, -⟩ := h
  refine name.string.bind fun _ => (distinct.boolean false).bind fun _ => ?_
  refine (level.children scopes args).bind fun _ => (level.child? scopes filter).bind fun _ => ?_
  exact .refl _

theorem groupConcat_same (h : o.Agree o' (Role.taggedMembers "function_aggregate_group_concat")) :
    Same (groupConcat r o scopes) (groupConcat r o' scopes) := by
  obtain ⟨distinct, arg, order, separator, -⟩ := h
  refine (distinct.boolean false).bind fun _ => (level.argument scopes arg).bind fun _ => ?_
  refine (level.order? scopes order).bind fun _ => .ite (by rw [separator.has]) ?_ (.refl _)
  exact (separator.string.map some).bind fun _ => .refl _

theorem window_same (h : o.Agree o' (Role.taggedMembers "function_window")) :
    Same (window r o scopes) (window r o' scopes) := by
  obtain ⟨name, args, partition, order, bounds, -⟩ := h
  refine name.string.bind fun _ => (level.children scopes args).bind fun _ => ?_
  refine (level.children scopes partition).bind fun _ => (level.order? scopes order).bind fun _ => ?_
  refine .ite (by rw [bounds.has]) (.bind (.map some ?_) fun _ => .refl _) (.refl _)
  exact bounds.child fun _ _ agree => agree

theorem tagged_same (tag : String) (h : o.Agree o' (Role.taggedMembers tag)) :
    Same (tagged r catalog o scopes tag) (tagged r catalog o' scopes tag) := by
  unfold tagged
  split
  · exact column_same catalog scopes h
  · exact (level.children scopes h.1).bind fun _ => .refl _
  · exact (level.children scopes h.1).bind fun _ => .refl _
  · exact (level.child scopes h.1).bind fun _ => .refl _
  · obtain ⟨expr, pattern, escape, -⟩ := h
    refine (level.child scopes expr).bind fun _ => (level.child scopes pattern).bind fun _ => ?_
    exact (level.child? scopes escape).bind fun _ => .refl _
  · obtain ⟨expr, pattern, -⟩ := h
    refine (level.child scopes expr).bind fun _ => (level.child scopes pattern).bind fun _ => ?_
    exact .refl _
  · obtain ⟨expr, low, high, -⟩ := h
    refine (level.child scopes expr).bind fun _ => (level.child scopes low).bind fun _ => ?_
    exact (level.child scopes high).bind fun _ => .refl _
  · obtain ⟨expr, values, -⟩ := h
    refine (level.child scopes expr).bind fun _ => (level.children scopes values).bind fun _ => ?_
    exact .refl _
  · obtain ⟨expr, statement, -⟩ := h
    refine (level.child scopes expr).bind fun _ => .assoc (.bind ?_ fun _ => .refl _)
    exact statement.child fun _ _ agree => agree r level scopes
  · exact (level.child scopes h.1).bind fun _ => .refl _
  · exact (level.child scopes h.1).bind fun _ => .refl _
  · obtain ⟨name, args, -⟩ := h
    exact name.string.bind fun _ => (level.children scopes args).bind fun _ => .refl _
  · obtain ⟨part, arg, -⟩ := h
    exact part.string.bind fun _ => (level.argument scopes arg).bind fun _ => .refl _
  · obtain ⟨type, arg, -⟩ := h
    refine .assoc ((type.child fun _ _ agree => agree).bind fun _ => ?_)
    exact (level.argument scopes arg).bind fun _ => .refl _
  · exact case_same level scopes h
  · exact aggregate_same level scopes h
  · exact groupConcat_same level scopes h
  · exact window_same level scopes h
  · exact .refused

theorem read_same (h : o.Agree o' (o.membersAs .expression)) :
    Same (read r catalog o scopes) (read r catalog o' scopes) := by
  obtain ⟨tag, h⟩ := h
  refine tag.tag ?_
  unfold Role.expressionMembers at h
  generalize o.tagText = tag at h
  cases op : operators.lookup tag with
  | some op =>
    obtain ⟨left, right, -⟩ : o.Agree o' [("left", .expression), ("right", .expression)] := by
      simpa only [op] using h
    exact (level.child scopes left).bind fun _ => (level.child scopes right).bind fun _ => .refl _
  | none =>
    cases type : constants.lookup tag with
    | some type => exact constant_same _ (by simpa only [op, type] using h)
    | none => exact tagged_same level catalog scopes tag (by simpa only [op, type] using h)

end Expression

namespace StatementReader

variable {r : Readers} (level : r.IsLevel) (outer scopes : List Scope) (scope : Scope)

theorem table_same (h : o.Agree o' (Role.fromItemMembers "table")) :
    Same (table o scope) (table o' scope) := by
  obtain ⟨name, aliasName, -⟩ := h
  refine name.string.bind fun name => aliasName.stringOrEmpty.bind fun aliasName => ?_
  refine (Same.refl _).bind fun _ => ?_
  cases scope.add? { table := name, aliasName } with
  | some scope => exact .refl _
  | none => exact .refused

theorem aggregation_same (h : o.AgreeAt o' ("aggregationType", .scalar)) :
    Same (aggregation o) (aggregation o') := by
  refine h.stringOrEmpty.bind fun name => ?_
  cases Aggregation.ofName name with
  | other name => exact .refused
  | _ => exact .refl _

theorem limit?_same (h : o.AgreeAt o' ("limit", .one .limit)) : Same (limit? o) (limit? o') := by
  refine .ite (by rw [h.has]) (.refl _) (h.child fun o o' agree => ?_)
  obtain ⟨given, count, offset⟩ := agree
  refine .ite (by simpa using given) .refused ?_
  exact count.bind fun _ => offset.bind fun _ => .refl _

include level

theorem join_same (h : o.Agree o' (Role.fromItemMembers "join")) :
    Same (join r o outer scope) (join r o' outer scope) := by
  obtain ⟨name, left, right, condition, -⟩ := h
  refine name.string.bind fun name => ?_
  cases joinTypes.lookup name with
  | none => exact .refused
  | some type =>
    refine .assoc (.bind (left.child fun _ _ agree => agree r level outer scope) fun left => ?_)
    refine .assoc (.bind (right.child fun _ _ agree => agree r level outer left.2) fun right => ?_)
    exact (level.child _ condition).bind fun _ => .refl _

theorem derivedTable_same (h : o.Agree o' (Role.fromItemMembers "sub_select")) :
    Same (derivedTable r o outer scope) (derivedTable r o' outer scope) := by
  obtain ⟨aliasName, statement, -⟩ := h
  refine aliasName.string.bind fun aliasName => ?_
  refine .assoc (.bind (statement.child fun _ _ agree => agree r level outer) fun _ => ?_)
  refine (Same.refl _).bind fun _ => ?_
  cases scope.add? { table := aliasName, aliasName, derived := true } with
  | some scope => exact .refl _
  | none => exact .refused

theorem fromItem_same (h : o.Agree o' (o.membersAs .fromItem)) :
    Same (fromItem r o outer scope) (fromItem r o' outer scope) := by
  obtain ⟨tag, h⟩ := h
  refine tag.tag ?_
  generalize o.tagText = tag at h
  split
  · exact table_same scope h
  · exact join_same level outer scope h
  · exact derivedTable_same level outer scope h
  · exact .refused

theorem selectList_same (h : o.AgreeAt o' ("selectList", .many .selectItem)) :
    Same (selectList r o scopes) (selectList r o' scopes) := by
  refine .ite (by rw [h.has]) (.refl _) (.assoc (.bind (h.eachOf fun o o' agree => ?_) fun _ => .refl _))
  exact (agree.1 r level scopes).bind fun _ => agree.2.bind fun _ => .refl _

theorem grouping?_same (h : o.AgreeAt o' ("groupBy", .expressions)) :
    Same (grouping? r o scopes) (grouping? r o' scopes) :=
  .ite (by rw [h.has]) (.refl _) ((level.children scopes h).bind fun _ => .refl _)

theorem read_same (h : o.Agree o' (o.membersAs .statement)) :
    Same (read r o outer) (read r o' outer) := by
  obtain ⟨tag, source, list, filter, aggregation, grouping, having, order, limit, -⟩ := h
  refine tag.tag (.ite .rfl .refused (.ite (by rw [source.has]) (.bind (.map _ ?_) fun p => ?_)
    ((Same.refl _).bind fun p => ?_)))
  · exact source.child fun _ _ agree => agree r level outer {}
  all_goals
    refine (selectList_same level _ list).bind fun _ => (level.child? _ filter).bind fun _ => ?_
    refine (aggregation_same aggregation).bind fun _ => ?_
    refine (grouping?_same level _ grouping).bind fun _ => (level.child? _ having).bind fun _ => ?_
    exact (level.order? _ order).bind fun _ => (limit?_same limit).bind fun _ => .refl _

end StatementReader

theorem PushdownRequest.read_same (schema : Schema) (h : o.Agree o'
    [("involvedTables", .many .table), ("pushdownRequest", .one .statement)]) :
    Same (PushdownRequest.read o schema) (PushdownRequest.read o' schema) := by
  obtain ⟨tables, statement, -⟩ := h
  refine .assoc ((tables.eachOf fun _ _ agree => agree).bind fun tables => .assoc ?_)
  refine .bind (statement.child fun _ _ agree => ?_) fun _ => .refl _
  exact agree _ (.within _ maxDepth) []

theorem Request.ofObject_same (h : o.Agree o' (o.membersAs .request)) :
    Same (ofObject o) (ofObject o') := by
  obtain ⟨tag, schema, h⟩ := h
  unfold ofObject readType
  rw [bind_assoc, bind_assoc]
  refine tag.tag ?_
  cases named : RequestType.ofName? o.tagText with
  | none => exact .refused
  | some type =>
    have rest (schema : Schema) : Same
        (if type = .pushdown then do
            return { type, schema, pushdown := some (← PushdownRequest.read o schema) }
          else pure { type, schema } : Read Request)
        (if type = .pushdown then do
            return { type, schema, pushdown := some (← PushdownRequest.read o' schema) }
          else pure { type, schema } : Read Request) := by
      by_cases pushdown : type = .pushdown
      · rw [if_pos ((RequestType.eq_pushdown_iff named).mp pushdown)] at h
        rw [if_pos pushdown, if_pos pushdown]
        exact (PushdownRequest.read_same schema h).bind fun _ => .refl _
      · rw [if_neg pushdown, if_neg pushdown]
        exact .refl _
    refine .ite (by rw [schema.has]) (.assoc (.bind ?_ rest)) (rest _)
    exact schema.child fun _ _ agree => agree

/-- Objects whose members agree are read the same. -/
theorem Role.agree_of_members {role : Role} (h : o.Agree o' (o.membersAs role)) :
    role.Agree o o' := by
  cases role with
  | request => exact Request.ofObject_same h
  | schema => exact Schema.read_same h
  | table => exact TableInfo.read_same h
  | column => exact ColumnInfo.read_same h
  | dataType => exact DataType.read_same h
  | sortKey => exact fun r level scopes => level.sortKey scopes h
  | limit => exact ⟨by rw [h.1.has], h.1.integer 0, h.2.1.integer 0⟩
  | frame => exact Expression.frame_same h
  | bound => exact Expression.frameBound_same h
  | statement =>
    rintro r ⟨catalog, _ | room⟩ scopes
    · exact .refused
    · exact StatementReader.read_same (.within catalog room) scopes h
  | fromItem =>
    rintro r ⟨catalog, _ | room⟩ outer scope
    · exact .refused
    · exact StatementReader.fromItem_same (.within catalog room) outer scope h
  | expression =>
    rintro r ⟨catalog, _ | room⟩ scopes
    · exact .refused
    · exact Expression.read_same (.within catalog room) catalog scopes h
  | selectItem =>
    have members := Object.agree_iff.mp h
    have aliasName : o.AgreeAt o' ("alias", .scalar) := members _ (List.mem_append_right _ (by simp))
    refine ⟨?_, aliasName.stringOrEmpty⟩
    rintro r ⟨catalog, _ | room⟩ scopes
    · exact .refused
    · refine Expression.read_same (.within catalog room) catalog scopes (Object.agree_iff.mpr ?_)
      exact fun member listed => members member (List.mem_append_left _ listed)

end Pushdown
