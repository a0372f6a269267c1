import Pushdown.Proofs.Outcome
import Pushdown.Proofs.Request.Form

/-!
# How deep a request is nested

The statements, FROM items and expressions of a request are its nodes, and `Chain` follows them from
an object to the objects inside it. Reading with a number of levels refuses a request as too deep
exactly where it comes upon a longer chain: `Detects` says so of one reading, passes through the
steps of a reading, and from each level of the readers to the next.
-/

namespace Pushdown

/-! ## Chains of nested nodes -/

/-- Whether an object in the role is a node. -/
def Role.isNode : Role → Bool
  | statement | fromItem | expression | selectItem => true
  | _ => false

/-- What stands in a slot holds a chain of that many nodes, each inside the one before it. -/
inductive Chain : Slot → Json.Source → Nat → Prop
  | node {role : Role} {s : Json.Source} {o : Object} (read : Object.read [] s = .ok o)
      (counts : role.isNode) : Chain (.one role) s 1
  | inNode {role : Role} {s v : Json.Source} {o : Object} {key : String} {slot : Slot} {n : Nat}
      (read : Object.read [] s = .ok o) (counts : role.isNode)
      (listed : (key, slot) ∈ o.membersAs role) (present : o.source? key = some v)
      (inner : Chain slot v n) : Chain (.one role) s (n + 1)
  | inOther {role : Role} {s v : Json.Source} {o : Object} {key : String} {slot : Slot} {n : Nat}
      (read : Object.read [] s = .ok o) (passed : role.isNode = false)
      (listed : (key, slot) ∈ o.membersAs role) (present : o.source? key = some v)
      (inner : Chain slot v n) : Chain (.one role) s n
  | element {role : Role} {s e : Json.Source} {elements : List Json.Source} {n : Nat}
      (read : Json.elements? s = some elements) (listed : e ∈ elements)
      (inner : Chain (.one role) e n) : Chain (.many role) s n

/-- A whole document holds a chain of that many nodes. -/
def Request.Chain (text : String) (n : Nat) : Prop :=
  ∃ o key slot v, Object.readDocument text = .ok o ∧ (key, slot) ∈ o.membersAs .request ∧
    o.source? key = some v ∧ Pushdown.Chain slot v n

/-- What stands in a slot holds a chain that does not fit into the room. -/
def Slot.Exceeds (slot : Slot) (room : Nat) (s : Json.Source) : Prop :=
  ∃ n, room < n ∧ Chain slot s n

namespace Object

variable {o : Object} {room : Nat} {path : Path} {s : Json.Source}

/-- A member holds a chain that does not fit into the room. -/
def ExceedsAt (o : Object) (room : Nat) (member : String × Slot) : Prop :=
  ∃ v, o.source? member.1 = some v ∧ member.2.Exceeds room v

/-- One of the members holds a chain that does not fit into the room. -/
def Exceeds (o : Object) (room : Nat) : (members : List (String × Slot)) → Prop
  | [] => False
  | member :: members => o.ExceedsAt room member ∨ o.Exceeds room members

theorem exceeds_iff {members : List (String × Slot)} :
    o.Exceeds room members ↔ ∃ member ∈ members, o.ExceedsAt room member := by
  induction members with
  | nil => simp [Exceeds]
  | cons member members ih => simp [Exceeds, ih]

/-- A node is too deep if there is no room for it, or if the rest of the room does not hold what
stands in its members. -/
def TooDeep (o : Object) (role : Role) : (room : Nat) → Prop
  | 0 => True
  | room + 1 => o.Exceeds room (o.membersAs role)

/-- What an object holds does not depend on where it stands. -/
theorem read_at (h : read path s = .ok o) : read [] s = .ok { o with path := [] } := by
  obtain ⟨members, present, found, rfl⟩ := read_eq_ok.mp h
  exact read_eq_ok.mpr ⟨members, present, found, rfl⟩

theorem eq_of_read {o' : Object} (h : read path s = .ok o) (h' : read [] s = .ok o') :
    o' = { o with path := [] } :=
  Except.ok.inj (h'.symm.trans (read_at h))

theorem exceeds_node {role : Role} (h : read path s = .ok o) (node : role.isNode) :
    (Slot.one role).Exceeds room s ↔ o.TooDeep role room := by
  constructor
  · rintro ⟨n, more, chain⟩
    cases room with
    | zero => trivial
    | succ room =>
      cases chain with
      | node => omega
      | inNode read _ listed present inner =>
        obtain rfl := eq_of_read h read
        exact exceeds_iff.mpr ⟨_, listed, _, present, _, Nat.lt_of_succ_lt_succ more, inner⟩
      | inOther _ passed => simp [node] at passed
  · intro deep
    cases room with
    | zero => exact ⟨1, Nat.one_pos, .node (read_at h) node⟩
    | succ room =>
      obtain ⟨⟨key, slot⟩, listed, v, present, n, more, chain⟩ := exceeds_iff.mp deep
      exact ⟨n + 1, Nat.succ_lt_succ more, .inNode (read_at h) node listed present chain⟩

theorem exceeds_other {role : Role} (h : read path s = .ok o) (other : role.isNode = false) :
    (Slot.one role).Exceeds room s ↔ o.Exceeds room (o.membersAs role) := by
  constructor
  · rintro ⟨n, more, chain⟩
    cases chain with
    | node _ counts | inNode _ counts => simp [other] at counts
    | inOther read _ listed present inner =>
      obtain rfl := eq_of_read h read
      exact exceeds_iff.mpr ⟨_, listed, _, present, n, more, inner⟩
  · intro deep
    obtain ⟨⟨key, slot⟩, listed, v, present, n, more, chain⟩ := exceeds_iff.mp deep
    exact ⟨n, more, .inOther (read_at h) other listed present chain⟩

end Object

/-! ## Slots without nodes -/

/-- Whether nothing in an object of the role is a node. -/
def Role.isFlat : Role → Bool
  | schema | table | column | dataType | limit | frame | bound => true
  | _ => false

/-- Whether nothing in the slot is a node. -/
def Slot.isFlat : Slot → Bool
  | scalar | texts => true
  | one role | many role => role.isFlat

theorem Role.members_flat {role : Role} (flat : role.isFlat) {tag key : String} {slot : Slot}
    (listed : (key, slot) ∈ role.members tag) : slot.isFlat := by
  have all : ∀ member ∈ role.members tag, member.2.isFlat := by
    cases role with
    | schema | table | column | dataType | limit | frame | bound => simp [members, Slot.isFlat, isFlat]
    | _ => simp [isFlat] at flat
  exact all _ listed

theorem Slot.not_chain {slot : Slot} (flat : slot.isFlat) {s : Json.Source} {n : Nat} :
    ¬ Chain slot s n := by
  intro chain
  induction chain with
  | @node role _ _ _ counts | @inNode role _ _ _ _ _ _ _ counts =>
    cases role <;> simp [isFlat, Role.isFlat, Role.isNode] at flat counts
  | inOther _ _ listed _ _ ih => exact ih (Role.members_flat flat listed)
  | element _ _ _ ih => exact ih flat

theorem Object.not_exceedsAt {o : Object} {room : Nat} {member : String × Slot}
    (flat : member.2.isFlat) : ¬ o.ExceedsAt room member := by
  rintro ⟨v, _, n, _, chain⟩
  exact Slot.not_chain flat chain

theorem Object.not_exceeds {o : Object} {room : Nat} {members : List (String × Slot)}
    (flat : ∀ member ∈ members, member.2.isFlat) : ¬ o.Exceeds room members := by
  intro deep
  obtain ⟨member, listed, deep⟩ := exceeds_iff.mp deep
  exact not_exceedsAt (flat member listed) deep

theorem Object.not_exceedsAt_of_absent {o : Object} {room : Nat} {member : String × Slot}
    (absent : ¬ o.has member.1) : ¬ o.ExceedsAt room member := by
  rintro ⟨v, present, -⟩
  exact absent (has_eq_true.mpr ⟨v, present⟩)

/-! ## Readings that find what is too deep -/

/-- The outcome says that something is nested too deep. -/
def Read.SaysDeep {α : Type} (x : Read α) : Prop :=
  ∃ path limit, x = .error (.malformed ⟨path, .tooDeep limit⟩)

/-- The reading succeeds only if it does not come upon what is too deep, and says so only if it
does. -/
structure Read.Detects {α : Type} (x : Read α) (deep : Prop) : Prop where
  accepted : ∀ a, x = .ok a → ¬ deep
  refused : x.SaysDeep → deep

namespace Read

variable {α β : Type} {x : Read α} {deep deeper : Prop}

namespace Detects

theorem bind {f : α → Read β} (h : x.Detects deep) (next : ∀ a, (f a).Detects deeper) :
    (x >>= f).Detects (deep ∨ deeper) := by
  constructor
  · intro b accepted
    obtain ⟨a, first, second⟩ := bind_eq_ok.mp accepted
    exact not_or.mpr ⟨h.accepted a first, (next a).accepted b second⟩
  · rintro ⟨path, limit, refused⟩
    rcases bind_eq_error.mp refused with first | ⟨a, _, second⟩
    · exact .inl (h.refused ⟨path, limit, first⟩)
    · exact .inr ((next a).refused ⟨path, limit, second⟩)

/-- Steps may be taken together. -/
theorem assoc {γ : Type} {f : α → Read β} {g : β → Read γ} (h : (x >>= f >>= g).Detects deep) :
    (x >>= fun a => f a >>= g).Detects deep := by
  rwa [← bind_assoc]

theorem map (f : α → β) (h : x.Detects deep) : (f <$> x).Detects deep :=
  ⟨fun _ accepted =>
    let ⟨a, read, _⟩ := map_eq_ok.mp accepted
    h.accepted a read,
    fun ⟨path, limit, refused⟩ => h.refused ⟨path, limit, map_eq_error.mp refused⟩⟩

theorem congr (h : x.Detects deep) (same : deep ↔ deeper) : x.Detects deeper :=
  ⟨fun a accepted => mt same.mpr (h.accepted a accepted), fun refused => same.mp (h.refused refused)⟩

theorem ite {c : Prop} [Decidable c] {y : Read α} (h : c → x.Detects deep)
    (h' : ¬ c → y.Detects deep) : (if c then x else y).Detects deep := by
  split
  · exact h ‹_›
  · exact h' ‹_›

/-- A refusal for another reason finds nothing. -/
theorem refuse {path : Path} {flaw : Flaw} (other : ∀ limit, flaw ≠ .tooDeep limit) :
    (Read.refuse path flaw : Read α).Detects deep := by
  refine ⟨nofun, ?_⟩
  rintro ⟨_, limit, same⟩
  cases same
  exact absurd rfl (other limit)

end Detects

/-- The reading never says that something is too deep. -/
structure Shallow (x : Read α) : Prop where
  never : ¬ x.SaysDeep

namespace Shallow

theorem detects (h : x.Shallow) (none : ¬ deep) : x.Detects deep :=
  ⟨fun _ _ => none, fun refused => absurd refused h.never⟩

theorem ok (a : α) : Read.Shallow (.ok a) := ⟨fun ⟨_, _, same⟩ => nomatch same⟩

theorem pure (a : α) : (Pure.pure a : Read α).Shallow := ok a

theorem refuse {path : Path} {flaw : Flaw} (other : ∀ limit, flaw ≠ .tooDeep limit) :
    (Read.refuse path flaw : Read α).Shallow :=
  ⟨(Detects.refuse other).refused⟩

theorem bind {f : α → Read β} (h : x.Shallow) (next : ∀ a, (f a).Shallow) :
    (x >>= f).Shallow := by
  have steps := (h.detects not_false).bind fun a => (next a).detects not_false
  exact ⟨fun deep => by simpa using steps.refused deep⟩

theorem map (f : α → β) (h : x.Shallow) : (f <$> x).Shallow :=
  ⟨fun ⟨path, limit, refused⟩ => h.never ⟨path, limit, map_eq_error.mp refused⟩⟩

theorem mapM {f : α → Read β} {as : List α} (each : ∀ a, (f a).Shallow) :
    (as.mapM f).Shallow := by
  refine ⟨fun ⟨path, limit, refused⟩ => ?_⟩
  obtain ⟨a, _, refused⟩ := mapM_eq_error refused
  exact (each a).never ⟨path, limit, refused⟩

theorem ite {c : Prop} [Decidable c] {y : Read α} (h : x.Shallow) (h' : y.Shallow) :
    (if c then x else y).Shallow := by
  split
  · exact h
  · exact h'

theorem build (result : Except ConstructionError α) : (Read.build result).Shallow := by
  cases result with
  | ok a => exact ok a
  | error e => exact ⟨fun ⟨_, _, same⟩ => nomatch same⟩

end Shallow

end Read

open Read (Shallow Detects)

/-! ## Objects and scalars -/

namespace Object

variable (o : Object) (key : String)

theorem read_shallow (path : Path) (s : Json.Source) : (read path s).Shallow := by
  unfold read
  refine .ite (.refuse nofun) ?_
  cases Json.members? s with
  | some members => exact .ok _
  | none => exact .refuse nofun

theorem source_shallow : (o.source key).Shallow := by
  unfold source
  cases o.source? key with
  | some source => exact .ok _
  | none => exact .refuse nofun

theorem string_shallow : (o.string key).Shallow := by
  refine (o.source_shallow key).bind fun source => ?_
  cases Json.string? source with
  | some s => exact .ok _
  | none => exact .refuse nofun

theorem stringOrEmpty_shallow : (o.stringOrEmpty key).Shallow := .ite (o.string_shallow key) (.ok _)

theorem scalar_shallow : (o.scalar key).Shallow := by
  refine (o.source_shallow key).bind fun source => ?_
  split
  · split
    · exact .ok _
    · exact .refuse nofun
  · exact .refuse nofun

theorem boolean_shallow (default : Bool) : (o.boolean key default).Shallow := by
  refine .ite (.pure _) ((o.scalar_shallow key).bind fun text => ?_)
  cases Text.readBool? text with
  | some b => exact .ok _
  | none => exact .refuse nofun

theorem integer_shallow (default : Int) : (o.integer key default).Shallow := by
  refine .ite (.pure _) ((o.scalar_shallow key).bind fun text => ?_)
  cases Text.readInteger? text with
  | some n => exact .ok _
  | none => exact .refuse nofun

theorem child_shallow : (o.child key).Shallow :=
  (o.source_shallow key).bind fun source => read_shallow _ source

theorem list_shallow : (o.list key).Shallow := by
  unfold list
  split
  · exact .ok _
  · split
    · exact .refuse nofun
    · exact .mapM fun (element, index) => read_shallow _ element

theorem texts_shallow : (o.texts key).Shallow := by
  have held (text : List Char) : (o.textsOf key text).Shallow := by
    unfold textsOf
    cases Json.scalars? text with
    | none => exact .refuse nofun
    | some scalars =>
      refine Shallow.bind (.mapM fun (name, value) => ?_) fun _ => .ok _
      dsimp only
      split
      · exact .ok _
      · exact .refuse nofun
  unfold texts
  cases o.source? key with
  | none => exact .ok _
  | some source =>
    refine .ite ?_ (held source)
    split
    · exact .refuse nofun
    · exact .ok _
    · exact held _

variable {o key} {β : Type} {f : Object → Read β} {room : Nat} {role : Role}

/-- A reading of an object finds what is too deep in the text that the object has. -/
theorem child_detects
    (each : ∀ path s o, read path s = .ok o → (f o).Detects ((Slot.one role).Exceeds room s)) :
    (o.child key >>= f).Detects (o.ExceedsAt room (key, .one role)) := by
  constructor
  · rintro b accepted ⟨v, present, deep⟩
    simp only [child, bind_eq_ok, source_eq_ok] at accepted
    obtain ⟨o', ⟨v', present', opened⟩, accepted⟩ := accepted
    obtain rfl := Option.some.inj (present.symm.trans present')
    exact (each _ _ _ opened).accepted b accepted deep
  · rintro ⟨path, limit, refused⟩
    rcases bind_eq_error.mp refused with refused | ⟨o', opened, refused⟩
    · exact absurd ⟨path, limit, refused⟩ (o.child_shallow key).never
    · simp only [child, bind_eq_ok, source_eq_ok] at opened
      obtain ⟨v, present, opened⟩ := opened
      exact ⟨v, present, (each _ _ _ opened).refused ⟨path, limit, refused⟩⟩

/-- Every object of a list comes from an element of the array, and each element has one. -/
theorem list_eq_ok {os : List Object} (h : o.list key = .ok os) :
    os = [] ∧ o.source? key = none ∨ ∃ v elements, o.source? key = some v ∧
      Json.elements? v = some elements ∧
      (∀ e ∈ elements, ∃ path, ∃ o' ∈ os, read path e = .ok o') ∧
      ∀ o' ∈ os, ∃ path, ∃ e ∈ elements, read path e = .ok o' := by
  unfold list at h
  cases present : o.source? key with
  | none => simp_all
  | some v =>
    cases found : Json.elements? v with
    | none => simp [present, found, refuseAt, Read.refuse] at h
    | some elements =>
      simp only [present, found] at h
      refine .inr ⟨v, elements, rfl, found, fun e listed => ?_, fun o' listed => ?_⟩
      · obtain ⟨index, bound, rfl⟩ := List.mem_iff_getElem.mp listed
        have numbered : (elements[index], index) ∈ elements.zipIdx :=
          List.mem_zipIdx_iff_getElem?.mpr (by simp [bound])
        exact ⟨_, exists_result_of_mapM_eq_ok h numbered⟩
      · obtain ⟨⟨e, index⟩, listed, opened⟩ := exists_of_mapM_eq_ok h listed
        exact ⟨_, e, List.fst_mem_of_mem_zipIdx listed, opened⟩

theorem list_detects
    (each : ∀ path s o, read path s = .ok o → (f o).Detects ((Slot.one role).Exceeds room s)) :
    (o.list key >>= fun os => os.mapM f).Detects (o.ExceedsAt room (key, .many role)) := by
  constructor
  · rintro bs accepted ⟨v, present, n, more, chain⟩
    obtain ⟨os, listRead, accepted⟩ := bind_eq_ok.mp accepted
    rcases list_eq_ok listRead with ⟨-, absent⟩ | ⟨v', elements, present', found, all, -⟩
    · simp [absent] at present
    obtain rfl := Option.some.inj (present.symm.trans present')
    obtain ⟨e, listed, inner⟩ : ∃ e ∈ elements, Chain (.one role) e n := by
      cases chain with
      | element read listed inner =>
        obtain rfl := Option.some.inj (read.symm.trans found)
        exact ⟨_, listed, inner⟩
    obtain ⟨path, o', listed, opened⟩ := all e listed
    obtain ⟨b, -, result⟩ := exists_result_of_mapM_eq_ok accepted listed
    exact (each path e o' opened).accepted b result ⟨n, more, inner⟩
  · rintro ⟨path, limit, refused⟩
    rcases bind_eq_error.mp refused with refused | ⟨os, listRead, refused⟩
    · exact absurd ⟨path, limit, refused⟩ (o.list_shallow key).never
    obtain ⟨o', listed, refused⟩ := mapM_eq_error refused
    rcases list_eq_ok listRead with ⟨rfl, -⟩ | ⟨v, elements, present, found, -, all⟩
    · simp at listed
    obtain ⟨path', e, listed, opened⟩ := all o' listed
    obtain ⟨n, more, inner⟩ := (each _ _ _ opened).refused ⟨path, limit, refused⟩
    exact ⟨v, present, n, more, .element found listed inner⟩

end Object

end Pushdown
