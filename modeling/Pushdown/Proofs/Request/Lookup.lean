import Pushdown.Proofs.Request.Resolution

/-!
# What a reference means

`Scope.Means` says what a table name and an alias mean within one scope. An alias means the item that
has it as its reference name, and then the table name does not count. A table name alone means the
item that has it as its reference name or, if there is none, the only base table of the name. A search
through nested scopes stops at the innermost scope in which the reference means something. It passes
over a scope in which nothing matches, and also over one with several base tables of the name.
-/

namespace Pushdown

namespace Scope

/-- Items have been introduced one after the other, beginning with an empty scope. -/
inductive Built : Scope → Prop
  | empty : Built {}
  | add {s t : Scope} {item : FromItem} (before : Built s) (added : s.add? item = some t) : Built t

/-- The items with the reference name that a request calls. -/
def called (s : Scope) (table aliasName : String) : List FromItem :=
  s.items.filter (·.reference == calledName table aliasName)

/-- The items that match by their reference name or, without an alias, by the name of their base
table. -/
def matching (s : Scope) (table aliasName : String) : List FromItem :=
  s.items.filter fun i => i.reference == calledName table aliasName ||
    (aliasName == "" && !i.derived && i.table == table)

/-- The item is the only one in the scope that the reference can mean. -/
def Means (s : Scope) (table aliasName : String) (item : FromItem) : Prop :=
  s.called table aliasName = [item] ∨
    aliasName = "" ∧ s.called table aliasName = [] ∧ s.baseTables table = [item]

/-- A table name stands for several base tables, and none of them goes by it. -/
def Ambiguous (s : Scope) (table aliasName : String) : Prop :=
  aliasName = "" ∧ s.called table aliasName = [] ∧ 1 < (s.baseTables table).length

/-! ## One scope -/

variable {s : Scope} {table aliasName : String} {item : FromItem}

theorem Built.nodup (built : s.Built) : (s.items.map (·.reference)).Nodup := by
  induction built with
  | empty => exact List.nodup_nil
  | add _ added ih => exact nodup_of_add? added ih

theorem Built.length_called_le (built : s.Built) : (s.called table aliasName).length ≤ 1 := by
  have apart : ((s.called table aliasName).map (·.reference)).Nodup :=
    (List.filter_sublist.map _).nodup built.nodup
  have same : (s.called table aliasName).map (·.reference) =
      List.replicate (s.called table aliasName).length (calledName table aliasName) := by
    refine List.eq_replicate_iff.mpr ⟨by simp, fun name member => ?_⟩
    obtain ⟨i, listed, rfl⟩ := List.mem_map.mp member
    exact eq_of_beq (List.mem_filter.mp listed).2
  rwa [same, List.nodup_replicate] at apart

/-- No reference means two things. -/
theorem Means.unique {other : FromItem} (h : s.Means table aliasName item)
    (h' : s.Means table aliasName other) : item = other := by
  rcases h with here | ⟨-, none, here⟩ <;> rcases h' with there | ⟨-, none', there⟩ <;> simp_all

/-- The scope is asked for the name that the request calls, and then for a base table. -/
theorem find?_eq_head? : s.find? table aliasName =
    (s.called table aliasName).head?.or
      (if aliasName ≠ "" then none
        else match s.baseTables table with
          | [item] => some item
          | _ => none) := by
  rw [called, List.head?_filter]
  unfold find? named? calledName
  by_cases given : aliasName = ""
  · simp only [given, ne_eq, not_true_eq_false, if_false, if_true]
    cases s.items.find? (·.reference == table) <;> rfl
  · simp [given]

theorem Built.find?_eq_some_iff (built : s.Built) :
    s.find? table aliasName = some item ↔ s.Means table aliasName item := by
  have few : (s.called table aliasName).length ≤ 1 := built.length_called_le
  rw [find?_eq_head?, Means]
  match found : s.called table aliasName with
  | [i] => simp
  | [] =>
    by_cases given : aliasName = ""
    · match tables : s.baseTables table with
      | [] | [i] | _ :: _ :: _ => simp [given]
    · simp [given]
  | _ :: _ :: _ => simp [found] at few

theorem matching_eq_nil_iff : s.matching table aliasName = [] ↔
    s.called table aliasName = [] ∧ (aliasName = "" → s.baseTables table = []) := by
  simp only [matching, called, baseTables, List.filter_eq_nil_iff]
  grind

/-- A reference means nothing in a scope if no item matches it or several base tables do. -/
theorem Built.find?_eq_none_iff (built : s.Built) : s.find? table aliasName = none ↔
    s.matching table aliasName = [] ∨ s.Ambiguous table aliasName := by
  have few : (s.called table aliasName).length ≤ 1 := built.length_called_le
  rw [find?_eq_head?, matching_eq_nil_iff, Ambiguous]
  match found : s.called table aliasName with
  | [i] => simp
  | [] =>
    by_cases given : aliasName = ""
    · match tables : s.baseTables table with
      | [] | [i] | _ :: _ :: _ => simp [given]
    · simp [given]
  | _ :: _ :: _ => simp [found] at few

/-- An alias means the item that goes by it. -/
theorem Means.reference_eq (h : s.Means table aliasName item) (given : aliasName ≠ "") :
    item.reference = aliasName := by
  rcases h with here | ⟨absent, -⟩
  · have member : item ∈ s.called table aliasName := here ▸ List.mem_singleton_self item
    simpa [calledName, given] using (List.mem_filter.mp member).2
  · exact absurd absent given

/-! ## Nested scopes -/

/-- A reference is resolved to what it means in the innermost scope in which it means something. In
the scopes inside of that one, no item matches the reference, or it is a table name that stands for
several base tables none of which goes by it. It is not resolved if all scopes are such. An alias
is resolved to an item that goes by it, whatever the table name is. -/
theorem resolve?_innermost {scopes : List Scope} (built : ∀ s ∈ scopes, s.Built)
    (table aliasName : String) :
    (∀ item, resolve? scopes table aliasName = some item ↔
      ∃ nearer scope farther, scopes = nearer ++ scope :: farther ∧
        scope.Means table aliasName item ∧
        ∀ s ∈ nearer, s.matching table aliasName = [] ∨ s.Ambiguous table aliasName) ∧
      (resolve? scopes table aliasName = none ↔
        ∀ s ∈ scopes, s.matching table aliasName = [] ∨ s.Ambiguous table aliasName) ∧
      (aliasName ≠ "" → ∀ item, resolve? scopes table aliasName = some item →
        item.reference = aliasName) := by
  have found (item : FromItem) : resolve? scopes table aliasName = some item ↔
      ∃ nearer scope farther, scopes = nearer ++ scope :: farther ∧
        scope.Means table aliasName item ∧
        ∀ s ∈ nearer, s.matching table aliasName = [] ∨ s.Ambiguous table aliasName := by
    rw [resolve?, List.findSome?_eq_some_iff]
    constructor
    · rintro ⟨nearer, scope, farther, rfl, here, nothing⟩
      exact ⟨nearer, scope, farther, rfl, (built scope (by simp)).find?_eq_some_iff.mp here,
        fun s inside => (built s (by simp [inside])).find?_eq_none_iff.mp (nothing s inside)⟩
    · rintro ⟨nearer, scope, farther, rfl, means, passed⟩
      exact ⟨nearer, scope, farther, rfl, (built scope (by simp)).find?_eq_some_iff.mpr means,
        fun s inside => (built s (by simp [inside])).find?_eq_none_iff.mpr (passed s inside)⟩
  refine ⟨found, ?_, fun given item resolved => ?_⟩
  · rw [resolve?, List.findSome?_eq_none_iff]
    exact forall₂_congr fun s inside => (built s inside).find?_eq_none_iff
  · obtain ⟨_, scope, _, _, means, _⟩ := (found item).mp resolved
    exact means.reference_eq given

theorem built_singleton (i : FromItem) : Built ⟨[i]⟩ := Built.empty.add rfl

theorem built_pair {i j : FromItem} (apart : i.reference ≠ j.reference) : Built ⟨[i, j]⟩ := by
  have added : Scope.add? ⟨[i]⟩ j = some ⟨[i, j]⟩ := by simp [add?, named?, apart]
  exact (built_singleton i).add added

/-- A statement refers to a table of the statement around it, which has an alias there. -/
theorem resolve?_innermost_of_correlated :
    let inner : Scope := ⟨[{ table := "CLICKS" }]⟩
    let outer : Scope := ⟨[{ table := "ORDERS" }, { table := "USERS", aliasName := "U" }]⟩
    ∃ nearer scope farther, [inner, outer] = nearer ++ scope :: farther ∧
      scope.Means "USERS" "" { table := "USERS", aliasName := "U" } ∧
      ∀ s ∈ nearer, s.matching "USERS" "" = [] ∨ s.Ambiguous "USERS" "" := by
  intro inner outer
  have built : ∀ s ∈ [inner, outer], s.Built := by
    simp only [List.mem_cons, List.not_mem_nil, or_false, forall_eq_or_imp, forall_eq]
    exact ⟨built_singleton _, built_pair (by decide)⟩
  exact ((resolve?_innermost built "USERS" "").1 _).mp (by decide)

/-- Two tables of one name in the inner statement do not keep the name from meaning the table of the
outer statement, and an alias is taken for its item although the table is another one. -/
theorem resolve?_passes_over_ambiguous :
    let inner : Scope :=
      ⟨[{ table := "T", aliasName := "A" }, { table := "T", aliasName := "B" }]⟩
    let outer : Scope := ⟨[{ table := "T" }]⟩
    let renamed : Scope := ⟨[{ table := "T", aliasName := "X" }]⟩
    (∀ s ∈ [inner, outer, renamed], s.Built) ∧
      inner.Ambiguous "T" "" ∧ resolve? [inner, outer] "T" "" = some { table := "T" } ∧
      (∃ item, resolve? [renamed] "U" "X" = some item ∧ item.derived = false ∧
        item.table ≠ "U") := by
  intro inner outer renamed
  refine ⟨?_, ⟨rfl, by decide, by decide⟩, by decide, _, rfl, rfl, by decide⟩
  simp only [List.mem_cons, List.not_mem_nil, or_false, forall_eq_or_imp, forall_eq]
  exact ⟨built_pair (by decide), built_singleton _, built_singleton _⟩

end Scope

end Pushdown
