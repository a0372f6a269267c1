import Mathlib.Data.List.Nodup
import Mathlib.Data.List.Perm.Basic
import Pushdown.Proofs.Syntax.WellFormed

/-!
# The order in which clauses are given

A statement is built from its clauses one after the other, and two of them write how it
aggregates: a grouping always does, an aggregation only if no grouping came before it. The
reader of requests gives the aggregation first, another caller may give it last. The order does
not matter: clauses with different names commute, so a list that has each clause at most once
gives the same statement, or the same fault, in every order.
-/

namespace Pushdown.Build

/-- The clauses a statement can have. -/
inductive ClauseName where
  | source | filter | grouping | aggregation | having | order | limit
deriving DecidableEq

/-- The clause of a statement that is given. -/
def Clause.name : Clause → ClauseName
  | source _ => .source
  | filter _ => .filter
  | grouping _ => .grouping
  | aggregation _ => .aggregation
  | having _ => .having
  | order _ => .order
  | limit _ => .limit

/-- A grouping and an aggregation write the same field, and still it does not matter which of
them comes first: without expressions the grouping leaves the field alone, and with them it wins
in both orders. -/
theorem Clause.apply_grouping_aggregation (s : Statement) (exprs : Option (List Node))
    (a : Aggregation) :
    (grouping exprs).apply ((aggregation a).apply s) =
      (aggregation a).apply ((grouping exprs).apply s) := by
  cases exprs with
  | none => by_cases grouped : s.aggregation = .groupBy <;> simp [apply, grouped]
  | some exprs => by_cases grouped : s.aggregation = .groupBy <;> simp [apply, grouped]

/-- Clauses of different names can be put into a statement in either order. -/
theorem Clause.apply_comm {c d : Clause} (apart : c.name ≠ d.name) (s : Statement) :
    c.apply (d.apply s) = d.apply (c.apply s) := by
  cases c with
  | grouping exprs =>
    cases d with
    | aggregation a => exact apply_grouping_aggregation s exprs a
    | grouping other => exact absurd rfl apart
    | _ => rfl
  | aggregation a =>
    cases d with
    | grouping exprs => exact (apply_grouping_aggregation s exprs a).symm
    | aggregation other => exact absurd rfl apart
    | _ => by_cases grouped : s.aggregation = .groupBy <;> simp [apply, grouped]
  | _ =>
    cases d with
    | aggregation a => by_cases grouped : s.aggregation = .groupBy <;> simp [apply, grouped]
    | _ => first | rfl | exact absurd rfl apart

/-- A statement with a grouping aggregates by it, after any clauses. -/
theorem Clause.foldl_grouping (clauses : List Clause) {s : Statement}
    (start : s.grouping.isSome → s.aggregation = .groupBy) :
    (clauses.foldl apply s).grouping.isSome →
      (clauses.foldl apply s).aggregation = .groupBy := by
  induction clauses generalizing s with
  | nil => exact start
  | cons clause clauses ih => exact ih (clause.apply_grouping start)

/-- The order of the clauses does not matter for what is built from them, a statement or a fault,
if each is given at most once. What is built from any clauses keeps the rules of statements: it
aggregates by groups exactly if it has a grouping, and a HAVING clause comes with an
aggregation. -/
theorem select_of_perm (list : Option (SelectList Node)) {clauses clauses' : List Clause}
    (once : (clauses.map Clause.name).Nodup) (perm : clauses.Perm clauses') :
    select list clauses' = select list clauses ∧
      ∀ s, select list clauses = .ok s →
        (s.aggregation = .groupBy ↔ s.grouping.isSome) ∧
          (s.having.isSome → s.aggregation ≠ .none) := by
  constructor
  · cases list with
    | none => rfl
    | some list =>
      have same : clauses.foldl Clause.apply { list } = clauses'.foldl Clause.apply { list } := by
        apply perm.foldl_eq'
        intro c c_mem d d_mem s
        by_cases named : c.name = d.name
        · rw [List.inj_on_of_nodup_map once c_mem d_mem named]
        · exact Clause.apply_comm (Ne.symm named) s
      rw [select, select, same]
  · intro s built
    cases list with
    | none => exact absurd built fail_ne_ok
    | some list =>
      obtain ⟨rfl, rules⟩ := checkClauses_eq_ok built (Clause.foldl_grouping clauses (by simp))
      exact ⟨rules.grouping, rules.having⟩

/-- A single group is asked for and a grouping is given: with either of them first, the
statement aggregates by groups. -/
theorem select_of_perm_grouped :
    select (some { star := true }) [.grouping (some []), .aggregation .singleGroup,
        .source (some (.table { name := "T", aliasName := "" }))] =
      .ok { list := { star := true }, source := some (.table { name := "T", aliasName := "" }),
            grouping := some [], aggregation := .groupBy } := by
  have given : select (some { star := true }) [.aggregation .singleGroup, .grouping (some []),
        .source (some (.table { name := "T", aliasName := "" }))] =
      .ok { list := { star := true }, source := some (.table { name := "T", aliasName := "" }),
            grouping := some [], aggregation := .groupBy } := rfl
  rw [(select_of_perm _ (by decide) (List.Perm.swap _ _ _)).1]
  exact given

end Pushdown.Build
