import Pushdown.Dialect.Builtin
import Pushdown.Proofs.Dictionary
import Pushdown.Proofs.Sql.Rendering
import Pushdown.Proofs.Syntax.WellFormed

/-!
# Which trees a dialect can express

`Node.expressible` looks at one node and the dialect, and not at the children of the node. A
dialect that writes all arguments of its functions has a text for a tree exactly if every node of
it is expressible, and otherwise refuses it because of a node that is not.

A construct is `Decided` by a rule and by parts if it is refused exactly when the rule is broken
or a part is refused. The steps of a construct compose, so each function of the renderer has one
such lemma, and `node_decided` collects them.
-/

namespace Pushdown

/-- Whether the function can be applied to so many arguments. -/
def FunctionSpec.takes (spec : FunctionSpec) (count : Nat) : Bool :=
  spec.arity < 0 || (count : Int) == spec.arity

/-- Whether the separator is the one that is used if none is given. -/
def isDefaultSeparator (separator : Option String) : Bool :=
  separator == none || separator == some ","

namespace Dialect

/-- Whether the dialect has the join. -/
def joins (d : Dialect) : JoinType → Bool
  | .inner | .left => true
  | .right => d.has .rightOuterJoin
  | .full => d.has .fullOuterJoin
  | .other _ => false

/-- Whether the dialect has constants of the type. -/
def writes (d : Dialect) : LiteralType → Bool
  | .interval => d.has .intervalLiterals
  | .other _ => false
  | _ => true

/-- Whether the dialect has the function with so many arguments. -/
def calls (d : Dialect) (name : String) (count : Nat) : Bool :=
  match d.profile.functions.get? name with
  | some spec => spec.takes count
  | none => false

/-- Whether the dialect can take the field out of a date. -/
def extracts (d : Dialect) (part : DatePart) : Bool :=
  match d.extractStyle, part with
  | .standard, _ => d.has .extract
  | .strftime, .other _ => false
  | _, _ => true

/-- Whether the dialect can join distinct texts with the separator. -/
def joinsDistinct (d : Dialect) (separator : Option String) : Bool :=
  match d.concatStyle with
  | .stringAggWithin => false
  | .listagg since => d.notes.atLeast since
  | .groupConcatArgument => isDefaultSeparator separator
  | _ => true

end Dialect

/-- Whether the dialect has a text for the node itself, whatever its children are. -/
def Node.expressible (d : Dialect) : Node → Bool
  | .join type .. => d.joins type
  | .subSelect .. => d.has .derivedTables
  | .literal l => d.writes l.type
  | .inSubquery .. => d.has .inSubquery
  | .regexpLike .. => d.has .regexpLike && d.profile.regexp.takes 2
  | .function name args => d.calls name args.length
  | .extract part _ => d.extracts part
  | .cast _ type => (d.profile.typeName? type).isSome
  | .aggregate name _ _ filter =>
    d.profile.aggregates.contains name && (filter.isNone || d.has .aggregateFilter)
  | .groupConcat _ distinct order separator =>
    d.has .groupConcat && (order.isNone || d.has .groupConcatOrderBy) &&
      (!distinct || d.joinsDistinct separator)
  | .window name .. => d.has .windowFunctions && d.profile.windowFunctions.contains name
  | .limit l =>
    d.has .limit &&
      (l.offset ≤ 0 || d.has .limitWithOffset && d.profile.limitStyle != .top)
  | _ => true

/-- Functions that have a place for fewer arguments than they are given would lose the rest. -/
def FunctionSpec.WritesArguments (spec : FunctionSpec) : Prop :=
  (spec.style = .keyword → spec.arity = 0) ∧ (spec.style = .unary → spec.arity = 1)

instance (spec : FunctionSpec) : Decidable spec.WritesArguments :=
  inferInstanceAs (Decidable (_ ∧ _))

/-- The dialect has no marks, and none of its functions loses an argument. -/
structure Dialect.Lossless (d : Dialect) : Prop where
  unmarked : d.marked = []
  regexp : d.profile.regexp.WritesArguments
  functions : d.profile.functions.Forall FunctionSpec.WritesArguments

/-- Every built-in dialect is lossless, whatever the notes say. -/
theorem Builtin.lossless (b : Builtin) (notes : Notes) : (b.build notes).Lossless := by
  have functions : (b.build notes).profile.functions = (b.build {}).profile.functions := by
    cases b <;> rfl
  have regexp : (b.build notes).profile.regexp = (b.build {}).profile.regexp := by
    cases b <;> rfl
  refine ⟨by cases b <;> rfl, ?_, ?_⟩
  · rw [regexp]
    cases b <;> decide +kernel
  · rw [functions]
    cases b <;> decide +kernel

namespace Render

open Sql (raw joinWith parens)

/-- The refusal, if the outcome is one. -/
def refusal {α : Type} : Result α → Option Unsupported
  | .ok _ => none
  | .error e => some e

/-- The outcome is a refusal exactly if the rule is broken or a part is refused. A broken rule is
reported for the kind and the dialect, a refused part as it was. -/
structure Decided {α : Type} (d : Dialect) (kind : Kind) (rule : Prop)
    (parts : List (Option Unsupported)) (r : Result α) : Prop where
  succeeds : refusal r = none ↔ rule ∧ ∀ part ∈ parts, part = none
  refuses : ∀ e, refusal r = some e →
    (¬ rule ∧ e.dialect = d.id ∧ e.node = kind.name) ∨ some e ∈ parts

namespace Decided

variable {α β : Type} {d : Dialect} {kind : Kind} {rule rule' : Prop}
  {parts parts' : List (Option Unsupported)} {r : Result α}

theorem ok (a : α) : Decided d kind True [] (.ok a) := ⟨by simp [refusal], by simp [refusal]⟩

theorem pure (a : α) : Decided d kind True [] (Pure.pure a : Result α) := ok a

theorem refuse (feature hint : String) :
    Decided d kind False parts (refuse d kind feature hint : Result α) :=
  ⟨by simp [refusal, Render.refuse], by simp [refusal, Render.refuse]⟩

theorem require (c : Capability) (feature : String) :
    Decided d kind (d.has c) [] (require d c kind feature) := by
  unfold Render.require
  split
  · rename_i has
    exact ⟨by simp [refusal, has], by simp [refusal]⟩
  · rename_i lacks
    exact ⟨by simp [refusal, Render.refuse, lacks], by simp [refusal, Render.refuse, lacks]⟩

/-- A part decides itself. -/
theorem part (r : Result α) : Decided d kind True [refusal r] r :=
  ⟨by simp, fun e refused => .inr (by simp [refused])⟩

theorem inOrder (rs : List (Result α)) :
    Decided d kind True (rs.map refusal) (inOrder rs) := by
  cases outcome : Render.inOrder rs with
  | ok as =>
    rw [inOrder_eq_ok] at outcome
    subst outcome
    exact ⟨by simp [refusal], by simp [refusal]⟩
  | error e =>
    have member : some e ∈ rs.map refusal :=
      List.mem_map.mpr ⟨_, inOrder_eq_error outcome, rfl⟩
    constructor
    · constructor
      · simp [refusal]
      · rintro ⟨-, all⟩
        exact absurd (all _ member) (by simp)
    · rintro e' ⟨⟩
      exact .inr member

theorem optional (r : Option (Result α)) :
    Decided d kind True (r.toList.map refusal) (optional r) := by
  cases r with
  | none => exact ok none
  | some r =>
    cases r with
    | ok a => exact ⟨by simp [refusal, Render.optional, Functor.map, Except.map],
        by simp [refusal, Render.optional, Functor.map, Except.map]⟩
    | error e => exact ⟨by simp [refusal, Render.optional, Functor.map, Except.map],
        by simp [refusal, Render.optional, Functor.map, Except.map]⟩

/-- The same outcome under a rule and parts that say the same. -/
theorem congr (h : Decided d kind rule parts r) (rules : rule ↔ rule')
    (same : ∀ part, part ∈ parts ↔ part ∈ parts') : Decided d kind rule' parts' r := by
  refine ⟨?_, fun e refused => ?_⟩
  · rw [h.succeeds, rules]
    simp only [same]
  · rw [← rules, ← same]
    exact h.refuses e refused

/-- A check that does not apply decides nothing. -/
theorem checkIf {applies : Bool} {check : Result Unit} (h : Decided d kind rule [] check) :
    Decided d kind (applies → rule) [] (checkIf applies check) := by
  cases applies with
  | true => exact h.congr (by simp) (fun _ => .rfl)
  | false => exact (ok ()).congr (by simp) (fun _ => .rfl)

/-- What a step decides and what follows it decides, if the step succeeds. -/
theorem bind {f : α → Result β} (first : Decided d kind rule parts r)
    (next : ∀ a, r = .ok a → Decided d kind rule' parts' (f a)) :
    Decided d kind (rule ∧ rule') (parts ++ parts') (r >>= f) := by
  cases r with
  | ok a =>
    have then' := next a rfl
    have holds := first.succeeds.mp rfl
    refine ⟨?_, fun e refused => ?_⟩
    · refine then'.succeeds.trans ⟨fun h => ?_, fun h => ?_⟩
      · exact ⟨⟨holds.1, h.1⟩, by simpa [or_imp, forall_and] using ⟨holds.2, h.2⟩⟩
      · exact ⟨h.1.2, fun part member => h.2 part (List.mem_append_right _ member)⟩
    · rcases then'.refuses e refused with ⟨broken, location⟩ | member
      · exact .inl ⟨fun h => broken h.2, location⟩
      · exact .inr (List.mem_append_right _ member)
  | error e =>
    have fails : ¬ (rule ∧ ∀ part ∈ parts, part = none) := by
      rw [← first.succeeds]
      simp [refusal]
    refine ⟨⟨?_, fun h => ?_⟩, fun e' refused => ?_⟩
    · rintro ⟨⟩
    · exact absurd ⟨h.1.1, fun part member => h.2 part (List.mem_append_left _ member)⟩ fails
    · rcases first.refuses e' refused with ⟨broken, location⟩ | member
      · exact .inl ⟨fun h => broken h.1, location⟩
      · exact .inr (List.mem_append_left _ member)

/-- Of two ways, each decides in its case. -/
theorem ite {c : Prop} [Decidable c] {s : Result α} (yes : c → Decided d kind rule parts r)
    (no : ¬ c → Decided d kind rule parts s) :
    Decided d kind rule parts (if c then r else s) := by
  split
  · exact yes ‹_›
  · exact no ‹_›

theorem map {f : α → β} (h : Decided d kind rule parts r) :
    Decided d kind rule parts (f <$> r) := by
  cases r with
  | ok a => exact ⟨h.succeeds, h.refuses⟩
  | error e => exact ⟨h.succeeds, h.refuses⟩

/-- Parts that are put together from parts of their own, without a rule, pass these on. -/
theorem expand {ι : Type} {l : List ι} {f : ι → Result β} {inner : ι → List (Option Unsupported)}
    (h : Decided d kind rule ((l.map f).map refusal) r)
    (each : ∀ x ∈ l, Decided d kind True (inner x) (f x)) :
    Decided d kind rule (l.flatMap inner) r := by
  refine ⟨h.succeeds.trans (and_congr_right fun _ => ?_), fun e refused => ?_⟩
  · simp only [List.map_map, List.mem_map, forall_exists_index, and_imp, List.mem_flatMap]
    constructor
    · rintro all part x member inside
      exact ((each x member).succeeds.mp (all _ x member rfl)).2 part inside
    · rintro all _ x member rfl
      exact (each x member).succeeds.mpr ⟨trivial, fun part inside => all part x member inside⟩
  · rcases h.refuses e refused with broken | member
    · exact .inl broken
    · simp only [List.map_map, List.mem_map] at member
      obtain ⟨x, member, same⟩ := member
      rcases (each x member).refuses e same with ⟨absurdity, -⟩ | inside
      · exact absurd trivial absurdity
      · exact .inr (List.mem_flatMap.mpr ⟨x, member, inside⟩)

end Decided

/-! ## What each construct decides -/

section

variable {d : Dialect} {kind : Kind}

theorem asOperand_refusal (n : Node) (r : Result Sql) : refusal (asOperand d n r) = refusal r := by
  cases r with
  | error e => rfl
  | ok s =>
    unfold asOperand
    simp only [bind, Except.bind, Pure.pure, Except.pure]
    split <;> split <;> rfl

theorem connective_decided (word : String) (operands : List Node) (conditions : List (Result Sql)) :
    Decided d kind True (conditions.map refusal) (connective word operands conditions) :=
  ((Decided.inOrder _).bind fun _ _ => .pure _).congr (by simp) (by simp)

theorem not_decided (condition : Result Sql) :
    Decided d kind True [refusal condition] (not condition) :=
  ((Decided.part _).bind fun _ _ => .pure _).congr (by simp) (by simp)

theorem comparison_decided (op : ComparisonOp) (left right : Result Sql) :
    Decided d kind True [refusal left, refusal right] (comparison op left right) :=
  ((Decided.part _).bind fun _ _ => (Decided.part _).bind fun _ _ => .pure _).congr
    (by simp) (by simp)

theorem like_decided (expr pattern : Result Sql) (escape : Option (Result Sql)) :
    Decided d kind True (refusal expr :: refusal pattern :: escape.toList.map refusal)
      (like expr pattern escape) :=
  ((Decided.part _).bind fun _ _ => (Decided.part _).bind fun _ _ =>
    (Decided.optional _).bind fun _ _ => .pure _).congr (by simp) (by simp)

theorem between_decided (expr low high : Result Sql) :
    Decided d kind True [refusal expr, refusal low, refusal high] (between expr low high) :=
  ((Decided.part _).bind fun _ _ => (Decided.part _).bind fun _ _ =>
    (Decided.part _).bind fun _ _ => .pure _).congr (by simp) (by simp)

theorem inList_decided (expr : Result Sql) (values : List (Result Sql)) :
    Decided d kind True (refusal expr :: values.map refusal) (inList expr values) :=
  ((Decided.part _).bind fun _ _ => (Decided.inOrder _).bind fun _ _ => .pure _).congr
    (by simp) (by simp)

theorem inSubquery_decided (expr statement : Result Sql) :
    Decided d .inSubquery (d.has .inSubquery) [refusal expr, refusal statement]
      (inSubquery d expr statement) :=
  ((Decided.require _ _).bind fun _ _ => (Decided.part _).bind fun _ _ =>
    (Decided.part _).bind fun _ _ => .pure _).congr (by simp) (by simp)

theorem isNull_decided (expr : Result Sql) :
    Decided d kind True [refusal expr] (isNull expr) :=
  ((Decided.part _).bind fun _ _ => .pure _).congr (by simp) (by simp)

theorem isNotNull_decided (expr : Result Sql) :
    Decided d kind True [refusal expr] (isNotNull expr) :=
  ((Decided.part _).bind fun _ _ => .pure _).congr (by simp) (by simp)

/-- The application of a function that loses no argument. -/
theorem apply_decided {spec : FunctionSpec} (writes : spec.WritesArguments)
    (args : List (Result Sql)) :
    Decided d kind (spec.takes args.length) (args.map refusal) (apply d kind spec args) := by
  unfold apply
  split
  · rename_i wrong
    exact (Decided.refuse _ _).congr (by simp [FunctionSpec.takes]; omega) (fun _ => .rfl)
  · rename_i right
    have takes : spec.takes args.length ↔ True := by simp [FunctionSpec.takes]; omega
    refine Decided.congr ?_ takes.symm (fun _ => .rfl)
    split
    · rename_i style
      have none : args = [] := by
        have := writes.1 style
        exact List.eq_nil_of_length_eq_zero (by omega)
      subst none
      exact .ok _
    · rename_i style
      have one := writes.2 style
      rcases args with _ | ⟨arg, _ | ⟨other, rest⟩⟩
      · simp [one] at right
      · exact ((Decided.part arg).bind fun _ _ => .pure _).congr (by simp) (by simp)
      · simp [one] at right
        omega
    · exact ((Decided.inOrder _).bind fun _ _ => .pure _).congr (by simp) (by simp)
    · exact ((Decided.inOrder _).bind fun _ _ => .pure _).congr (by simp) (by simp)
    · exact ((Decided.inOrder _).bind fun _ _ => .pure _).congr (by simp) (by simp)

theorem function_decided (lossless : d.Lossless) (name : String) (args : List (Result Sql)) :
    Decided d .function (d.calls name args.length) (args.map refusal) (function d name args) := by
  unfold Dialect.calls
  cases found : d.profile.functions.get? name with
  | none =>
    simp only [function, found]
    exact (Decided.refuse _ _).congr (by simp) (fun _ => .rfl)
  | some spec =>
    simp only [function, found]
    exact apply_decided (lossless.functions.get? found) args

theorem regexpLike_decided (lossless : d.Lossless) (expr pattern : Result Sql) :
    Decided d .regexpLike (d.has .regexpLike && d.profile.regexp.takes 2)
      [refusal expr, refusal pattern] (regexpLike d expr pattern) :=
  ((Decided.require _ _).bind fun _ _ => apply_decided lossless.regexp _).congr
    (by simp) (by simp)

theorem extract_decided (part : DatePart) (arg : Result Sql) :
    Decided d .extract (d.extracts part) [refusal arg] (extract d part arg) := by
  unfold Dialect.extracts
  cases style : d.extractStyle with
  | standard =>
    simp only [extract, style]
    exact ((Decided.require _ _).bind fun _ _ =>
      (Decided.part arg).bind fun _ _ => .pure _).congr (by simp) (by simp)
  | datePart =>
    simp only [extract, style]
    exact ((Decided.part arg).bind fun _ _ => .pure _).congr (by simp) (by simp)
  | strftime =>
    cases part with
    | other name =>
      simp only [extract, style, strftimeFormat?]
      exact (Decided.refuse _ _).congr (by simp) (fun _ => .rfl)
    | _ =>
      simp only [extract, style, strftimeFormat?]
      exact ((Decided.part arg).bind fun _ _ => .pure _).congr (by simp) (by simp)

theorem cast_decided (type : DataType) (arg : Result Sql) :
    Decided d .cast (d.profile.typeName? type).isSome [refusal arg] (cast d type arg) := by
  unfold cast
  split
  · rename_i missing
    exact (Decided.refuse _ _).congr (by simp [missing]) (fun _ => .rfl)
  · rename_i name found
    refine ((Decided.part arg).bind fun _ _ =>
      .ite (fun _ => .pure _) fun _ => .pure _).congr (by simp [found]) (by simp)

/-- One branch of a CASE, whose basis is settled. -/
theorem branch_decided (basis : Option Sql) (condition result : Result Sql) :
    Decided d kind True [refusal condition, refusal result] (branch d basis condition result) :=
  ((Decided.part _).bind fun _ _ => (Decided.part _).bind fun _ _ => .pure _).congr
    (by simp) (by simp)

theorem case_decided (basis : Option (Result Sql)) (branches : List (Result Sql × Result Sql))
    (otherwise : Option (Result Sql)) :
    Decided d kind True
      (basis.toList.map refusal ++ branches.flatMap (fun b => [refusal b.1, refusal b.2]) ++
        otherwise.toList.map refusal)
      (case d basis branches otherwise) := by
  have parts (basis : Option Sql) :
      Decided d kind True (branches.flatMap fun b => [refusal b.1, refusal b.2])
        (inOrder (branches.map fun b => branch d basis b.1 b.2)) :=
    (Decided.inOrder _).expand fun b _ => branch_decided basis b.1 b.2
  exact ((Decided.optional basis).bind fun basis _ => (parts basis).bind fun _ _ =>
    (Decided.optional otherwise).bind fun _ _ => .pure _).congr (by simp) (by simp)

theorem aggregateArguments_decided (distinct : Bool) (args : List (Result Sql)) :
    Decided d kind True (args.map refusal) (aggregateArguments distinct args) := by
  refine .ite (fun none => ?_) fun _ => ?_
  · obtain rfl : args = [] := by simpa using none
    exact .ok _
  · exact ((Decided.inOrder args).bind fun _ _ => .pure _).congr (by simp) (by simp)

theorem filterClause_decided (filter : Option (Result Sql)) :
    Decided d .aggregate (filter.isNone || d.has .aggregateFilter) (filter.toList.map refusal)
      (filterClause d filter) := by
  cases filter with
  | none => exact (Decided.ok _).congr (by simp) (by simp)
  | some filter =>
    exact ((Decided.require _ _).bind fun _ _ => (Decided.part filter).bind fun _ _ =>
      .pure _).congr (by simp) (by simp)

theorem aggregate_decided (name : String) (distinct : Bool) (args : List (Result Sql))
    (filter : Option (Result Sql)) :
    Decided d .aggregate
      (d.profile.aggregates.contains name && (filter.isNone || d.has .aggregateFilter))
      (args.map refusal ++ filter.toList.map refusal) (aggregate d name distinct args filter) := by
  cases found : d.profile.aggregates.get? name with
  | none =>
    simp only [aggregate, found]
    exact (Decided.refuse _ _).congr (by simp [Dictionary.contains, found]) (fun _ => .rfl)
  | some spelling =>
    simp only [aggregate, found]
    exact ((aggregateArguments_decided _ _).bind fun _ _ =>
      (filterClause_decided _).bind fun _ _ => .pure _).congr
      (by simp [Dictionary.contains, found]) (by simp)

theorem joinDistinct_decided :
    Decided d .groupConcat
      (match d.concatStyle with
        | .stringAggWithin => false
        | .listagg since => d.notes.atLeast since
        | _ => true)
      [] (joinDistinct d) := by
  cases style : d.concatStyle with
  | stringAggWithin =>
    simp only [joinDistinct, style]
    exact (Decided.refuse _ _).congr (by simp) (fun _ => .rfl)
  | listagg since =>
    simp only [joinDistinct, style]
    exact .ite (fun recent => (Decided.ok _).congr (by simp [recent]) (fun _ => .rfl))
      fun old => (Decided.refuse _ _).congr (by simp [old]) (fun _ => .rfl)
  | _ =>
    simp only [joinDistinct, style]
    exact (Decided.ok _).congr (by simp) (fun _ => .rfl)

theorem groupConcat_decided (arg : Result Sql) (distinct : Bool) (order : Option (Result Sql))
    (separator : Option String) :
    Decided d .groupConcat
      (d.has .groupConcat && (order.isNone || d.has .groupConcatOrderBy) &&
        (!distinct || d.joinsDistinct separator))
      (refusal arg :: order.toList.map refusal) (groupConcat d arg distinct order separator) := by
  refine (joinDistinct_decided.checkIf.bind fun _ _ => (Decided.require _ _).bind fun _ _ =>
    (Decided.part arg).bind fun _ _ => (Decided.require _ _).checkIf.bind fun _ _ =>
    (Decided.optional order).bind fun _ _ => (Decided.refuse _ _).checkIf.bind fun _ _ =>
    .pure _).congr ?_ (by simp)
  unfold Dialect.joinsDistinct
  cases d.concatStyle <;> cases order <;> cases distinct <;> cases separator <;>
    simp [isDefaultSeparator] <;> grind

theorem window_decided (name : String) (args partition : List (Result Sql))
    (order : Option (Result Sql)) (bounds : Option Frame) :
    Decided d .window (d.has .windowFunctions && d.profile.windowFunctions.contains name)
      (args.map refusal ++ partition.map refusal ++ order.toList.map refusal)
      (window d name args partition order bounds) := by
  cases found : d.profile.windowFunctions.get? name with
  | none =>
    simp only [window, found]
    exact ((Decided.require _ _).bind fun _ _ => .refuse _ _).congr
      (by simp [Dictionary.contains, found]) (fun _ => .rfl)
  | some spelling =>
    simp only [window, found]
    exact ((Decided.require _ _).bind fun _ _ => (Decided.inOrder args).bind fun _ _ =>
      (Decided.inOrder partition).bind fun _ _ => (Decided.optional order).bind fun _ _ =>
        .pure _).congr (by simp [Dictionary.contains, found]) (by simp)

theorem literal_decided (l : Literal) :
    Decided d .literal (d.writes l.type) [] (literal d l) := by
  cases type : l.type with
  | interval =>
    simp only [literal, type]
    exact ((Decided.require _ _).bind fun _ _ => .pure _).congr (by simp [Dialect.writes]) (by simp)
  | other name =>
    simp only [literal, type]
    exact (Decided.refuse _ _).congr (by simp [Dialect.writes]) (fun _ => .rfl)
  | bool =>
    simp only [literal, type]
    exact Decided.ite (fun _ => (Decided.ok _).congr (by simp [Dialect.writes]) (by simp))
      fun _ => (Decided.ok _).congr (by simp [Dialect.writes]) (by simp)
  | _ =>
    simp only [literal, type]
    exact (Decided.ok _).congr (by simp [Dialect.writes]) (by simp)

theorem limit_decided (l : Limit) :
    Decided d .limit
      (d.has .limit && (l.offset ≤ 0 || d.has .limitWithOffset && d.profile.limitStyle != .top))
      [] (limit d l) := by
  refine ((Decided.require _ _).bind fun _ _ => (Decided.require _ _).checkIf.bind fun _ _ =>
    (Decided.refuse _ _).checkIf.bind fun _ _ => .pure _).congr ?_ (by simp)
  by_cases skips : 0 < l.offset
  · simp [skips, Int.not_le.mpr skips]
  · simp [skips, Int.not_lt.mp skips]

theorem join_decided (type : JoinType) (left : Result Sql) (rightKind : Kind)
    (right condition : Result Sql) :
    Decided d .join (d.joins type) [refusal left, refusal right, refusal condition]
      (join d type left rightKind right condition) := by
  have keyword : Decided d .join (d.joins type) [] (joinKeyword d type) := by
    cases type with
    | inner | left => exact (Decided.ok _).congr (by simp [Dialect.joins]) (fun _ => .rfl)
    | right | full =>
      exact ((Decided.require _ _).bind fun _ _ => .pure _).congr (by simp [Dialect.joins]) (by simp)
    | other name => exact (Decided.refuse _ _).congr (by simp [Dialect.joins]) (fun _ => .rfl)
  exact (keyword.bind fun _ _ => (Decided.part _).bind fun _ _ => (Decided.part _).bind fun _ _ =>
    (Decided.part _).bind fun _ _ => .pure _).congr (by simp) (by simp)

theorem subSelect_decided (statement : Result Sql) (aliasName : String) :
    Decided d .subSelect (d.has .derivedTables) [refusal statement]
      (subSelect d statement aliasName) :=
  ((Decided.require _ _).bind fun _ _ => (Decided.part _).bind fun _ _ => .pure _).congr
    (by simp) (by simp)

theorem selectItem_decided (aliasName : String) (expr : Result Sql) :
    Decided d kind True [refusal expr] (selectItem aliasName expr) :=
  ((Decided.part _).bind fun _ _ => .pure _).congr (by simp) (by simp)

theorem sortKey_decided (ascending nullsLast : Bool) (expr : Result Sql) :
    Decided d kind True [refusal expr] (sortKey d ascending nullsLast expr) :=
  ((Decided.part _).bind fun _ _ => .pure _).congr (by simp) (by simp)

/-- A projection of all columns has no entries that it could lose. -/
theorem selectList_decided {star : Bool} {items : List (Result Sql)} (exclusive : star → items = []) :
    Decided d kind True (items.map refusal) (selectList d star items) := by
  refine .ite (fun all => ?_) fun _ => .ite (fun none => ?_) fun _ => ?_
  · obtain rfl := exclusive all
    exact .ok _
  · obtain rfl : items = [] := by simpa using none
    exact .ok _
  · exact ((Decided.inOrder _).bind fun _ _ => .pure _).congr (by simp) (by simp)

theorem orderBy_decided (keys : List (Result Sql)) :
    Decided d kind True (keys.map refusal) (orderBy keys) :=
  ((Decided.inOrder _).bind fun _ _ => .pure _).congr (by simp) (by simp)

theorem groupBy_decided (exprs : List (Result Sql)) :
    Decided d kind True (exprs.map refusal) (groupBy exprs) :=
  ((Decided.inOrder _).bind fun _ _ => .pure _).congr (by simp) (by simp)

theorem select_decided (limit : Option (Result Sql)) (list : Result Sql)
    (source filter grouping having order : Option (Result Sql)) :
    Decided d kind True
      (refusal list :: (source.toList ++ filter.toList ++ grouping.toList ++ having.toList ++
        order.toList ++ limit.toList).map refusal)
      (select d limit list source filter grouping having order) := by
  refine ((Decided.optional limit).bind fun _ _ => (Decided.part list).bind fun _ _ =>
    (Decided.optional source).bind fun _ _ => (Decided.optional filter).bind fun _ _ =>
    (Decided.optional grouping).bind fun _ _ => (Decided.optional having).bind fun _ _ =>
    (Decided.optional order).bind fun _ _ => .pure _).congr (by simp) fun part => ?_
  simp only [List.map_append, List.mem_append, List.mem_cons, List.not_mem_nil, or_false]
  grind

end

/-! ## Whole trees -/

section

variable {d : Dialect} {ctx : Context}

/-- The position of a node never makes it refused or accepted. -/
theorem asPredicate_refusal (unmarked : d.marked = []) (n : Node) :
    refusal (asPredicate d n (node d ctx n)) = refusal (node d ctx n) := by
  unfold asPredicate
  split
  · rfl
  · split
    · rename_i l
      split
      · rename_i type
        simp only [node_literal unmarked, literal, type]
        split <;> rfl
      · rfl
    · rename_i c
      simp only [node_column unmarked]
      split <;> rfl
    · rfl

/-- The outcome of a node is decided by the node and by the outcomes of its children. -/
theorem node_decided (lossless : d.Lossless) {n : Node} (rules : n.KeepsRules) :
    Decided d n.kind (n.expressible d) (n.children.map fun c => refusal (node d ctx c))
      (node d ctx n) := by
  have unmarked := lossless.unmarked
  have operand (c : Node) : refusal (asOperand d c (node d ctx c)) = refusal (node d ctx c) :=
    asOperand_refusal c _
  have predicate (c : Node) : refusal (asPredicate d c (node d ctx c)) = refusal (node d ctx c) :=
    asPredicate_refusal unmarked c
  cases n with
  | select s =>
    rw [node_select unmarked]
    refine (select_decided _ _ _ _ _ _ _).congr (by simp [Node.expressible]) fun part => ?_
    simp [Node.children, predicate, Option.toList_map]
  | selectList l =>
    rw [node_selectList unmarked]
    have exclusive : l.star → l.items.map (fun item =>
        selectItem item.aliasName (asOperand d item.expr (node d ctx item.expr))) = [] := by
      intro star
      rw [rules star, List.map_nil]
    refine ((selectList_decided exclusive).expand fun item _ => selectItem_decided _ _).congr
      (by simp [Node.expressible]) fun part => ?_
    simp [Node.children, operand, eq_comm]
  | table t =>
    rw [node_table unmarked]
    exact (Decided.ok _).congr (by simp [Node.expressible]) (fun _ => .rfl)
  | join type left right condition =>
    rw [node_join unmarked]
    exact (join_decided _ _ _ _ _).congr .rfl (by simp [Node.children, predicate])
  | subSelect s aliasName =>
    rw [node_subSelect unmarked]
    exact (subSelect_decided _ _).congr .rfl (by simp [Node.children])
  | column c =>
    rw [node_column unmarked]
    exact (Decided.ok _).congr (by simp [Node.expressible]) (fun _ => .rfl)
  | literal l =>
    rw [node_literal unmarked]
    exact literal_decided l
  | and operands =>
    rw [node_and unmarked]
    exact (connective_decided _ _ _).congr (by simp [Node.expressible])
      (by simp [Node.children, predicate])
  | or operands =>
    rw [node_or unmarked]
    exact (connective_decided _ _ _).congr (by simp [Node.expressible])
      (by simp [Node.children, predicate])
  | not operand =>
    rw [node_not unmarked]
    exact (not_decided _).congr (by simp [Node.expressible]) (by simp [Node.children, predicate])
  | comparison op left right =>
    rw [node_comparison unmarked]
    exact (comparison_decided _ _ _).congr (by simp [Node.expressible])
      (by simp [Node.children, operand])
  | like expr pattern escape =>
    rw [node_like unmarked]
    exact (like_decided _ _ _).congr (by simp [Node.expressible])
      (by simp [Node.children, operand, Option.toList_map])
  | regexpLike expr pattern =>
    rw [node_regexpLike unmarked]
    exact (regexpLike_decided lossless _ _).congr .rfl (by simp [Node.children, operand])
  | between expr low high =>
    rw [node_between unmarked]
    exact (between_decided _ _ _).congr (by simp [Node.expressible])
      (by simp [Node.children, operand])
  | inList expr values =>
    rw [node_inList unmarked]
    exact (inList_decided _ _).congr (by simp [Node.expressible])
      (by simp [Node.children, operand])
  | inSubquery expr s =>
    rw [node_inSubquery unmarked]
    exact (inSubquery_decided _ _).congr .rfl (by simp [Node.children, operand])
  | isNull expr =>
    rw [node_isNull unmarked]
    exact (isNull_decided _).congr (by simp [Node.expressible]) (by simp [Node.children, operand])
  | isNotNull expr =>
    rw [node_isNotNull unmarked]
    exact (isNotNull_decided _).congr (by simp [Node.expressible])
      (by simp [Node.children, operand])
  | function name args =>
    rw [node_function unmarked]
    exact (function_decided lossless _ _).congr (by simp [Node.expressible])
      (by simp [Node.children, operand])
  | extract part arg =>
    rw [node_extract unmarked]
    exact (extract_decided _ _).congr .rfl (by simp [Node.children, operand])
  | cast arg type =>
    rw [node_cast unmarked]
    exact (cast_decided _ _).congr .rfl (by simp [Node.children, operand])
  | case basis branches otherwise =>
    have condition (hasBasis : Bool) (c : Node) :
        refusal (asCondition d hasBasis c (node d ctx c)) = refusal (node d ctx c) := by
      cases hasBasis
      · exact predicate c
      · exact operand c
    rw [node_case unmarked]
    refine (case_decided _ _ _).congr (by simp [Node.expressible]) fun part => ?_
    simp [Node.children, operand, condition, List.flatMap_map, List.map_flatMap, Option.toList_map]
  | aggregate name distinct args filter =>
    rw [node_aggregate unmarked]
    exact (aggregate_decided _ _ _ _).congr (by simp [Node.expressible])
      (by simp [Node.children, operand, predicate, Option.toList_map])
  | groupConcat arg distinct order separator =>
    rw [node_groupConcat unmarked]
    exact (groupConcat_decided _ _ _ _).congr (by simp [Node.expressible])
      (by simp [Node.children, operand, Option.toList_map])
  | window name args partition order frame =>
    rw [node_window unmarked]
    exact (window_decided _ _ _ _ _).congr .rfl
      (by simp [Node.children, operand, Option.toList_map])
  | groupBy exprs =>
    rw [node_groupBy unmarked]
    exact (groupBy_decided _).congr (by simp [Node.expressible])
      (by simp [Node.children, operand])
  | orderBy keys =>
    rw [node_orderBy unmarked]
    refine ((orderBy_decided _).expand fun key _ => sortKey_decided _ _ _).congr
      (by simp [Node.expressible]) fun part => ?_
    simp [Node.children, operand, eq_comm]
  | limit l =>
    rw [node_limit unmarked]
    exact limit_decided l

/-- A tree has a text exactly if all its nodes are expressible. -/
theorem node_succeeds_iff (lossless : d.Lossless) {n : Node} (rules : n.WellFormed) :
    refusal (node d ctx n) = none ↔ n.Everywhere (·.expressible d) := by
  induction n using Node.induction with
  | step n ih =>
    rw [(node_decided lossless rules.root).succeeds, Node.everywhere_iff]
    refine and_congr_right fun _ => ?_
    simp only [List.mem_map, forall_exists_index, and_imp, forall_apply_eq_imp_iff₂]
    exact ⟨fun all c child => (ih c child (rules.child child)).mp (all c child),
      fun all c child => (ih c child (rules.child child)).mpr (all c child)⟩

/-- A tree is refused because of one of its nodes. -/
theorem node_refuses (lossless : d.Lossless) {n : Node} (rules : n.WellFormed) {e : Unsupported}
    (refused : refusal (node d ctx n) = some e) :
    e.dialect = d.id ∧ ∃ m ∈ n.nodes, m.expressible d = false ∧ e.node = m.kind.name := by
  induction n using Node.induction with
  | step n ih =>
    rcases (node_decided lossless rules.root).refuses e refused with ⟨broken, same, kind⟩ | member
    · exact ⟨same, n, n.mem_nodes_self, by simpa using broken, kind⟩
    · obtain ⟨c, child, refused⟩ := List.mem_map.mp member
      obtain ⟨same, m, member, location⟩ := ih c child (rules.child child) refused
      exact ⟨same, m, Node.mem_nodes_of_mem_children child member, location⟩

/-- The text of a statement starts with its keyword. -/
theorem select_eq_ok_starts {s : Statement} {sql : Sql} (unmarked : d.marked = [])
    (h : node d ctx (.select s) = .ok sql) : ∃ rest, sql = .raw "SELECT " :: rest := by
  simp only [node_select unmarked, select, bind_eq_ok, pure_eq_ok] at h
  obtain ⟨limit, -, list, -, source, -, filter, -, grouping, -, having, -, order, -, rfl⟩ := h
  exact ⟨_, rfl⟩

end

end Render

/-- In every built-in dialect a tree has a text exactly if every node of it is expressible on its
own. If not, the refusal names the dialect and the kind of a node that is not. The text of a
statement starts with `SELECT`. -/
theorem Builtin.generate_eq_ok_iff (b : Builtin) (notes : Notes) (ctx : Context) (n : Node)
    (rules : n.WellFormed) :
    ((∃ sql, (b.build notes).generate ctx (some n) = .ok sql) ↔
      ∀ m ∈ n.nodes, m.expressible (b.build notes)) ∧
    (∀ e, (b.build notes).generate ctx (some n) = .error e →
      e.dialect = b.id ∧
        ∃ m ∈ n.nodes, m.expressible (b.build notes) = false ∧ e.node = m.kind.name) ∧
    (∀ s sql, n = .select s → (b.build notes).generate ctx (some n) = .ok sql →
      ∃ rest, sql = "SELECT " ++ rest) := by
  have lossless := b.lossless notes
  have named : (b.build notes).id = b.id := by cases b <;> rfl
  refine ⟨?_, fun e refused => ?_, ?_⟩
  · have accepted : Render.refusal (Render.node (b.build notes) ctx n) = none ↔
        n.Everywhere (·.expressible (b.build notes)) := Render.node_succeeds_iff lossless rules
    simp only [Dialect.generate, bind_eq_ok, pure_eq_ok]
    refine Iff.trans ?_ accepted
    cases Render.node (b.build notes) ctx n <;> simp [Render.refusal]
  · simp only [Dialect.generate, bind_eq_error, pure_ne_error, and_false, exists_false,
      or_false] at refused
    have reason : Render.refusal (Render.node (b.build notes) ctx n) = some e := by
      rw [refused, Render.refusal]
    rw [← named]
    exact Render.node_refuses lossless rules reason
  · rintro s sql rfl generated
    simp only [Dialect.generate, bind_eq_ok, pure_eq_ok] at generated
    obtain ⟨fragments, rendered, rfl⟩ := generated
    obtain ⟨rest, rfl⟩ := Render.select_eq_ok_starts lossless.unmarked rendered
    exact ⟨_, Sql.write_cons ..⟩

/-- SQLite refuses a statement because of the regular expression under a negation in it. -/
theorem Builtin.sqlite_refuses_regexp :
    let text : Node := .literal { type := .string, value := "it's" }
    let n : Node := .select { list := { items := [{ expr := .not (.regexpLike text text) }] } }
    n.WellFormed ∧ ∃ e, (Builtin.sqlite.build {}).generate {} (some n) = .error e ∧
      e.dialect = "SQLITE" ∧ e.node = "regexp_like" := by
  intro text n
  have nodes : n.nodes = [n, .selectList ⟨false, [⟨.not (.regexpLike text text), ""⟩]⟩,
      .not (.regexpLike text text), .regexpLike text text, text, text] := by
    simp [n, text, Node.nodes_eq, Node.children]
  have rules : n.WellFormed := by
    intro m member
    simp only [nodes, List.mem_cons, List.not_mem_nil, or_false] at member
    rcases member with rfl | rfl | rfl | rfl | rfl | rfl
    · exact ⟨by simp, by simp, by simp, by simp, by simp⟩
    all_goals simp [text, Node.KeepsRules, Literal.KeepsFormat]
  obtain ⟨succeeds, refuses, -⟩ := Builtin.generate_eq_ok_iff .sqlite {} {} n rules
  have lacks : Node.expressible (Builtin.sqlite.build {}) (.regexpLike text text) = false := by
    decide +kernel
  refine ⟨rules, ?_⟩
  cases outcome : (Builtin.sqlite.build {}).generate {} (some n) with
  | ok sql =>
    have all := succeeds.mp ⟨sql, outcome⟩ (.regexpLike text text) (by simp [nodes])
    rw [lacks] at all
    contradiction
  | error e =>
    obtain ⟨dialect, m, member, broken, kind⟩ := refuses e outcome
    refine ⟨e, rfl, dialect, ?_⟩
    simp only [nodes, List.mem_cons, List.not_mem_nil, or_false] at member
    rcases member with rfl | rfl | rfl | rfl | rfl | rfl
    · simp [n, Node.expressible] at broken
    · simp [Node.expressible] at broken
    · simp [Node.expressible] at broken
    · exact kind
    · simp [text, Node.expressible, Dialect.writes] at broken
    · simp [text, Node.expressible, Dialect.writes] at broken

end Pushdown
