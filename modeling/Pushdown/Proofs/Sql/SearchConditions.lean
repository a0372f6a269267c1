import Pushdown.Proofs.Dialect.Capability
import Pushdown.Proofs.Request.WellFormed
import Pushdown.Proofs.Sql.ClauseWords
import Pushdown.Proofs.Sql.Injection
import Pushdown.Proofs.Sql.Occurrence
import Pushdown.Proofs.Sql.Relations
import Pushdown.Proofs.Syntax.Lawful

/-!
# Search conditions

A database without truth values takes only search conditions where a condition is expected. Its
dialect turns a truth constant and a column of truth values into a comparison, and writes everything
else as it is. So the text in such a position is a search condition exactly if the nodes between its
connectives are predicates, truth constants or columns of truth values. Other values stand bare:
NULL, a number, a call, a CASE, or a column of which the type is unknown.
-/

namespace Pushdown

open Grouping (Groups)
open Render (node asPredicate asOperand Ensures)

/-! ## Dialects without truth values -/

/-- In a dialect without truth values, relations can be told from values. -/
structure Dialect.TellsRelations (d : Dialect) : Prop extends d.Readable where
  lacks : d.has .booleanLiterals = false
  like : "LIKE" ∈ d.profile.reserved
  pattern : d.profile.regexp = { name := "REGEXP_LIKE", arity := 2 }
  casts : d.profile.castStyle ≠ .doubleColon
  functionsFree : d.profile.functions.Forall fun spec => spec.isFree
  aggregatesFree : d.profile.aggregates.Forall fun spelling =>
    showsOnly Token.isFree 0 1 (spelling ++ "(")
  windowsFree : d.profile.windowFunctions.Forall fun spelling =>
    showsOnly Token.isFree 0 1 (spelling ++ "(")
  datesFree : d.profile.FreeTemplate d.profile.dateLiteral
  timestampsFree : d.profile.FreeTemplate d.profile.timestampLiteral

namespace Builtin

variable {b : Builtin} (lacking : b = .sqlServer ∨ b = .oracle) (notes : Notes)

include lacking

/-- Neither dialect has a function that reads as a relation. -/
theorem functions_free : (b.build notes).profile.functions.Forall fun spec => spec.isFree := by
  have standard : standardFunctions.Forall fun spec => spec.isFree := by decide +kernel
  rcases lacking with rfl | rfl
  · exact (standard.insertMany (by decide +kernel)).eraseAll _
  · exact standard.insert _ (by decide +kernel)

theorem tellsRelations : (b.build notes).TellsRelations := by
  have mark : b = .generic → notes.NamesMark := by rcases lacking with rfl | rfl <;> simp
  have free : (b.build notes).Shows Token.isFree :=
    (b.shows_inert notes mark).imp Token.isFree_of_isInert
  exact { b.readable notes mark with
    lacks := by
      have known := b.has_booleanLiterals_iff notes
      rcases lacking with rfl | rfl <;> simpa using known
    like := by
      have standard : "LIKE" ∈ standardReserved := by decide +kernel
      simpa using b.reserves_standard notes standard
    pattern := by rcases lacking with rfl | rfl <;> rfl
    casts := by rcases lacking with rfl | rfl <;> simp [build, sqlServerProfile, oracleProfile]
    functionsFree := functions_free lacking notes
    aggregatesFree := free.aggregates
    windowsFree := free.windows
    datesFree := free.dates
    timestampsFree := free.timestamps }

end Builtin

/-- Whether the node is a truth constant or a column of truth values. -/
def Node.isTruthValue : Node → Bool
  | .literal l => l.type = .bool
  | .column c => c.type.kind = .boolean
  | _ => false

/-- Only truth values become comparisons. -/
theorem Node.asPredicate_of_not_truth {d : Dialect} {n : Node} (h : n.isTruthValue = false)
    (r : Render.Result Sql) : asPredicate d n r = r := by
  cases n <;> simp_all [asPredicate, isTruthValue]

section

variable {d : Dialect} {ctx : Context} {quoteNames : Bool} (tells : d.TellsRelations)

include tells

/-! ## Values -/

theorem unrelated_of_isNamePart {t : Token} (h : IsNamePart d.profile t) : t.isUnrelated :=
  h.isUnrelated tells.legible tells.like

theorem column_unrelated (c : Column) :
    (Render.column d ctx c).ShowsOnly d.profile quoteNames Token.isUnrelated 0 0 :=
  column_showsOnly tells.toReadable (fun _ part => unrelated_of_isNamePart tells part) c

/-- What the dialect takes from its tables shows no relation. -/
theorem shows_free : d.Shows Token.isFree where
  admits := Token.isFree_of_isInert
  functions entry member := FunctionSpec.shows_of_isFree (tells.functionsFree entry member)
  aggregates := tells.aggregatesFree
  windows := tells.windowsFree
  types style := absurd style tells.casts
  dates := tells.datesFree
  timestamps := tells.timestampsFree

/-- A column is no relation, whatever its name. -/
theorem column_showsValue (c : Column) :
    (Render.column d ctx c).ShowsLeaf d.profile quoteNames false := by
  have term : IsTerm d.profile quoteNames (Render.column d ctx c) :=
    Render.column_term tells.legible c
  have grouped := Grouping.Groups.names tells.legible
    (@Render.column_isNamePart quoteNames d.profile d ctx c)
  have shown := (@column_unrelated d ctx quoteNames tells c).2
  rw [grouped.outside] at shown
  refine ⟨_, term.readsLeaf.standsAs grouped fun inner same =>
    term.not_enclosed inner (same ▸ grouped), isRelation_eq_false shown fun t inner same => ?_⟩
  obtain ⟨u, -, absurdity⟩ := List.mem_map.mp (same ▸ List.mem_cons_of_mem _ List.mem_cons_self)
  contradiction

/-- Constants, CASE, conversions and calls are terms that show no relation. -/
theorem node_free {n : Node} (wellFormed : n.WellFormed) (kind : n.kind ∈ termKinds) :
    Ensures (fun s => IsTerm d.profile quoteNames s ∧
      s.ShowsOnly d.profile quoteNames Token.isFree 0 0) (node d ctx n) := by
  have readable := tells.toReadable
  intro s rendered
  have known : Render.Rendered d quoteNames n s :=
    Render.node_rendered readable wellFormed s rendered
  refine ⟨?_, value_showsOnly readable (shows_free tells) wellFormed (List.mem_cons_of_mem _ kind)
    s rendered⟩
  -- Only a conversion can begin with a parenthesis, and not in a dialect like this.
  cases n with
  | cast arg type =>
    rw [Render.node_cast tells.unmarked] at rendered
    exact Render.cast_term readable tells.casts
      (Render.asOperand_phrase tells.legible.marks
        (Render.node_rendered readable (wellFormed.child (by simp [Node.children])))) s rendered
  | literal l => exact known.term rfl
  | extract part arg => exact known.term rfl
  | case basis branches otherwise => exact known.term rfl
  | aggregate name distinct args filter => exact known.term rfl
  | groupConcat arg distinct order separator => exact known.term rfl
  | window name args partition order frame => exact known.term rfl
  | _ => simp [Node.kind, termKinds] at kind

/-- The text of an operand is that of a value or a CASE around a condition. -/
theorem operand_cases {n : Node} (expression : n.isExpression) {s : Sql}
    (rendered : asOperand d n (node d ctx n) = .ok s) :
    n.isPredicate = false ∧ node d ctx n = .ok s ∨
      ∃ t, node d ctx n = .ok t ∧ s = Render.truthCase t := by
  obtain ⟨t, written, rfl⟩ := Render.asOperand_eq_ok.mp rendered
  have proper : n.kind ≠ .select := by
    intro same
    simp [Node.isExpression, same, Kind.isExpression] at expression
  unfold Render.operandText
  rw [tells.lacks, if_neg proper]
  by_cases predicate : n.isPredicate
  · exact .inr ⟨t, written, by simp [predicate]⟩
  · exact .inl ⟨by simpa using predicate, by simpa [predicate] using written⟩

/-- What an operand shows relates nothing. -/
theorem operand_unrelated {n : Node} (placed : n.WellPlaced) (expression : n.isExpression) :
    Ensures (Sql.ShowsOnly d.profile quoteNames Token.isUnrelated 0 0)
      (asOperand d n (node d ctx n)) :=
  operand_showsOnly tells.toReadable ((shows_free tells).imp Token.isUnrelated_of_isFree)
    placed.wellFormed expression fun _ _ part => unrelated_of_isNamePart tells part

/-- A value shows no relation. -/
theorem value_showsValue {n : Node} (placed : n.WellPlaced) (expression : n.isExpression)
    (value : n.isPredicate = false) :
    Ensures (Sql.ShowsLeaf d.profile quoteNames false) (node d ctx n) := by
  have marks := tells.legible.marks
  induction n using Node.induction with
  | step n ih =>
    intro s rendered
    rcases value_cases expression value with ⟨c, rfl⟩ | ⟨name, args, rfl⟩ | kind
    · rw [Render.node_column tells.unmarked] at rendered
      cases rendered
      exact column_showsValue tells c
    · rw [Render.node_function tells.unmarked] at rendered
      obtain ⟨spec, found, rendered⟩ := Render.function_eq_ok.mp rendered
      have values : ∀ r ∈ args.map fun a => asOperand d a (node d ctx a),
          Ensures (IsValue d.profile quoteNames) r := by
        rw [List.forall_mem_map]
        exact placed.operand_value tells.toReadable
      have unrelated : ∀ r ∈ args.map fun a => asOperand d a (node d ctx a),
          Ensures (Sql.ShowsOnly d.profile quoteNames Token.isUnrelated 0 0) r := by
        rw [List.forall_mem_map]
        exact fun a member => operand_unrelated tells (placed.child member) (placed.root.2 a member)
      rcases Render.apply_showsValue marks (tells.functions.get? found)
        (tells.functionsFree.get? found) values unrelated rendered with leaf | ⟨a, single, rfl⟩
      · exact leaf
      -- The parentheses around a single argument are seen through.
      obtain ⟨arg, rfl, whole⟩ := List.map_eq_singleton_iff.mp single
      have child : arg ∈ (Node.function name [arg]).children := by simp [Node.children]
      have below : arg.WellPlaced := placed.child child
      have inner : arg.isExpression := placed.root.2 arg child
      refine Sql.ShowsLeaf.parens ?_
      rcases operand_cases tells inner whole with ⟨value, written⟩ | ⟨t, written, rfl⟩
      · exact ih arg child below inner value a written
      · have known : Render.Rendered d quoteNames arg t :=
          Render.node_rendered tells.toReadable below.wellFormed t written
        exact (Render.truthCase_term marks known.phrase).showsValue
          (Render.truthCase_showsOnly known.phrase)
    · obtain ⟨term, free⟩ := node_free tells placed.wellFormed kind s rendered
      exact term.showsValue free

/-! ## Predicates -/

omit tells in
/-- What follows a value relates it. -/
theorem relates_of_sign {p : Profile} {e : Sql} (value : IsValue p quoteNames e) {text : String}
    (sign : (outside 0 (Lexer.plainTokens text.toList)).2.any Token.relates) (rest : Sql) :
    (outside 0 ((e ++ Sql.raw text ++ rest).tokens p quoteNames)).2.any Token.relates := by
  obtain ⟨items, grouped, -⟩ := value.exists_items
  rw [List.any_eq_true, ← Sql.tokens_raw p quoteNames] at sign
  rw [List.any_eq_true]
  exact Sql.exists_outside_left (Sql.exists_outside_right (by rw [grouped.outside]) sign) rest

/-- The call that matches a text with a pattern is a relation. -/
theorem pattern_showsRelation {kind : Kind} {args : List (Render.Result Sql)}
    (values : ∀ r ∈ args, Ensures (IsValue d.profile quoteNames) r) {s : Sql}
    (rendered : Render.apply d kind d.profile.regexp args = .ok s) :
    s.ShowsLeaf d.profile quoteNames true := by
  have marks := tells.legible.marks
  have readable := tells.regexp
  have style : d.profile.regexp.style = .call := by rw [tells.pattern]
  have value := Render.apply_value marks readable (fun r member => (values r member).condition) s
    rendered
  rcases Render.apply_eq_ok rendered with ⟨other, -⟩ | ⟨_, _, other, -⟩ | ⟨_, other, -⟩ |
    ⟨parts, -, listed, rfl⟩
  · simp [style] at other
  · simp [style] at other
  · simp [style] at other
  have each := Ensures.parts values listed
  have list : Phrase d.profile quoteNames false (Sql.joinWith ", " parts) :=
    Render.list_phrase marks fun t member => (each t member).condition
  obtain ⟨items, grouped, -⟩ := Grouping.exists_groups list.nested
  have opening : Lexer.plainTokens (d.profile.regexp.name ++ "(").toList =
      [.word "REGEXP_LIKE", .symbol '('] := by
    rw [tells.pattern]
    decide
  have closing : Lexer.plainTokens ")".toList = [.symbol ')'] := by decide
  have word : Groups [.word "REGEXP_LIKE"] [.token (.word "REGEXP_LIKE")] := .token (by decide)
  have called : Groups
      (Sql.tokens d.profile quoteNames (Sql.raw (d.profile.regexp.name ++ "(") ++
        Sql.joinWith ", " parts ++ Sql.raw ")"))
      [.token (.word "REGEXP_LIKE"), .group .paren items] := by
    simp only [Sql.tokens_append, Sql.tokens_raw, opening, closing]
    exact word.append (Groups.parens grouped)
  have leaf : Sql.ReadsLeaf d.profile quoteNames (Sql.raw (d.profile.regexp.name ++ "(") ++
      Sql.joinWith ", " parts ++ Sql.raw ")") := by
    refine Phrase.readsLeaf value.phrase fun inner enclosed => ?_
    simpa using enclosed.unique called
  have named : (Token.word "REGEXP_LIKE").matchesPattern := by decide +kernel
  exact ⟨_, leaf.standsAs called (by simp), by simp [isRelation, named]⟩

/-- A predicate that is no connective shows a relation. -/
theorem predicate_showsRelation {n : Node} (placed : n.WellPlaced) (predicate : n.isPredicate)
    (other : n.kind ∉ [.and, .or, .not]) :
    Ensures (Sql.ShowsLeaf d.profile quoteNames true) (node d ctx n) := by
  have unmarked := tells.unmarked
  have operand {c : Node} (member : c ∈ n.operands) {s : Sql}
      (rendered : asOperand d c (node d ctx c) = .ok s) : IsValue d.profile quoteNames s :=
    placed.operand_value tells.toReadable c member s rendered
  intro s rendered
  have leaf : s.ReadsLeaf d.profile quoteNames := by
    refine node_readsLeaf tells.toReadable placed ?_ ?_ s rendered
    · cases n <;> simp_all [Node.isPredicate, Node.isExpression, Node.kind, Kind.isExpression]
    · cases n <;> simp_all [Node.isPredicate, Node.kind]
  cases n with
  | comparison op left right =>
    rw [Render.node_comparison unmarked] at rendered
    obtain ⟨l, r, leftRendered, -, rfl⟩ := Render.comparison_eq_ok.mp rendered
    refine leaf.showsRelation (relates_of_sign
      (operand (by simp [Node.operands, Node.children]) leftRendered) ?_ r)
    have known : ∀ symbol, op ≠ .other symbol := placed.root.1
    cases op with
    | other symbol => exact absurd rfl (known symbol)
    | _ => decide
  | like expr pattern escape =>
    rw [Render.node_like unmarked] at rendered
    obtain ⟨e, t, x, exprRendered, -, -, rfl⟩ := Render.like_eq_ok.mp rendered
    rw [List.append_assoc] at leaf ⊢
    exact leaf.showsRelation (relates_of_sign
      (operand (by simp [Node.operands, Node.children]) exprRendered) (by decide) _)
  | regexpLike expr pattern =>
    rw [Render.node_regexpLike unmarked] at rendered
    refine pattern_showsRelation tells (fun r member => ?_) (Render.regexpLike_eq_ok.mp rendered).2
    simp only [List.mem_cons, List.not_mem_nil, or_false] at member
    rcases member with rfl | rfl
    · exact fun t written => operand (by simp [Node.operands, Node.children]) written
    · exact fun t written => operand (by simp [Node.operands, Node.children]) written
  | between expr low high =>
    rw [Render.node_between unmarked] at rendered
    obtain ⟨e, l, h, exprRendered, -, -, rfl⟩ := Render.between_eq_ok.mp rendered
    rw [List.append_assoc, List.append_assoc] at leaf ⊢
    exact leaf.showsRelation (relates_of_sign
      (operand (by simp [Node.operands, Node.children]) exprRendered) (by decide) _)
  | inList expr values =>
    rw [Render.node_inList unmarked] at rendered
    obtain ⟨e, vs, exprRendered, -, rfl⟩ := Render.inList_eq_ok.mp rendered
    rw [List.append_assoc] at leaf ⊢
    exact leaf.showsRelation (relates_of_sign
      (operand (by simp [Node.operands, Node.children]) exprRendered) (by decide) _)
  | inSubquery expr statement =>
    rw [Render.node_inSubquery unmarked] at rendered
    obtain ⟨-, e, t, exprRendered, -, rfl⟩ := Render.inSubquery_eq_ok.mp rendered
    rw [List.append_assoc] at leaf ⊢
    exact leaf.showsRelation (relates_of_sign
      (operand (by simp [Node.operands]) exprRendered) (by decide) _)
  | isNull expr =>
    rw [Render.node_isNull unmarked] at rendered
    obtain ⟨e, exprRendered, rfl⟩ := Render.isNull_eq_ok.mp rendered
    rw [← List.append_nil (e ++ _)] at leaf ⊢
    exact leaf.showsRelation (relates_of_sign
      (operand (by simp [Node.operands, Node.children]) exprRendered) (by decide) _)
  | isNotNull expr =>
    rw [Render.node_isNotNull unmarked] at rendered
    obtain ⟨e, exprRendered, rfl⟩ := Render.isNotNull_eq_ok.mp rendered
    rw [← List.append_nil (e ++ _)] at leaf ⊢
    exact leaf.showsRelation (relates_of_sign
      (operand (by simp [Node.operands, Node.children]) exprRendered) (by decide) _)
  | and _ | or _ | not _ => simp [Node.kind] at other
  | _ => simp [Node.isPredicate, Node.kind] at predicate

/-! ## Leaves -/

/-- A truth value becomes a comparison, a predicate is a relation, and nothing else is one. -/
theorem predicate_showsLeaf {n : Node} (placed : n.WellPlaced) (expression : n.isExpression)
    (other : n.kind ∉ [.and, .or, .not]) :
    Ensures (Sql.ShowsLeaf d.profile quoteNames (n.isPredicate || n.isTruthValue))
      (asPredicate d n (node d ctx n)) := by
  have marks := tells.legible.marks
  intro s whole
  by_cases truth : n.isTruthValue
  · rw [truth, Bool.or_true]
    have leaf : s.ReadsLeaf d.profile quoteNames := predicate_readsLeaf tells.toReadable placed
      expression (by cases n <;> simp_all [Node.isTruthValue, Node.kind]) s whole
    refine leaf.showsRelation ?_
    cases n with
    | literal l =>
      have type : l.type = .bool := by simpa [Node.isTruthValue] using truth
      simp only [asPredicate, tells.lacks, type, Bool.false_eq_true, if_false, if_true] at whole
      cases whole
      rw [Sql.tokens_raw]
      split <;> decide
    | column c =>
      have type : c.type.kind = .boolean := by simpa [Node.isTruthValue] using truth
      simp only [asPredicate, Render.node_column tells.unmarked, tells.lacks, type,
        Bool.false_eq_true, if_false, if_true] at whole
      cases whole
      have term : IsTerm d.profile quoteNames (Render.column d ctx c) :=
        Render.column_term tells.legible c
      have compared := @relates_of_sign quoteNames _ _ term.toIsValue " = 1" (by decide) []
      rwa [List.append_nil] at compared
    | _ => simp [Node.isTruthValue] at truth
  · rw [Node.asPredicate_of_not_truth (by simpa using truth)] at whole
    by_cases predicate : n.isPredicate
    · rw [predicate, Bool.true_or]
      exact predicate_showsRelation tells placed predicate other s whole
    · have value : n.isPredicate = false := by simpa using predicate
      have bare : n.isTruthValue = false := by simpa using truth
      rw [value, bare]
      exact value_showsValue tells placed expression value s whole

/-! ## Trees -/

omit tells in
/-- Without truth values, the leaves of a condition are found through its connectives. -/
theorem Node.mem_leaves (lacks : d.has .booleanLiterals = false) {n l : Node} :
    l ∈ (n.logic d).leaves ↔ n.kind ∉ [.and, .or, .not] ∧ l = n ∨
      n.kind ∈ [.and, .or, .not] ∧ ∃ c ∈ n.conditions, l ∈ (c.logic d).leaves := by
  by_cases connective : n.kind ∈ [.and, .or, .not]
  · simp only [connective, not_true, false_and, false_or, true_and]
    cases n <;> simp_all [Node.kind, Node.logic, Logic.leaves, Node.conditions]
  · have leaf : n.logic d = .leaf n := by
      by_cases function : n.kind = .function
      · obtain ⟨name, args, rfl⟩ : ∃ name args, n = .function name args := by
          cases n <;> simp_all [Node.kind]
        exact Node.logic_function d fun _ _ => lacks
      · exact Node.logic_leaf d (by simp_all)
    simp [connective, leaf, Logic.leaves]

omit tells in
/-- A leaf is a condition of its own: the whole one, or an operand inside it. -/
theorem Node.leaf_position (lacks : d.has .booleanLiterals = false) {n l : Node}
    (member : l ∈ (n.logic d).leaves) :
    l.kind ∉ [.and, .or, .not] ∧ (l = n ∨ ∃ m ∈ n.nodes, l ∈ m.conditions) := by
  induction n using Node.induction with
  | step n ih =>
    rcases (Node.mem_leaves lacks).mp member with ⟨other, rfl⟩ | ⟨-, c, condition, inside⟩
    · exact ⟨other, .inl rfl⟩
    · have child := Node.mem_children_of_mem_conditions condition
      obtain ⟨other, rfl | ⟨m, below, stands⟩⟩ := ih c child inside
      · exact ⟨other, .inr ⟨n, n.mem_nodes_self, condition⟩⟩
      · exact ⟨other, .inr ⟨m, Node.mem_nodes_of_mem_children child below, stands⟩⟩

omit tells in
/-- A condition is a value or a predicate. -/
theorem Node.WellPlaced.condition {n : Node} (placed : n.WellPlaced) {m c : Node}
    (inside : m ∈ n.nodes) (condition : c ∈ m.conditions) : c.WellPlaced ∧ c.isExpression := by
  have below : m.WellPlaced := placed.of_mem inside
  have child := Node.mem_children_of_mem_conditions condition
  refine ⟨below.child child, below.root.2 c ?_⟩
  cases m with
  | select _ | join _ _ _ _ => exact condition
  | and _ | or _ | not _ | case _ _ _ | aggregate _ _ _ _ => exact child
  | _ => simp [Node.conditions] at condition

/-- Each leaf of a condition is a relation exactly if it is a predicate or a truth value. -/
theorem leafItems_isRelation {n : Node} (placed : n.WellPlaced) (expression : n.isExpression)
    {s : Sql} (rendered : asPredicate d n (node d ctx n) = .ok s) {l : Node}
    (member : l ∈ (n.logic d).leaves) :
    isRelation (l.leafItems d ctx) = (l.isPredicate || l.isTruthValue) := by
  have read := (predicate_readsTree tells.toReadable placed expression rendered).1 l member
  obtain ⟨other, position⟩ := Node.leaf_position tells.lacks member
  have own : l.WellPlaced ∧ l.isExpression := by
    rcases position with rfl | ⟨m, inside, condition⟩
    · exact ⟨placed, expression⟩
    · exact placed.condition inside condition
  obtain ⟨t, written⟩ : ∃ t, asPredicate d l (node d ctx l) = .ok t := by
    cases whole : asPredicate d l (node d ctx l) with
    | ok t => exact ⟨t, rfl⟩
    | error e => simp [Node.readBack, whole] at read
  have phrase : Phrase d.profile ctx.quoteNames false t :=
    Render.asPredicate_phrase tells.legible.marks
      (Render.node_rendered tells.toReadable own.1.wellFormed) t written
  obtain ⟨items, stands, known⟩ : t.ShowsLeaf d.profile ctx.quoteNames
      (l.isPredicate || l.isTruthValue) := predicate_showsLeaf tells own.1 own.2 other t written
  have again : l.readBack d ctx = some (.leaf items) := by
    rw [Node.readBack, written]
    exact stands.reads.read_eq phrase
  rw [again] at read
  simp only [Option.some.injEq, Logic.leaf.injEq] at read
  rw [← read, known]

/-- A condition is written as a search condition exactly if its leaves are predicates and truth
values. -/
theorem isSearchCondition_iff {n : Node} (placed : n.WellPlaced) (expression : n.isExpression)
    {s : Sql} (rendered : asPredicate d n (node d ctx n) = .ok s) :
    isSearchCondition d.profile (s.write d.profile ctx.quoteNames) ↔
      ∀ l ∈ (n.logic d).leaves, l.isPredicate ∨ l.isTruthValue := by
  have read := Node.readBack_eq tells.toReadable placed expression rendered
  rw [Node.readBack, rendered] at read
  simp only at read
  simp only [isSearchCondition, read, Logic.leaves_map, Logic.leaves_collapse, List.all_map,
    List.all_eq_true, Function.comp_apply]
  refine forall_congr' fun l => forall_congr' fun member => ?_
  rw [leafItems_isRelation tells placed expression rendered member, Bool.or_eq_true]

end

/-! ## Requests -/

/-- The nodes that stand where a condition is expected, anywhere in a tree. -/
def Node.allConditions (n : Node) : List Node := n.nodes.flatMap Node.conditions

/-- The text of a node that stands where a condition is expected. -/
def Node.conditionText (d : Dialect) (ctx : Context) (c : Node) : Render.Result String :=
  (asPredicate d c (node d ctx c)).map (Sql.write d.profile ctx.quoteNames)

namespace Node

variable {n c : Node}

theorem isPredicate_of_connective (h : c.kind ∈ [.and, .or, .not]) : c.isPredicate := by
  cases c <;> simp_all [kind, isPredicate]

theorem mem_allConditions : c ∈ n.allConditions ↔ ∃ m ∈ n.nodes, c ∈ m.conditions :=
  List.mem_flatMap

/-- The leaves of the conditions in a tree are themselves conditions in it. -/
theorem leaf_mem_allConditions {d : Dialect} (lacks : d.has .booleanLiterals = false)
    (position : c ∈ n.allConditions) {l : Node} (member : l ∈ (c.logic d).leaves) :
    l ∈ n.allConditions := by
  obtain ⟨-, rfl | ⟨m, inside, condition⟩⟩ := leaf_position lacks member
  · exact position
  · obtain ⟨around, above, stands⟩ := mem_allConditions.mp position
    have child := mem_children_of_mem_conditions stands
    have below : around.Everywhere (· ∈ n.nodes) := Everywhere.of_mem (fun _ here => here) above
    exact mem_allConditions.mpr
      ⟨m, below m (mem_nodes_of_mem_children child inside), condition⟩

end Node

namespace Builtin

variable {b : Builtin} (lacking : b = .sqlServer ∨ b = .oracle) (notes : Notes) {ctx : Context}
variable {text : String} {r : PushdownRequest} (read : Request.readPushdown text = .ok r)

include lacking read

/-- Every condition of a statement is written, and its text is a search condition exactly if the
nodes between its connectives are predicates and truth values. -/
theorem conditionText_iff {s : Statement} (stated : r.statement = some s) {sql : String}
    (generated : (b.build notes).generate ctx (some (.select s)) = .ok sql) {c : Node}
    (position : c ∈ (Node.select s).allConditions) :
    ∃ t, c.conditionText (b.build notes) ctx = .ok t ∧ t.toList <:+: sql.toList ∧
      (isSearchCondition (b.build notes).profile t ↔
        ∀ l ∈ (c.logic (b.build notes)).leaves, l.isPredicate ∨ l.isTruthValue) := by
  have tells := tellsRelations lacking notes
  obtain ⟨s', stated', placed⟩ := Request.readPushdown_wellPlaced read
  obtain rfl : s = s' := Option.some.inj (stated.symm.trans stated')
  obtain ⟨fragments, rendered, rfl, -⟩ := tells.generate_phrase placed.wellFormed generated
  obtain ⟨m, inside, condition⟩ := Node.mem_allConditions.mp position
  obtain ⟨own, expression⟩ := placed.condition inside condition
  obtain ⟨t, written, occurs⟩ := Render.parts_occur (b.lossless notes) (b.has_simpleCase notes)
    placed.wellFormed rendered inside (Render.mem_parts_of_condition condition)
  exact ⟨_, by rw [Node.conditionText, written]; rfl, Sql.write_infix _ _ occurs,
    isSearchCondition_iff tells own expression written⟩

/-- A value in the place of a condition stands bare, unless it is a truth value. -/
theorem conditionText_of_value {s : Statement} (stated : r.statement = some s) {sql : String}
    (generated : (b.build notes).generate ctx (some (.select s)) = .ok sql) {c : Node}
    (position : c ∈ (Node.select s).allConditions) (value : ¬(c.isPredicate ∨ c.isTruthValue)) :
    ∃ t, c.conditionText (b.build notes) ctx = .ok t ∧
      isSearchCondition (b.build notes).profile t = false := by
  obtain ⟨t, written, -, search⟩ := conditionText_iff lacking notes read stated generated position
  have other : c.kind ∉ [.and, .or, .not] := fun connective =>
    value (.inl (Node.isPredicate_of_connective connective))
  have own : c ∈ (c.logic (b.build notes)).leaves :=
    (Node.mem_leaves (tellsRelations lacking notes).lacks).mpr (.inl ⟨other, rfl⟩)
  exact ⟨t, written, eq_false_of_ne_true fun sound => value (search.mp sound c own)⟩

/-- Every condition of a statement is written, and its text is a search condition exactly if the
nodes between its connectives are predicates and truth values. All conditions are search conditions
exactly if each of them is a predicate or a truth value. -/
theorem search_conditions_iff {sql : String}
    (generated : (b.build notes).generate ctx (r.statement.map .select) = .ok sql) :
    ∃ s, r.statement = some s ∧
      (∀ c ∈ (Node.select s).allConditions, ∃ t,
        c.conditionText (b.build notes) ctx = .ok t ∧ t.toList <:+: sql.toList ∧
        (isSearchCondition (b.build notes).profile t ↔
          ∀ l ∈ (c.logic (b.build notes)).leaves, l.isPredicate ∨ l.isTruthValue)) ∧
      ((∀ c ∈ (Node.select s).allConditions, ∃ t, c.conditionText (b.build notes) ctx = .ok t ∧
          isSearchCondition (b.build notes).profile t) ↔
        ∀ c ∈ (Node.select s).allConditions, c.isPredicate ∨ c.isTruthValue) := by
  have lacks := (tellsRelations lacking notes).lacks
  obtain ⟨s, stated, -⟩ := Request.readPushdown_wellPlaced read
  rw [stated] at generated
  have each {c : Node} :=
    @conditionText_iff b lacking notes ctx text r read s stated sql generated c
  refine ⟨s, stated, fun c => each, fun all c position => ?_, fun sound c position => ?_⟩
  · by_contra value
    obtain ⟨t, written, bare⟩ :=
      conditionText_of_value lacking notes read stated generated position value
    obtain ⟨t', written', search⟩ := all c position
    obtain rfl : t = t' := Except.ok.inj (written.symm.trans written')
    simp [bare] at search
  · obtain ⟨t, written, -, leaves⟩ := each position
    exact ⟨t, written, leaves.mpr fun l member =>
      sound l (Node.leaf_mem_allConditions lacks position member)⟩

omit lacking read in
set_option maxRecDepth 10000 in
/-- A column of truth values becomes a comparison, also below a connective. -/
theorem search_condition_of_boolean_column :
    let text := "\x7b\"type\":\"pushdown\",\"involvedTables\":[\x7b\"name\":\"T\",
      \"columns\":[\x7b\"name\":\"A\",\"dataType\":\x7b\"type\":\"BOOLEAN\"\x7d\x7d]\x7d],
      \"pushdownRequest\":\x7b\"type\":\"select\",\"from\":\x7b\"type\":\"table\",
      \"name\":\"T\"\x7d,\"filter\":\x7b\"type\":\"predicate_not\",\"expression\":\x7b
      \"type\":\"column\",\"name\":\"A\",\"tableName\":\"T\"\x7d\x7d\x7d\x7d"
    let d := Builtin.sqlServer.build {}
    let ctx : Context := { quoteNames := true }
    ∃ r s, Request.readPushdown text = .ok r ∧ r.statement = some s ∧
      d.generate ctx (some (.select s)) = .ok "SELECT * FROM [T] WHERE NOT ([A] = 1)" ∧
      ∀ c ∈ (Node.select s).allConditions, ∃ t, c.conditionText d ctx = .ok t ∧
        isSearchCondition d.profile t := by
  intro text d ctx
  have same : text = String.ofList _ := rfl
  have shown : (Request.readPushdown text).toOption.map (fun r =>
      ((d.generate ctx (r.statement.map .select)).toOption,
        r.statement.map fun s => (Node.select s).allConditions.all fun c =>
          c.isPredicate || c.isTruthValue)) =
      some (some "SELECT * FROM [T] WHERE NOT ([A] = 1)", some true) := by
    rw [same, Request.readPushdown, Request.read, Object.readDocument_ofList]
    decide +kernel
  obtain ⟨r, read, listed⟩ := Request.exists_of_toOption shown
  obtain ⟨generated, listed⟩ := Prod.mk.inj listed
  obtain ⟨s, stated, sound⟩ := Option.map_eq_some_iff.mp listed
  have generated := toOption_eq_some.mp generated
  obtain ⟨s', stated', -, all⟩ := search_conditions_iff (.inl rfl) {} read generated
  obtain rfl : s = s' := Option.some.inj (stated.symm.trans stated')
  rw [stated] at generated
  refine ⟨r, s, read, stated, generated, all.mpr ?_⟩
  simpa using sound

omit lacking read in
set_option maxRecDepth 10000 in
/-- NULL stands bare between connectives, and so does a column of a derived table, though it holds
truth values. Neither is refused. -/
theorem search_condition_of_null :
    let text := "\x7b\"type\":\"pushdown\",\"involvedTables\":[\x7b\"name\":\"T\",
      \"columns\":[\x7b\"name\":\"A\",\"dataType\":\x7b\"type\":\"BOOLEAN\"\x7d\x7d]\x7d],
      \"pushdownRequest\":\x7b\"type\":\"select\",\"from\":\x7b\"type\":\"sub_select\",
      \"alias\":\"X\",\"select\":\x7b\"type\":\"select\",\"from\":\x7b\"type\":\"table\",
      \"name\":\"T\"\x7d\x7d\x7d,\"filter\":\x7b\"type\":\"predicate_or\",\"expressions\":[
      \x7b\"type\":\"literal_null\"\x7d,\x7b\"type\":\"column\",\"name\":\"A\",
      \"tableName\":\"X\"\x7d]\x7d\x7d\x7d"
    let d := Builtin.sqlServer.build {}
    let ctx : Context := { quoteNames := true }
    let sql := "SELECT * FROM (SELECT * FROM [T]) AS [X] WHERE NULL OR [X].[A]"
    ∃ r s, Request.readPushdown text = .ok r ∧ r.statement = some s ∧
      d.generate ctx (some (.select s)) = .ok sql ∧
      ∃ connective null column, (Node.select s).allConditions = [connective, null, column] ∧
        null.conditionText d ctx = .ok "NULL" ∧ column.conditionText d ctx = .ok "[X].[A]" ∧
        isSearchCondition d.profile "NULL" = false ∧
        isSearchCondition d.profile "[X].[A]" = false := by
  intro text d ctx sql
  have same : text = String.ofList _ := rfl
  have shown : (Request.readPushdown text).toOption.map (fun r =>
      ((d.generate ctx (r.statement.map .select)).toOption,
        r.statement.map fun s => (Node.select s).allConditions.map fun c =>
          (c.isPredicate || c.isTruthValue, (c.conditionText d ctx).toOption))) =
      some (some sql, some [(true, some "NULL OR [X].[A]"), (false, some "NULL"),
        (false, some "[X].[A]")]) := by
    rw [same, Request.readPushdown, Request.read, Object.readDocument_ofList]
    decide +kernel
  obtain ⟨r, read, listed⟩ := Request.exists_of_toOption shown
  obtain ⟨generated, listed⟩ := Prod.mk.inj listed
  obtain ⟨s, stated, listed⟩ := Option.map_eq_some_iff.mp listed
  rw [stated] at generated
  have generated := toOption_eq_some.mp generated
  have bare (c : Node) (t : String) (position : c ∈ (Node.select s).allConditions)
      (shown : (c.isPredicate || c.isTruthValue, (c.conditionText d ctx).toOption) =
        (false, some t)) :
      c.conditionText d ctx = .ok t ∧ isSearchCondition d.profile t = false := by
    obtain ⟨value, written⟩ := Prod.mk.inj shown
    have written := toOption_eq_some.mp written
    obtain ⟨t', written', search⟩ := conditionText_of_value (.inl rfl) {} read stated generated
      position (by simpa using value)
    obtain rfl : t = t' := Except.ok.inj (written.symm.trans written')
    exact ⟨written, search⟩
  obtain ⟨connective, rest, all, -, listed⟩ := List.map_eq_cons_iff.mp listed
  obtain ⟨null, rest, rfl, nullShown, listed⟩ := List.map_eq_cons_iff.mp listed
  obtain ⟨column, rfl, columnShown⟩ := List.map_eq_singleton_iff.mp listed
  obtain ⟨nullText, nullBare⟩ := bare null _ (by simp [all]) nullShown
  obtain ⟨columnText, columnBare⟩ := bare column _ (by simp [all]) columnShown
  exact ⟨r, s, read, stated, generated, connective, null, column, all, nullText, columnText,
    nullBare, columnBare⟩

end Builtin

end Pushdown
