import Pushdown.Proofs.Dialect.Capability
import Pushdown.Proofs.Request.WellFormed
import Pushdown.Proofs.Sql.Expressible

/-!
# What Exasol refuses

Requests come from Exasol, so a statement that is sent back there should have a text. Exasol has
every feature, and every kind of join, constant, type and frame that a request can describe. What is
left to refuse are calls: of a function that is in none of its tables, or of a scalar function with
another number of arguments.
-/

namespace Pushdown

/-- Why the dialect refuses the call of a function, whatever its arguments are. -/
def Dialect.callRefusal? (d : Dialect) : Node → Option Unsupported
  | .function name args =>
    match d.profile.functions.get? name with
    | none => some ⟨d.id, Kind.function.name, "function " ++ name, ""⟩
    | some spec =>
      if spec.takes args.length then none
      else some ⟨d.id, Kind.function.name, spec.name,
        s!"expects {spec.arity} arguments, got {args.length}"⟩
  | .aggregate name .. =>
    if d.profile.aggregates.contains name then none
    else some ⟨d.id, Kind.aggregate.name, "aggregate " ++ name, ""⟩
  | .window name .. =>
    if d.profile.windowFunctions.contains name then none
    else some ⟨d.id, Kind.window.name, "window function " ++ name, ""⟩
  | _ => none

namespace Render

variable {d : Dialect} {ctx : Context}

/-- A tree is refused with the refusal of one of its nodes that is not expressible. -/
theorem node_refusal_origin (lossless : d.Lossless) {n : Node} (rules : n.WellFormed)
    {e : Unsupported} (refused : refusal (node d ctx n) = some e) :
    ∃ m ∈ n.nodes, m.expressible d = false ∧ refusal (node d ctx m) = some e := by
  induction n using Node.induction with
  | step n ih =>
    rcases (node_decided lossless rules.root).refuses e refused with ⟨broken, -⟩ | member
    · exact ⟨n, n.mem_nodes_self, by simpa using broken, refused⟩
    · obtain ⟨c, child, refused⟩ := List.mem_map.mp member
      obtain ⟨m, member, origin⟩ := ih c child (rules.child child) refused
      exact ⟨m, Node.mem_nodes_of_mem_children child member, origin⟩

/-- A call that the dialect does not have is refused before its arguments are looked at. -/
theorem node_of_callRefusal (unmarked : d.marked = []) (windows : d.has .windowFunctions) {n : Node}
    {e : Unsupported} (refused : d.callRefusal? n = some e) : node d ctx n = .error e := by
  cases n with
  | function name args =>
    rw [node_function unmarked]
    simp only [Dialect.callRefusal?] at refused
    cases found : d.profile.functions.get? name with
    | none =>
      simp only [found] at refused
      simp only [function, found, refuse]
      exact congrArg _ (Option.some.inj refused)
    | some spec =>
      simp only [found, Option.ite_none_left_eq_some] at refused
      obtain ⟨wrong, same⟩ := refused
      have wrong : 0 ≤ spec.arity ∧ (args.length : Int) ≠ spec.arity := by
        simpa [FunctionSpec.takes] using wrong
      simp only [function, found, apply, List.length_map, if_pos wrong, refuse]
      exact congrArg _ (Option.some.inj same)
  | aggregate name distinct args filter =>
    rw [node_aggregate unmarked]
    obtain ⟨missing, same⟩ := Option.ite_none_left_eq_some.mp refused
    have missing : d.profile.aggregates.get? name = none := by
      simpa [Dictionary.contains] using missing
    simp only [aggregate, missing, refuse]
    exact congrArg _ (Option.some.inj same)
  | window name args partition order frame =>
    rw [node_window unmarked]
    obtain ⟨missing, same⟩ := Option.ite_none_left_eq_some.mp refused
    have missing : d.profile.windowFunctions.get? name = none := by
      simpa [Dictionary.contains] using missing
    simp only [window, require, windows, missing, refuse]
    exact congrArg _ (Option.some.inj same)
  | _ => simp [Dialect.callRefusal?] at refused

end Render

namespace Builtin

variable {notes : Notes}

theorem exasol_has (c : Capability) : (exasol.build notes).has c := by
  change CapabilitySet.full.has c
  cases c <;> decide

/-- Exasol has every join that a request can describe. -/
theorem exasol_joins {type : JoinType} (known : ∀ name, type ≠ .other name) :
    (exasol.build notes).joins type := by
  cases type with
  | inner | left => rfl
  | right | full => exact exasol_has _
  | other name => exact absurd rfl (known name)

/-- Exasol has constants of every type. -/
theorem exasol_writes {l : Literal} (format : l.KeepsFormat) :
    (exasol.build notes).writes l.type := by
  unfold Literal.KeepsFormat at format
  cases type : l.type with
  | interval => exact exasol_has _
  | other name =>
    rw [type] at format
    contradiction
  | _ => rfl

/-- Exasol has every type whose parameters make sense. -/
theorem exasol_typeName {type : DataType} (checked : Build.checkType .cast type = .ok ()) :
    ((exasol.build notes).profile.typeName? type).isSome := by
  have spelled : ∀ kind ∈ TypeKind.known,
      (exasolProfile.types.get? kind).any fun spec =>
        kind != .timestamp || spec.localTimeZone != "" := by decide +kernel
  change (exasolProfile.typeName? type).isSome
  have known : type.kind ∈ TypeKind.known := by
    cases kind : type.kind with
    | other name => simp [Build.checkType, kind, Build.fail] at checked
    | _ => decide
  obtain ⟨spec, found, zoned⟩ := Option.any_eq_true _ _ |>.mp (spelled _ known)
  simp only [Profile.typeName?, Option.bind_eq_bind, found, Option.bind_some]
  split
  · rename_i local'
    simp_all
  · split
    · rfl
    · split <;> rfl

/-- All that Exasol lacks is calls. -/
theorem exasol_expressible_iff {n : Node} (rules : n.KeepsRules) :
    n.expressible (exasol.build notes) ↔ (exasol.build notes).callRefusal? n = none := by
  cases n with
  | function name args =>
    simp only [Node.expressible, Dialect.calls, Dialect.callRefusal?]
    cases (exasol.build notes).profile.functions.get? name with
    | none => simp
    | some spec => simp
  | aggregate name distinct args filter =>
    simp [Node.expressible, Dialect.callRefusal?, exasol_has]
  | window name args partition order frame =>
    simp [Node.expressible, Dialect.callRefusal?, exasol_has]
  | join type left right condition =>
    simp [Node.expressible, Dialect.callRefusal?, exasol_joins rules.1]
  | literal l => simp [Node.expressible, Dialect.callRefusal?, exasol_writes rules]
  | cast arg type => simp [Node.expressible, Dialect.callRefusal?, exasol_typeName rules]
  | groupConcat arg distinct order separator =>
    have joins : (exasol.build notes).joinsDistinct separator := rfl
    simp [Node.expressible, Dialect.callRefusal?, exasol_has, joins]
  | extract part arg =>
    have extracts : (exasol.build notes).extracts part = (exasol.build notes).has .extract := rfl
    simp [Node.expressible, Dialect.callRefusal?, exasol_has, extracts]
  | regexpLike expr pattern =>
    have takes : (exasol.build notes).profile.regexp.takes 2 := rfl
    simp [Node.expressible, Dialect.callRefusal?, exasol_has, takes]
  | limit l =>
    have style : (exasol.build notes).profile.limitStyle = .limitOffset := rfl
    simp [Node.expressible, Dialect.callRefusal?, exasol_has, style]
  | _ => simp [Node.expressible, Dialect.callRefusal?, exasol_has]

/-- A statement that Exasol has sent has a text for Exasol, whatever it is made of, unless one of
its calls is of a function that Exasol does not know or takes with other arguments. The refusal is
then that of such a call. -/
theorem exasol_refuses_only_calls (text : String) (r : PushdownRequest) (notes : Notes)
    (ctx : Context) (read : Request.readPushdown text = .ok r) :
    let d := exasol.build notes
    ∃ s, r.statement = some s ∧
      ((∃ sql, d.generate ctx (some (.select s)) = .ok sql) ↔
        ∀ m ∈ (Node.select s).nodes, d.callRefusal? m = none) ∧
      ∀ e, d.generate ctx (some (.select s)) = .error e →
        ∃ m ∈ (Node.select s).nodes, d.callRefusal? m = some e := by
  intro d
  obtain ⟨s, given, placed⟩ := Request.readPushdown_wellPlaced read
  have rules := placed.wellFormed
  have lossless := exasol.lossless notes
  refine ⟨s, given, ?_, fun e refused => ?_⟩
  · rw [(generate_eq_ok_iff exasol notes ctx _ rules).1]
    exact forall₂_congr fun m member => exasol_expressible_iff (rules m member)
  · have refused : Render.refusal (Render.node d ctx (.select s)) = some e := by
      simp only [Dialect.generate, bind_eq_error, pure_ne_error, and_false, exists_false,
        or_false] at refused
      rw [refused, Render.refusal]
    obtain ⟨m, member, broken, origin⟩ := Render.node_refusal_origin lossless rules refused
    refine ⟨m, member, ?_⟩
    cases call : d.callRefusal? m with
    | none =>
      rw [(exasol_expressible_iff (rules m member)).mpr call] at broken
      contradiction
    | some e' =>
      rw [Render.node_of_callRefusal lossless.unmarked (exasol_has _) call] at origin
      exact origin

set_option maxRecDepth 10000 in
/-- The absolute value of nothing is refused, though a request can ask for it. -/
theorem exasol_refuses_missing_argument :
    let text := "\x7b\"type\":\"pushdown\",\"pushdownRequest\":\x7b\"type\":\"select\",
      \"selectList\":[\x7b\"type\":\"function_scalar\",\"name\":\"abs\",\"arguments\":[]\x7d]\x7d\x7d"
    ∃ r s, Request.readPushdown text = .ok r ∧ r.statement = some s ∧
      (exasol.build {}).generate {} (some (.select s)) =
        .error ⟨"EXASOL", "function", "ABS", "expects 1 arguments, got 0"⟩ := by
  intro text
  let s : Statement := { list := { items := [{ expr := .function "ABS" [] }] } }
  have read : Request.readPushdown text = .ok { statement := some s } := by
    have same : text = String.ofList _ := rfl
    rw [same, Request.readPushdown, Request.read, Object.readDocument_ofList]
    rfl
  obtain ⟨s', given, succeeds, refuses⟩ := exasol_refuses_only_calls text _ {} {} read
  obtain rfl : s = s' := Option.some.inj given
  have nodes : (Node.select s).nodes =
      [.select s, .selectList s.list, .function "ABS" []] := by
    simp [s, Node.nodes_eq, Node.children]
  refine ⟨_, s, read, rfl, ?_⟩
  cases outcome : (exasol.build {}).generate {} (some (.select s)) with
  | ok sql =>
    have all := succeeds.mp ⟨sql, outcome⟩ (.function "ABS" []) (by simp [nodes])
    exact absurd all (by decide +kernel)
  | error e =>
    obtain ⟨m, member, call⟩ := refuses e outcome
    simp only [nodes, List.mem_cons, List.not_mem_nil, or_false] at member
    rcases member with rfl | rfl | rfl
    · exact absurd call (by simp [Dialect.callRefusal?])
    · exact absurd call (by simp [Dialect.callRefusal?])
    · have known : (exasol.build {}).callRefusal? (.function "ABS" []) =
          some ⟨"EXASOL", "function", "ABS", "expects 1 arguments, got 0"⟩ := by
        decide +kernel
      exact congrArg _ (Option.some.inj (call.symm.trans known))

end Builtin

end Pushdown
